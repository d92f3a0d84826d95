import Scaffold.Disk.Script
import Scaffold.Template.Basic
import Scaffold.Text.Utf8

/-! The templates that files are made from: three that are built in, and a directory of the
project's own templates that replaces them. -/

namespace Scaffold

/-- What a template makes. -/
inductive Template.Kind where
  | model | controller | view
  deriving DecidableEq, Repr

namespace Template

/-- The name of a template in a directory of templates. -/
def Kind.fileName : Kind → Text
  | .model => "model.swift"
  | .controller => "controller.swift"
  | .view => "view.leaf"

/-- The built-in template of a model. -/
def modelSource : Text :=
  Text.ofLines .lf true (List.map String.toList [
    "import Vapor",
    "import FluentProvider",
    "import HTTP",
    "",
    "final class VAR_MODEL_NAME: Model \x7b",
    "    let storage = Storage()",
    "    VAR_ENTITY",
    "",
    "    VAR_PROPERTIES",
    "",
    "    init(VAR_INIT_PARAMS) \x7b",
    "        VAR_INIT_BODY",
    "    \x7d",
    "",
    "    init(row: Row) throws \x7b",
    "        VAR_ROW_INIT",
    "    \x7d",
    "",
    "    func makeRow() throws -> Row \x7b",
    "        var row = Row()",
    "        VAR_MAKE_ROW",
    "        return row",
    "    \x7d",
    "",
    "    init(json: JSON) throws \x7b",
    "        VAR_JSON_INIT",
    "    \x7d",
    "\x7d",
    "",
    "extension VAR_MODEL_NAME \x7b",
    "    enum Field: String \x7b",
    "        VAR_KEYS",
    "    \x7d",
    "\x7d",
    "",
    "VAR_PARENTS",
    "",
    "extension VAR_MODEL_NAME: Preparation \x7b",
    "    static func prepare(_ database: Database) throws \x7b",
    "        try database.create(self) \x7b builder in",
    "            builder.id()",
    "            VAR_BUILDER",
    "        \x7d",
    "    \x7d",
    "",
    "    static func revert(_ database: Database) throws \x7b",
    "        try database.delete(self)",
    "    \x7d",
    "\x7d",
    "",
    "extension VAR_MODEL_NAME: JSONConvertible \x7b",
    "    func makeJSON() throws -> JSON \x7b",
    "        var json = JSON()",
    "        try json.set(VAR_MODEL_NAME.idKey, id)",
    "        VAR_MAKE_JSON",
    "        return json",
    "    \x7d",
    "\x7d",
    "",
    "extension VAR_MODEL_NAME: ResponseRepresentable \x7b \x7d",
    "",
    "VAR_NODE",
    "VAR_VIEW_DATA"])

/-- The built-in template of a controller. -/
def controllerSource : Text :=
  Text.ofLines .lf true (List.map String.toList [
    "import Vapor",
    "import HTTP",
    "",
    "final class VAR_CONTROLLER_NAME \x7b",
    "    func addRoutes(_ builder: RouteBuilder) \x7b",
    "",
    "    \x7d",
    "\x7d"])

/-- The built-in template of a view. -/
def viewSource : Text :=
  Text.ofLines .lf true (List.map String.toList [
    "#extend(\"base\")",
    "",
    "#export(\"title\") \x7b VAR_TITLE \x7d",
    "",
    "#export(\"content\") \x7b",
    "",
    "\x7d"])

/-- The built-in template of a kind. -/
def builtin : Kind → Template
  | .model => ⟨modelSource, .builtin⟩
  | .controller => ⟨controllerSource, .builtin⟩
  | .view => ⟨viewSource, .builtin⟩

/-- Why a template cannot be read. -/
inductive LoadError where
  | notFound (path : Path)
  | unreadable (path : Path)
  deriving DecidableEq, Repr

end Template

/-- Why the text of a file cannot be had. -/
inductive ReadError where
  | missing
  | unreadable
  deriving DecidableEq, Repr

/-- Read the text of a file. -/
def Script.readText {τ : Type} (p : Path) : Script τ (Except ReadError Text) := do
  match ← Script.read p with
  | .error .missing => return .error .missing
  | .error _ => return .error .unreadable
  | .ok content =>
    match Text.decode? content with
    | some t => return .ok t
    | none => return .error .unreadable

namespace Template

variable {τ : Type}

/-- Read a template of a directory. -/
def load (folder : Path) (kind : Kind) : Script τ (Except LoadError Template) := do
  let path := folder.join ⟨kind.fileName⟩
  match ← Script.readText path with
  | .ok source => return .ok ⟨source, .file path⟩
  | .error .missing => return .error (.notFound path)
  | .error .unreadable => return .error (.unreadable path)

/-- The template of a directory, if there is one, or the built-in one. -/
def resolve (folder : Option Path) (kind : Kind) : Script τ (Except LoadError Template) :=
  match folder with
  | some folder => load folder kind
  | none => return .ok (builtin kind)

end Template
end Scaffold
