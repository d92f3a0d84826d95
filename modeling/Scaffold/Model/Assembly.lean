import Scaffold.Layout.Code
import Scaffold.Model.Basic
import Scaffold.Template.Basic

/-! The texts for the places of a model template. Most places have one line per field; the
accessors of relations and the conformances are blocks of their own. -/

namespace Scaffold.Model

/-- The expression for the column key of a field. -/
def columnKey (model field : Text) : Text :=
  model ++ ".Field." ++ field ++ ".rawValue"

/-- The schema call that makes the column of a field. -/
def schemaCall (model : Text) (f : Field) : Text :=
  let key := columnKey model f.name
  let optional : Text := if f.isOptional then ", optional: true" else []
  match f.type with
  | .scalar s => "builder." ++ s.column ++ "(" ++ key ++ optional ++ ")"
  | .relation r =>
    "builder.parent(" ++ Text.capitalize r ++ ".self" ++ optional ++ ", foreignIdKey: " ++ key ++
      ")"

/-- What a field contributes to a place. -/
def fieldLine (model : Text) (f : Field) : Placeholder → Option Text
  | .properties => some ("var " ++ f.name ++ ": " ++ f.declaredType)
  | .initParams => some (f.name ++ ": " ++ f.declaredType)
  | .initBody => some ("self." ++ f.name ++ " = " ++ f.name)
  | .rowInit => some (f.name ++ " = try row.get(" ++ columnKey model f.name ++ ")")
  | .makeRow => some ("try row.set(" ++ columnKey model f.name ++ ", " ++ f.name ++ ")")
  | .jsonInit => some (f.name ++ " = try json.get(" ++ columnKey model f.name ++ ")")
  | .makeJson => some ("try json.set(" ++ columnKey model f.name ++ ", " ++ f.name ++ ")")
  | .builder => some (schemaCall model f)
  | .keys => some ("case " ++ f.name)
  | _ => none

/-- The line that opens a block. -/
def opening (t : Text) : Text :=
  t ++ " \x7b"

/-- A block of code between braces. -/
def braced (header : Text) (body : List Code.Step) : Code.Step :=
  .block (opening header) ['\x7d'] body

/-- The extension with the accessor of a relation. -/
def parentAccessor (indent : Indent) (model : Text) (f : Field) : Text :=
  let target := f.type.target?.getD []
  let mark : Text := if f.isOptional then ['?'] else []
  Code.write indent [
    braced ("extension " ++ model) [
      braced ("var " ++ f.name ++ "Parent: Parent<" ++ model ++ ", " ++ target ++ ">" ++ mark) [
        .when f.isOptional [
          .line (opening ("guard let " ++ f.name ++ " = " ++ f.name ++ " else") ++
            " return nil \x7d")],
        .line ("return parent(id: " ++ f.name ++ ")")]]]

/-- The extension with a conformance. -/
def conformance (indent : Indent) (model protocol signature body : Text) : Text :=
  Code.write indent [
    braced ("extension " ++ model ++ ": " ++ protocol) [
      braced signature [.line body]]]

def nodeConformance (indent : Indent) (model : Text) : Text :=
  conformance indent model "NodeRepresentable"
    "func makeNode(in context: Context?) throws -> Node"
    "return try makeJSON().makeNode(in: context)"

def viewDataConformance (indent : Indent) (model : Text) : Text :=
  conformance indent model "ViewDataRepresentable"
    "func makeViewData() throws -> ViewData"
    "return try makeJSON().makeViewData()"

/-- The layout of a place of a model template. -/
def layout (indent : Indent) : Placeholder → Filling.Layout
  | .modelName | .controllerName | .title => .inline []
  | .initParams => .inline ", "
  | .parents | .node | .viewData => .blocks
  | p => .lines (indent.ofDepth p.depth)

/-- All contributions of a model to a place. -/
def contributions (indent : Indent) (m : Model) : Placeholder → Option (List Text)
  | .modelName => some [m.name]
  | .entity => some (m.entity.toList.map fun e => "static let entity = \"" ++ e ++ "\"")
  | .parents => some (m.relations.map (parentAccessor indent m.name))
  | .node => some (if m.conformances.node then [nodeConformance indent m.name] else [])
  | .viewData =>
    some (if m.conformances.viewData then [viewDataConformance indent m.name] else [])
  | .controllerName | .title => none
  | p => some (m.fields.filterMap fun f => fieldLine m.name f p)

/-- The texts of a model. A blank line stands above the second of two conformances. -/
def fillings (indent : Indent) (m : Model) : Fillings :=
  ⟨fun p => (m.contributions indent p).map fun ts =>
    { Filling.ofList (layout indent p) ts with
      leadingBlank := p == .viewData && m.conformances.node }⟩

end Scaffold.Model
