import Scaffold.Disk.Commit
import Scaffold.Model.Assembly
import Scaffold.Project
import Scaffold.Registration

/-! What a request would write. A plan is made by reading only: the template, the files that
are there, and the setup file. It can be shown, or committed as it is. -/

namespace Scaffold

/-- What a controller serves. -/
inductive ControllerKind where
  | view | api
  deriving DecidableEq, Repr

namespace ControllerKind

def name : ControllerKind → Text
  | .view => "view"
  | .api => "api"

/-- The directory of the controllers of a kind. -/
def folderName : ControllerKind → Text
  | .view => "Views"
  | .api => "API"

/-- The kind with a name, in any case; `views` is another name of `view`. -/
def ofText? (t : Text) : Option ControllerKind :=
  let name := Text.lower t
  if name = ("view" : Text) || name = ("views" : Text) then some .view
  else if name = ("api" : Text) then some .api
  else none

/-- The message for a text that names no kind. -/
def unknownMessage (t : Text) : Text :=
  "unknown controller kind " ++ Text.quoted t ++ ", expected 'view' or 'api'"

end ControllerKind

/-! ### Files -/

namespace Draft

/-- The file of a model. -/
def ofModel (indent : Indent) (template : Template) (base : Path) (m : Model) : Draft :=
  ⟨base.join ⟨m.name ++ ".swift"⟩, template.render (m.fillings indent), .always⟩

/-- The file of a controller; one that is there is kept. -/
def ofController (template : Template) (base : Path) (name : Text) (kind : ControllerKind) :
    Draft :=
  ⟨(base.join ⟨kind.folderName⟩).join ⟨name ++ ".swift"⟩,
    template.render (Fillings.ofList [(.controllerName, Filling.ofText name)]), .ifMissing⟩

/-- The file of a view; one that is there is kept. -/
def ofView (template : Template) (base : Path) (name title : Text) : Draft :=
  ⟨base.join ⟨name ++ ".leaf"⟩,
    template.render (Fillings.ofList [(.title, Filling.ofText title)]), .ifMissing⟩

end Draft

/-! ### Requests and plans -/

/-- What the user asks for. -/
inductive Request where
  | model (model : Model) (force : Bool) (indent : Indent)
  | controller (name : Text) (kind : ControllerKind)
  | view (name title : Text)
  deriving DecidableEq, Repr

/-- What happens to the setup file. -/
inductive Registration.Change where
  | appended (path : Path)
  | alreadyPresent (path : Path)
  deriving DecidableEq, Repr

def Registration.Change.path : Registration.Change → Path
  | .appended p => p
  | .alreadyPresent p => p

/-- The files that a request would write, in order. -/
structure Plan where
  drafts : List Draft
  registration : Option Registration.Change := none
  deriving DecidableEq, Repr

/-- Why nothing can be planned or written. -/
inductive RequestError where
  | template (error : Template.LoadError)
  | registrationNotFound (path : Path)
  | registrationUnreadable (path : Path)
  | registrationMalformed (path : Path) (span : Span)
  | modelExists (path : Path)
  | writeFailed (error : CommitError)
  deriving DecidableEq, Repr

/-- What the user is told about a request that fails. -/
def RequestError.diagnostic : RequestError → Diagnostic
  | .template (.notFound path) =>
    { message := "template " ++ Text.quoted path.text ++ " not found"
      code := some "vaporize::template_not_found"
      help := some "remove the templates override to use the built-in templates" }
  | .template (.unreadable path) | .registrationUnreadable path =>
    { message := "failed to read " ++ Text.quoted path.text
      code := some "vaporize::io" }
  | .registrationNotFound path =>
    { message := "registration file " ++ Text.quoted path.text ++ " not found"
      code := some "vaporize::target_not_found"
      help := some
        "set [paths].registration in vaporize.toml to the file that appends preparations" }
  | .registrationMalformed path span =>
    { message := "registration file " ++ Text.quoted path.text ++
        " does not end with two closing braces"
      code := some "vaporize::malformed_target"
      help := some
        "the last two non-empty lines must close the setup method and its extension"
      labels := [⟨"expected '\x7d' here", span⟩] }
  | .modelExists path =>
    { message := "model file " ++ Text.quoted path.text ++ " already exists"
      code := some "vaporize::model_exists"
      help := some "pass --force to overwrite it" }
  | .writeFailed _ =>
    { message := "failed to write generated files"
      code := some "vaporize::write_failed" }

namespace Plan

variable {τ : Type}

/-- The change to the setup file for a model, and the new setup file if it changes. -/
def registration? (indent : Indent) (path : Path) (model : Text) :
    Script τ (Except RequestError (Registration.Change × Option Draft)) := do
  match ← Script.readText path with
  | .error .missing => return .error (.registrationNotFound path)
  | .error .unreadable => return .error (.registrationUnreadable path)
  | .ok content =>
    match Registration.splice indent (Registration.statement model) content with
    | .error span => return .error (.registrationMalformed path span)
    | .ok .present => return .ok (.alreadyPresent path, none)
    | .ok (.inserted content) => return .ok (.appended path, some ⟨path, content, .always⟩)

/-- Plan a model: its file, unless there is one that must not be replaced, and the setup
file. -/
def ofModel (p : Project) (m : Model) (force : Bool) (indent : Indent) :
    Script τ (Except RequestError Plan) := do
  match ← Template.resolve p.templatesFolder .model with
  | .error e => return .error (.template e)
  | .ok template => do
    let draft := Draft.ofModel indent template p.modelsFolder m
    if (← Script.exists? draft.path) && !force then return .error (.modelExists draft.path)
    else
      match ← registration? indent p.registrationFile m.name with
      | .error e => return .error e
      | .ok (change, setup) => return .ok ⟨draft :: setup.toList, some change⟩

/-- Plan a controller. -/
def ofController (p : Project) (name : Text) (kind : ControllerKind) :
    Script τ (Except RequestError Plan) := do
  match ← Template.resolve p.templatesFolder .controller with
  | .error e => return .error (.template e)
  | .ok template =>
    return .ok ⟨[Draft.ofController template p.controllersFolder name kind], none⟩

/-- Plan a view. -/
def ofView (p : Project) (name title : Text) : Script τ (Except RequestError Plan) := do
  match ← Template.resolve p.templatesFolder .view with
  | .error e => return .error (.template e)
  | .ok template => return .ok ⟨[Draft.ofView template p.viewsFolder name title], none⟩

end Plan

/-- A file as a preview shows it. -/
structure PreviewFile where
  path : Text
  content : Text
  deriving DecidableEq, Repr

/-- What was written for a request. -/
structure Generated where
  files : List (Path × Outcome)
  registration : Option Registration.Change
  deriving DecidableEq, Repr

namespace Plan

variable {τ : Type}

/-- The files of a plan as a preview shows them. -/
def preview (p : Project) (plan : Plan) : List PreviewFile :=
  plan.drafts.map fun d => ⟨p.shown d.path, d.content⟩

/-- Write the files of a plan, all or none. -/
def commit (plan : Plan) : Script τ (Except RequestError Generated) := do
  match ← Scaffold.commit plan.drafts with
  | .error e => return .error (.writeFailed e)
  | .ok files => return .ok ⟨files, plan.registration⟩

end Plan

namespace Request

variable {τ : Type}

/-- Plan a request. -/
def plan (p : Project) : Request → Script τ (Except RequestError Plan)
  | .model m force indent => Plan.ofModel p m force indent
  | .controller name kind => Plan.ofController p name kind
  | .view name title => Plan.ofView p name title

/-- Show what a request would write. -/
def preview (p : Project) (r : Request) : Script τ (Except RequestError (List PreviewFile)) := do
  match ← r.plan p with
  | .error e => return .error e
  | .ok plan => return .ok (plan.preview p)

/-- Carry out a request. -/
def generate (p : Project) (r : Request) : Script τ (Except RequestError Generated) := do
  match ← r.plan p with
  | .error e => return .error e
  | .ok plan => plan.commit

end Request
end Scaffold
