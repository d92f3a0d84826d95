import Scaffold.Plan

/-! Reports on requests: what was written, or would be. A report is a list of lines with a role
each; how a role looks on a terminal is decided last. -/

namespace Scaffold

/-- What a report says about a file. -/
inductive FileNote where
  | created (path : Text)
  | updated (path : Text)
  | kept (path : Text)
  deriving DecidableEq, Repr

/-- The main part of a report. -/
inductive Report.Body where
  | written (files : List FileNote) (registered : Option (Text × Text))
      (alreadyRegistered : Option Text)
  | preview (files : List PreviewFile)
  deriving DecidableEq, Repr

/-- A report on a request. -/
structure Report where
  subject : Text
  warnings : List Text
  body : Report.Body
  deriving DecidableEq, Repr

/-- A line of a report. -/
inductive Report.Line where
  | heading (text : Text)
  | entry (key value : Text)
  | item (text : Text)
  | added (text : Text)
  | changed (text : Text)
  | warning (text : Text)
  | divider (text : Text)
  | verbatim (text : Text)
  | blank
  deriving DecidableEq, Repr

/-! ### Making reports -/

namespace Request

variable {τ : Type}

/-- What a request is about. -/
def subject : Request → Text
  | .model m _ _ => "model " ++ m.name
  | .controller name kind => kind.name ++ " controller " ++ name
  | .view name _ => "view " ++ name

/-- What is odd about a request but does not stop it. -/
def warnings : Request → List Text
  | .model m _ _ =>
    m.duplicateNames.map fun n => "field " ++ Text.quoted n ++ " is declared more than once"
  | _ => []

/-- What a report says about a file that was dealt with, when those of `existing` were there. -/
def note (p : Project) (existing : List Path) : Path × Outcome → FileNote
  | (path, .skipped) => .kept (p.shown path)
  | (path, .written) =>
    if path ∈ existing then .updated (p.shown path) else .created (p.shown path)

/-- The paths where something exists. -/
def existing : List Path → Script τ (List Path)
  | [] => return []
  | path :: paths => do
    let found ← Script.exists? path
    let rest ← existing paths
    return if found then path :: rest else rest

/-- The paths that are looked at before a plan is committed. The files of controllers and views
are never replaced, so nobody looks whether they are there. -/
def watched : Request → Plan → List Path
  | .model _ _ _, plan => plan.drafts.map (·.path)
  | .controller _ _, _ | .view _ _, _ => []

/-- What a report says about what was written. -/
def body (p : Project) (existing : List Path) (r : Request) (g : Generated) : Report.Body :=
  let files := g.files.map (note p existing)
  match r, g.registration with
  | .model m _ _, some (.appended path) =>
    .written files (some (Registration.statement m.name, p.shown path)) none
  | .model _ _ _, some (.alreadyPresent path) => .written files none (some (p.shown path))
  | _, _ => .written files none none

/-- Carry out a request, or only show what it would write, and report on it. -/
def report (p : Project) (dryRun : Bool) (r : Request) :
    Script τ (Except RequestError Report) := do
  match ← r.plan p with
  | .error e => return .error e
  | .ok plan =>
    if dryRun then return .ok ⟨r.subject, r.warnings, .preview (plan.preview p)⟩
    else
      let existing ← existing (r.watched plan)
      match ← plan.commit with
      | .error e => return .error e
      | .ok g => return .ok ⟨r.subject, r.warnings, r.body p existing g⟩

end Request

/-! ### Showing reports -/

namespace Report

def FileNote.line : FileNote → Line
  | .created path => .added path
  | .updated path => .changed path
  | .kept path => .item (path ++ " (exists, kept)")

/-- The lines of the main part. -/
def bodyLines (subject : Text) : Body → List Line
  | .written files registered alreadyRegistered =>
    .heading ("Generated " ++ subject) :: files.map FileNote.line ++
      (match registered with
        | some (statement, path) => [.blank, .entry "Registered" (statement ++ " in " ++ path)]
        | none => []) ++
      match alreadyRegistered with
        | some path => [.blank, .entry "Already registered" path]
        | none => []
  | .preview files =>
    files.flatMap (fun f => [.divider f.path, .verbatim f.content]) ++
      [.divider "Summary",
        .verbatim (Text.ofNat files.length ++ " file(s) would be written for " ++ subject)]

/-- The lines of a report, warnings first. -/
def lines (r : Report) : List Line :=
  r.warnings.map .warning ++ bodyLines r.subject r.body

/-- A line on a terminal; warnings go elsewhere. -/
def Line.onTerminal? : Line → Option Text
  | .heading t => some (t ++ [':'])
  | .entry key value => some (key ++ ": " ++ value)
  | .item t => some ("  - " ++ t)
  | .added t => some ("  + " ++ t)
  | .changed t => some ("  ~ " ++ t)
  | .warning _ => none
  | .divider t => some ("── " ++ t ++ " ──")
  | .verbatim t => some t
  | .blank => some []

/-- A warning as it is shown. -/
def Line.asWarning? : Line → Option Text
  | .warning t => some ("warning: " ++ t)
  | _ => none

/-- What a report writes to the terminal. -/
def output (r : Report) : Text :=
  (r.lines.filterMap Line.onTerminal?).flatMap (· ++ ['\n'])

/-- What a report writes to the error stream. -/
def errorOutput (r : Report) : Text :=
  (r.lines.filterMap Line.asWarning?).flatMap (· ++ ['\n'])

end Report
end Scaffold
