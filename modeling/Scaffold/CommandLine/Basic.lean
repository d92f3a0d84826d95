import Scaffold.CommandLine.Option
import Scaffold.Model.Parse
import Scaffold.Report

/-! The command line of the program: its grammar, and what each command does. Main definitions:
`Invocation.parse?` and `Invocation.run`. -/

namespace Scaffold.CommandLine

/-! ### Options among the tokens of a model -/

/-- Options that stand among the tokens of a model. -/
structure Trailing where
  dryRun : Bool := false
  force : Bool := false
  verbose : Bool := false
  project : Option Path := none
  templates : Option Path := none
  deriving DecidableEq, Repr

namespace Trailing

/-- The option that a token of its own gives. -/
def flag? (s : Trailing) (t : Text) : Option Trailing :=
  if t = ("--dry-run" : Text) then some { s with dryRun := true }
  else if t = ("--force" : Text) then some { s with force := true }
  else if t = ("-v" : Text) || t = ("--verbose" : Text) then some { s with verbose := true }
  else none

/-- The option whose value is the token behind this one. -/
def withNext? (s : Trailing) (t value : Text) : Option Trailing :=
  if t = ("-p" : Text) || t = ("--project" : Text) then some { s with project := some ⟨value⟩ }
  else if t = ("--templates" : Text) then some { s with templates := some ⟨value⟩ }
  else none

/-- The option with a value in the same token. -/
def withValue? (s : Trailing) (t : Text) : Option Trailing :=
  match Text.stripPrefix? "--project=" t with
  | some value => some { s with project := some ⟨value⟩ }
  | none =>
    (Text.stripPrefix? "--templates=" t).map fun value => { s with templates := some ⟨value⟩ }

/-- Separate the options from the other tokens; `s` are the options so far. Of values given
twice the later one counts, and an option at the end without its value is a token. -/
def split (s : Trailing) : List Text → List Text × Trailing
  | [] => ([], s)
  | t :: ts =>
    match s.flag? t with
    | some s => split s ts
    | none =>
      match ts with
      | [] =>
        match s.withValue? t with
        | some s => ([], s)
        | none => ([t], s)
      | value :: rest =>
        match s.withNext? t value with
        | some s => split s rest
        | none =>
          match s.withValue? t with
          | some s => split s (value :: rest)
          | none =>
            let (others, s) := split s (value :: rest)
            (t :: others, s)

end Trailing

/-! ### Grammar -/

/-- A command with its arguments. -/
inductive Command where
  | model (tokens : List Text) (dryRun force : Bool)
  | controller (name : Text) (kind : Option ControllerKind) (dryRun : Bool)
  | view (name title : Text) (dryRun : Bool)
  deriving DecidableEq, Repr

/-- A command line that has been understood. -/
structure Invocation where
  project : Path
  templates : Option Path
  command : Command
  deriving DecidableEq, Repr

namespace Command

/-- The name of a controller, and its kind. -/
def controller? (given : Given) : List Text → Option Command
  | [name] =>
    match given.value? .kind with
    | none => some (.controller name none (given.has .dryRun))
    | some k => (ControllerKind.ofText? k).map fun k => .controller name (some k) (given.has .dryRun)
  | _ => none

/-- The name of a view, and its title. -/
def view? (given : Given) : List Text → Option Command
  | [name, title] => some (.view name title (given.has .dryRun))
  | _ => none

/-- Read the words behind the name of a command. -/
def parse? (name : Text) (words : List Text) : Option (Given × Command) := do
  if name = ("model" : Text) then
    let (given, tokens) ←
      readUntilArgument true ([.dryRun, .force] ++ Switch.global) [] words
    return (given, .model tokens (given.has .dryRun) (given.has .force))
  else if name = ("controller" : Text) then
    let (given, arguments) ← readAll ([.kind, .dryRun] ++ Switch.global) [] [] words
    return (given, ← controller? given arguments)
  else if name = ("view" : Text) then
    let (given, arguments) ← readAll ([.dryRun] ++ Switch.global) [] [] words
    return (given, ← view? given arguments)
  else none

end Command

namespace Invocation

/-- Understand a command line. An option behind the command wins over one before it. -/
def parse? (words : List Text) : Option Invocation := do
  let (outer, rest) ← readUntilArgument false Switch.global [] words
  match rest with
  | [] => none
  | name :: words =>
    let (inner, command) ← Command.parse? name words
    if outer.isValid && inner.isValid then
      let value (s : Switch) : Option Path :=
        ((inner.value? s).or (outer.value? s)).map Path.mk
      return ⟨(value .project).getD ".", value .templates, command⟩
    else none

end Invocation

/-! ### Running -/

/-- What a command line leads to. -/
inductive Result where
  | report (report : Report)
  | failure (diagnostic : Diagnostic)
  | usage
  deriving DecidableEq, Repr

namespace Result

/-- The exit status. -/
def status : Result → Nat
  | .report _ => 0
  | .failure _ => 1
  | .usage => 2

/-- What is written to the terminal. -/
def output : Result → Text
  | .report r => r.output
  | _ => []

/-- The code of the diagnostic that is shown, if it has one. -/
def code : Result → Option Text
  | .failure d => d.code
  | _ => none

end Result

/-- What a run depends on besides the files: the working directory and the home directory. -/
structure Surroundings where
  here : Path
  home : Option Path
  deriving DecidableEq, Repr

variable {τ : Type}

/-- Open the project of a command line. Templates named there are relative to the working
directory. -/
def openProject (e : Surroundings) (root : Path) (templates : Option Path) :
    Script τ (Except ProjectError Project) := do
  match ← Project.load e.home root with
  | .error err => return .error err
  | .ok p =>
    match templates with
    | some folder => return .ok (p.withTemplates (Path.absolute e.here folder))
    | none => return .ok p

/-- Carry out a request and say how it went. -/
def answer (p : Project) (dryRun : Bool) (r : Request) : Script τ Result := do
  match ← r.report p dryRun with
  | .ok report => return .report report
  | .error err => return .failure err.diagnostic

/-- Carry out a request of a project that is still to be opened. -/
def withProject (e : Surroundings) (root : Path) (templates : Option Path)
    (go : Project → Script τ Result) : Script τ Result := do
  match ← openProject e root templates with
  | .ok p => go p
  | .error err => return .failure err.diagnostic

namespace Invocation

/-- Run a command line that has been understood. The tokens of a model are read before the
project is opened; its naming rules are applied afterwards. -/
def run (e : Surroundings) (i : Invocation) : Script τ Result :=
  match i.command with
  | .model tokens dryRun force =>
    let (tokens, trailing) := Trailing.split {} tokens
    match Model.parse {} tokens with
    | .error err => return .failure (err.diagnostic tokens)
    | .ok m =>
      withProject e (trailing.project.getD i.project) (trailing.templates.or i.templates)
        fun p => answer p (dryRun || trailing.dryRun)
          (.model (m.rename p.settings.naming) (force || trailing.force) .standard)
  | .controller name kind dryRun =>
    withProject e i.project i.templates fun p =>
      match kind with
      | some kind => answer p dryRun (.controller name kind)
      | none => return .failure { message := "Failed to get controller folder selection" }
  | .view name title dryRun =>
    withProject e i.project i.templates fun p => answer p dryRun (.view name title)

end Invocation

/-- Run a command line. -/
def run (e : Surroundings) (words : List Text) : Script τ Result :=
  match Invocation.parse? words with
  | some i => i.run e
  | none => return .usage

end Scaffold.CommandLine
