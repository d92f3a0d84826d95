import Scaffold.Settings
import Scaffold.Template.Source

/-! A project on disk: a directory with a package file, and the settings for it. Paths of the
settings are relative to the project; behind `~/` they are relative to the home directory. -/

namespace Scaffold

/-- A project that has been opened. -/
structure Project where
  root : Path
  home : Option Path
  settings : Settings
  deriving DecidableEq, Repr

/-- Why a project cannot be opened. -/
inductive ProjectError where
  | notAProject (root : Path)
  | unreadable (path : Path)
  | settings (file : Path) (error : SettingsError)
  deriving DecidableEq, Repr

/-- What the user is told about settings that cannot be used. -/
def SettingsError.diagnostic (file : Path) (e : SettingsError) : Diagnostic :=
  { message := "failed to parse " ++ file.text
    code := some "vaporize::config_error"
    labels := match e with
      | .malformed => []
      | .unexpected _ span => [⟨"parse error here", span⟩] }

/-- What the user is told about a project that cannot be opened. -/
def ProjectError.diagnostic : ProjectError → Diagnostic
  | .notAProject root =>
    { message := Text.quoted root.text ++ " is not a Vapor project"
      code := some "vaporize::not_a_project"
      help := some "run vaporize from a directory containing Package.swift, or pass --project" }
  | .unreadable path => { message := "failed to read " ++ Text.quoted path.text }
  | .settings file e => e.diagnostic file

namespace Settings

/-- The name of the settings file of a project. -/
def fileName : Path := "vaporize.toml"

/-- Read the settings of a project. Without a settings file the defaults hold. -/
def load {τ : Type} (root : Path) : Script τ (Except ProjectError Settings) := do
  let path := root.join fileName
  if ← Script.exists? path then
    match ← Script.readText path with
    | .ok content =>
      match parse content with
      | .ok s => return .ok s
      | .error e => return .error (.settings path e)
    | .error _ => return .error (.unreadable path)
  else return .ok {}

end Settings

namespace Project

/-- The file that makes a directory a project. -/
def marker : Path := "Package.swift"

/-- Open the project in a directory. -/
def load {τ : Type} (home : Option Path) (root : Path) :
    Script τ (Except ProjectError Project) := do
  if ← Script.isFile? (root.join marker) then
    match ← Settings.load root with
    | .ok settings => return .ok ⟨root, home, settings⟩
    | .error e => return .error e
  else return .error (.notAProject root)

/-- Take templates from another directory. -/
def withTemplates (folder : Path) (p : Project) : Project :=
  { p with settings := { p.settings with templates := some folder } }

/-- Where a path of the settings leads. -/
def resolve (p : Project) (path : Path) : Path :=
  match Path.stripPrefix? "~" path, p.home with
  | some rest, some home => home.join rest
  | _, _ => p.root.join path

def modelsFolder (p : Project) : Path :=
  p.resolve p.settings.models

def registrationFile (p : Project) : Path :=
  p.resolve p.settings.registration

def controllersFolder (p : Project) : Path :=
  p.resolve p.settings.controllers

def viewsFolder (p : Project) : Path :=
  p.resolve p.settings.views

def templatesFolder (p : Project) : Option Path :=
  p.settings.templates.map p.resolve

/-- How a path is shown to the user: as seen from the project, if it lies in it. -/
def shown (p : Project) (path : Path) : Text :=
  (Path.relativeTo p.root path).text

end Project
end Scaffold
