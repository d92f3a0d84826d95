import Scaffold.Naming
import Scaffold.Path
import Scaffold.Text.Escaped
import Scaffold.Toml.Parse
import Scaffold.Toml.Usable

/-! The settings of a project: where files go, and how models are named. They are read from a
table whose keys must all be known; the keys are looked at in alphabetical order, and the first
fault is reported. -/

namespace Scaffold

/-- Settings of a project, with the values that hold without a settings file. -/
structure Settings where
  models : Path := "Sources/App/Models"
  registration : Path := "Sources/App/Config+Setup.swift"
  controllers : Path := "Sources/App/Controllers"
  views : Path := "Resources/Views"
  templates : Option Path := none
  naming : Naming := {}
  deriving DecidableEq, Repr

/-- Why a text holds no settings. -/
inductive SettingsError where
  /-- The text is not well formed. -/
  | malformed
  /-- Something that is well formed is not expected at this place. -/
  | unexpected (detail : Text) (span : Span)
  deriving DecidableEq, Repr

namespace Settings

open Toml

/-- A reader of a value that stands at a place of the file. -/
abbrev Reader (α : Type) := Span → Value → Except SettingsError α

/-! ### Wording -/

/-- The alternatives of a message. -/
def alternatives : List Text → Text
  | [a, b] => Text.marked a ++ " or " ++ Text.marked b
  | names => "one of " ++ Text.join ", " (names.map Text.marked)

/-- An integer in digits. -/
def integerText (n : Int) : Text :=
  if n < 0 then '-' :: Text.ofNat n.natAbs else Text.ofNat n.natAbs

/-- A number with a point in digits. -/
def floatText : Toml.Float → Text
  | .finite negative b =>
    (if negative then ['-'] else []) ++ Binary64.positional b.shortest
  | .infinite negative => if negative then "-inf" else "inf"
  | .nan => "NaN"
  | .tooLarge => []

/-- What a value is, for a message that it is of the wrong type. -/
def describe : Value → Text
  | .string s => "string " ++ Text.escaped s
  | .integer n => "integer " ++ Text.marked (integerText n)
  | .float x => "floating point " ++ Text.marked (floatText x)
  | .boolean b => "boolean " ++ Text.marked (if b then "true" else "false")
  | .array _ _ => "sequence"
  | .moment | .table _ _ => "map"

/-- The error for a value of the wrong type. -/
def wrongType (span : Span) (v : Value) (expected : Text) : SettingsError :=
  .unexpected ("invalid type: " ++ describe v ++ ", expected " ++ expected) span

/-- The error for a key that is not known. -/
def unknownField (span : Span) (key : Text) (known : List Text) : SettingsError :=
  .unexpected ("unknown field " ++ Text.marked key ++ ", expected " ++ alternatives known) span

/-! ### Readers -/

/-- A path is written as a string. -/
def path : Reader Path
  | _, .string s => .ok ⟨s⟩
  | span, v => .error (wrongType span v "path string")

/-- One of some words, given as a string; or as the only key of a table, with nothing in it. -/
def choice {α : Type} (words : List (Text × α)) : Reader α
  | span, .string s => pick span s
  | _, .table _ [(key, span, v)] => do
    let a ← pick key.span key.text
    match v with
    | .table _ [] | .array _ [] => return a
    | .table _ _ => .error (.unexpected "expected empty table" span)
    | .array _ _ => .error (.unexpected "expected empty array" span)
    | .string _ => .error (.unexpected "expected table, found string" span)
    | .integer _ => .error (.unexpected "expected table, found integer" span)
    | .float _ => .error (.unexpected "expected table, found float" span)
    | .boolean _ => .error (.unexpected "expected table, found boolean" span)
    | .moment => .error (.unexpected "expected table, found datetime" span)
  | span, .table _ [] =>
    .error (.unexpected "wanted exactly 1 element, found 0 elements" span)
  | span, .table _ _ =>
    .error (.unexpected "wanted exactly 1 element, more than 1 element" span)
  | span, _ => .error (.unexpected "wanted string or table" span)
where
  /-- The value of a word. -/
  pick (span : Span) (word : Text) : Except SettingsError α :=
    match words.find? (·.1 = word) with
    | some (_, a) => .ok a
    | none => .error (.unexpected
        ("unknown variant " ++ Text.marked word ++ ", expected " ++
          alternatives (words.map (·.1))) span)

/-- How the field of a key is read into a record. -/
structure FieldReader (α : Type) where
  key : Text
  read : Span → Value → α → Except SettingsError α
  /-- Whether a list may end before the field. -/
  hasDefault : Bool := true

/-- Entries in alphabetical order of their keys. -/
def sorted (entries : Entries) : Entries :=
  entries.mergeSort fun a b => !decide (b.1.text < a.1.text)

/-- Read the entries of a table into a record. -/
def readEntries {α : Type} (fields : List (FieldReader α)) (entries : Entries) (record : α) :
    Except SettingsError α :=
  (sorted entries).foldlM (fun record (key, span, v) =>
    match fields.find? (·.key = key.text) with
    | some f => f.read span v record
    | none => .error (unknownField key.span key.text (fields.map (·.key)))) record

/-- Read the fields of a record from a list, in their order. -/
def readItems {α : Type} (name : Text) (span : Span) (count : Nat) :
    List (FieldReader α) → List (Span × Value) → α → Except SettingsError α
  | f :: fields, (s, v) :: items, record => do
    readItems name span count fields items (← f.read s v record)
  | f :: fields, [], record =>
    if f.hasDefault then readItems name span count fields [] record
    else .error (.unexpected
      ("invalid length " ++ Text.ofNat (count - (fields.length + 1)) ++ ", expected " ++ name ++
        " with " ++ Text.ofNat count ++ " elements") span)
  | [], _, record => .ok record

/-- A record is written as a table of its fields, or as the list of their values. -/
def record {α : Type} (name : Text) (fields : List (FieldReader α)) (start : α) : Reader α
  | _, .table _ entries => readEntries fields entries start
  | span, .array _ items => readItems name span fields.length fields items start
  | span, .moment =>
    .error (unknownField span Value.momentKey (fields.map (·.key)))
  | span, v => .error (wrongType span v name)

/-! ### The record of all settings -/

def modelCase : Reader ModelCase :=
  choice [("verbatim", .verbatim), ("capitalize", .capitalize)]

def entityRule : Reader EntityRule :=
  choice [("omit", .omit), ("plural", .plural)]

def naming? : Reader Naming :=
  record "struct NamePolicy" [
    { key := "model", read := fun s v n => return { n with model := ← modelCase s v } },
    { key := "entity", read := fun s v n => return { n with entity := ← entityRule s v } }] {}

def pathFields : List (FieldReader Settings) := [
  { key := "models", read := fun s v p => return { p with models := ← path s v } },
  { key := "registration", read := fun s v p => return { p with registration := ← path s v } },
  { key := "controllers", read := fun s v p => return { p with controllers := ← path s v } },
  { key := "views", read := fun s v p => return { p with views := ← path s v } },
  { key := "templates", read := fun s v p => return { p with templates := some (← path s v) },
    hasDefault := false }]

def allFields : List (FieldReader Settings) := [
  { key := "paths", read := fun s v p => record "struct PathsConfig" pathFields p s v },
  { key := "naming", read := fun s v p => return { p with naming := ← naming? s v } }]

/-- Read settings from the text of a settings file. Settings that cannot be used are malformed if
they hold a value that nobody could use. -/
def parse (t : Text) : Except SettingsError Settings :=
  match Toml.parse? t with
  | none => .error .malformed
  | some table =>
    match readEntries allFields table.entries {} with
    | .ok s => .ok s
    | .error e => .error (if Value.entriesUsable table.entries then e else .malformed)

end Settings
end Scaffold
