import Scaffold.Toml.Scalar

/-! Values that can be used. A number may be written that cannot be stored, and a table may claim
to be a moment and be none; a file can hold such a value, but nobody can ask for it. -/

namespace Scaffold.Toml.Value

/-- The key of the text of a moment, where moments are written as tables. -/
def momentKey : Text := "$__toml_private_datetime"

/-- The value that a table has for the key of moments, if no other key comes before that one. -/
def claimed? (entries : Entries) : Option Value :=
  if entries.all fun (key, _) => !decide (key.text < momentKey) then
    (entries.find? fun (key, _) => key.text = momentKey).map fun (_, _, v) => v
  else none

/-- Whether a value is the text of a moment. -/
def isMomentText : Value → Bool
  | .string t => Scalar.isMoment t
  | _ => false

mutual

/-- Whether a value can be used: integers have 64 bits, other numbers are finite or said not to
be, and a table that claims to be a moment is one. -/
def isUsable : Value → Bool
  | .integer n => -2 ^ 63 ≤ n && n < 2 ^ 63
  | .float .tooLarge => false
  | .array _ items => areUsable items
  | .table _ entries =>
    match claimed? entries with
    | some v => isMomentText v
    | none => entriesUsable entries
  | _ => true

/-- Whether all elements of an array can be used. -/
def areUsable : List (Span × Value) → Bool
  | [] => true
  | (_, v) :: items => isUsable v && areUsable items

/-- Whether all values of a table can be used. -/
def entriesUsable : Entries → Bool
  | [] => true
  | (_, _, v) :: entries => isUsable v && entriesUsable entries

end

end Scaffold.Toml.Value
