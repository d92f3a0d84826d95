import Scaffold.Diagnostic
import Scaffold.Toml.Binary64

/-! Values of a settings file, each with the stretch of the file it was read from. -/

namespace Scaffold.Toml

/-- A number with a point or an exponent. -/
inductive Float where
  | finite (negative : Bool) (value : Binary64)
  | infinite (negative : Bool)
  | nan
  | tooLarge
  deriving DecidableEq, Repr

/-- A key and where it was written. -/
structure Key where
  text : Text
  span : Span
  deriving DecidableEq, Repr

/-- How a table came about. This decides what may be added to it later. -/
inductive TableKind where
  /-- By a header of its own. -/
  | header
  /-- By the header of a table below it. -/
  | implied
  /-- By a dotted key. -/
  | dotted
  /-- Between braces. -/
  | inline
  deriving DecidableEq, Repr

/-- A value. -/
inductive Value where
  | string (text : Text)
  | integer (value : Int)
  | float (value : Float)
  | boolean (value : Bool)
  | moment
  /-- The elements, and whether they come from headers. -/
  | array (byHeader : Bool) (items : List (Span × Value))
  | table (kind : TableKind) (entries : List (Key × Span × Value))

/-- The keys of a table with their values, in the order of the file. -/
abbrev Entries := List (Key × Span × Value)

end Scaffold.Toml
