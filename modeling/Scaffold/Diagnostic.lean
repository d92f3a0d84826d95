import Scaffold.Text.Basic

/-! Diagnostics for the user: a message, a code, a hint, and labelled stretches of a text. -/

namespace Scaffold

/-- A stretch of a text, in bytes. -/
structure Span where
  offset : Nat
  length : Nat
  deriving DecidableEq, Repr

/-- A remark on a stretch of the text at fault. -/
structure Label where
  text : Text
  span : Span
  deriving DecidableEq, Repr

/-- What the user is told about a failure. -/
structure Diagnostic where
  message : Text
  code : Option Text := none
  help : Option Text := none
  labels : List Label := []
  deriving DecidableEq, Repr

namespace Diagnostic

/-- The lines of a diagnostic: its code, the message, the labels and the hint. -/
def lines (d : Diagnostic) : List Text :=
  d.code.toList ++ [("error: " ++ d.message : Text)] ++
    d.labels.map (fun l => ("  " ++ l.text : Text)) ++
    d.help.toList.map (fun h => ("  help: " ++ h : Text))

/-- A diagnostic as it is shown. -/
def text (d : Diagnostic) : Text :=
  d.lines.flatMap (· ++ ['\n'])

end Diagnostic
end Scaffold
