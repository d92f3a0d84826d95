import Scaffold.Text.Basic

/-! Lines of a text. A line is ended by a line feed, alone or after a carriage return; which of
the two a text uses is its `ending`. -/

namespace Scaffold

/-- The two line endings. -/
inductive Ending where
  | lf | crlf
  deriving DecidableEq, Repr

/-- The characters of an ending. -/
def Ending.text : Ending → Text
  | .lf => ['\n']
  | .crlf => ['\r', '\n']

namespace Text

/-- Whether a carriage return stands directly before a line feed. -/
def hasCrlf : Text → Bool
  | [] => false
  | c :: t => (c == '\r' && t.head? == some '\n') || hasCrlf t

/-- A text with one carriage return and line feed uses that ending throughout. -/
def ending (t : Text) : Ending :=
  if hasCrlf t then .crlf else .lf

/-- Write every line feed as the given ending. -/
def withEnding (e : Ending) (t : Text) : Text :=
  t.flatMap fun c => if c = '\n' then e.text else [c]

/-- The text cut behind every line feed; the last piece may lack one. -/
def pieces : Text → List Text
  | [] => []
  | c :: t =>
    if c = '\n' then [c] :: pieces t
    else match pieces t with
      | [] => [[c]]
      | p :: ps => (c :: p) :: ps

@[simp] theorem flatten_pieces (t : Text) : (pieces t).flatten = t := by
  induction t with
  | nil => rfl
  | cons c t ih =>
    unfold pieces
    split
    · simp [ih]
    · split
      · next h => simp [h] at ih; simp [← ih]
      · next p ps h => simp [h] at ih; simp [← ih]

/-- Take the line feed off a piece, and the carriage return before it. -/
def chomp (p : Text) : Text :=
  match p.reverse with
  | '\n' :: '\r' :: r => r.reverse
  | '\n' :: r => r.reverse
  | _ => p

/-- The lines of a text without their endings; a last line without a line feed keeps its
carriage return. -/
def lines (t : Text) : List Text :=
  (pieces t).map chomp

/-- Whether the last character is a line feed. -/
def endsWithNewline (t : Text) : Bool :=
  t.getLast? == some '\n'

/-- Lines written with one ending between them, and one more at the end if asked for. -/
def ofLines (e : Ending) (closed : Bool) (ls : List Text) : Text :=
  join e.text ls ++ if closed then e.text else []

end Text
end Scaffold
