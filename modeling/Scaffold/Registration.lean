import Scaffold.Diagnostic
import Scaffold.Layout.Indent
import Scaffold.Text.Lines

/-! Registering a model in the setup file of a project. The file ends with two closing braces,
that of the method which lists the models and that of the extension around it. The statement
goes on a line of its own above the inner brace, one level deeper than it. -/

namespace Scaffold.Registration

/-- The statement that registers a model. -/
def statement (model : Text) : Text :=
  "preparations.append(" ++ model ++ ".self)"

/-- What splicing a statement into a file does. -/
inductive Splice where
  /-- The statement was added; this is the file with it. -/
  | inserted (content : Text)
  /-- The file has the statement already. -/
  | present
  deriving DecidableEq, Repr

/-- The brace that closes a block. -/
def brace : Text := ['\x7d']

/-- A line without line feeds and carriage returns at its end. -/
def lineText (piece : Text) : Text :=
  Text.dropEndWhile (fun c => c = '\n' || c = '\r') piece

/-- The lines of a file, without their ends. -/
def fileLines (content : Text) : List Text :=
  (Text.pieces content).map lineText

/-- Lines that are not blank, with their indices, last first. -/
def closingLines (ls : List Text) : List (Text × Nat) :=
  (ls.zipIdx.filter fun (line, _) => !Text.isBlank line).reverse

def isBrace (line : Text) : Bool :=
  Text.trim line == brace

/-- The stretch of the line with an index. -/
def lineSpan (content : Text) : Text × Nat → Span
  | (line, i) => ⟨Text.byteSize ((Text.pieces content).take i).flatten, line.byteSize⟩

/-- The empty stretch at the end of a file. -/
def endSpan (content : Text) : Span :=
  ⟨content.byteSize, 0⟩

/-- The file with a line for the statement above the line with an index. -/
def insertAt (indent : Indent) (statement content : Text) (inner : Text) (i : Nat) : Text :=
  let ls := fileLines content
  let line := indent.ofLevel (indent.levelOf inner + 1) ++ statement
  Text.ofLines (Text.ending content) (Text.endsWithNewline content)
    (ls.take i ++ line :: ls.drop i)

/-- Add a statement to a file that does not have it. If the file does not end with two closing
braces, the error is the stretch where one is missing. -/
def splice (indent : Indent) (statement content : Text) : Except Span Splice :=
  let ls := fileLines content
  if ls.any fun line => Text.trim line == statement then .ok .present
  else match closingLines ls with
    | outer :: inner :: _ =>
      if !isBrace outer.1 then .error (lineSpan content outer)
      else if !isBrace inner.1 then .error (lineSpan content inner)
      else .ok (.inserted (insertAt indent statement content inner.1 inner.2))
    | [outer] => .error (if isBrace outer.1 then endSpan content else lineSpan content outer)
    | [] => .error (endSpan content)

end Scaffold.Registration
