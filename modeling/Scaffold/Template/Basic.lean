import Scaffold.Layout.Filling
import Scaffold.Path
import Scaffold.Template.Placeholder
import Scaffold.Text.Lines

/-! Templates: a text with marked places, and its rendering. Rendering replaces every mark by
the text for its place, in one pass over the source; inserted text is not looked at again. A
line that holds one mark only, with nothing to insert, is left out. -/

namespace Scaffold

/-- The texts for the places of a template. -/
structure Fillings where
  get? : Placeholder → Option Filling

namespace Fillings

def empty : Fillings :=
  ⟨fun _ => none⟩

/-- Put a filling in a place, instead of one that was there. -/
def set (fs : Fillings) (p : Placeholder) (f : Filling) : Fillings :=
  ⟨fun q => if q = p then some f else fs.get? q⟩

/-- Fill places in order. -/
def ofList (pairs : List (Placeholder × Filling)) : Fillings :=
  pairs.foldl (fun fs (p, f) => fs.set p f) empty

/-- The text for a place; empty without a filling. -/
def text (fs : Fillings) (p : Placeholder) : Text :=
  match fs.get? p with
  | some f => f.text
  | none => []

end Fillings

/-- Where the source of a template comes from. -/
inductive Template.Origin where
  | builtin
  | file (path : Path)
  | inline
  deriving DecidableEq, Repr

/-- A text with marked places. -/
structure Template where
  source : Text
  origin : Template.Origin := .inline
  deriving DecidableEq, Repr

/-- A part of a template source: a mark, or a character on its own. -/
inductive Template.Part where
  | slot (place : Placeholder)
  | char (c : Char)
  deriving DecidableEq, Repr

namespace Template

/-- The parts of a source whose first `skip` characters belong to a mark already seen. -/
def partsAfter : Nat → Text → List Part
  | _, [] => []
  | skip + 1, _ :: t => partsAfter skip t
  | 0, c :: t =>
    match Placeholder.atStart? (c :: t) with
    | some p => .slot p :: partsAfter (p.token.length - 1) t
    | none => .char c :: partsAfter 0 t

/-- The marks of a source and the characters between them. -/
def parts (source : Text) : List Part :=
  partsAfter 0 source

/-- The place a part marks. -/
def Part.place? : Part → Option Placeholder
  | .slot p => some p
  | .char _ => none

/-- Keep the first occurrence of each place. -/
def firstOccurrences (ps : List Placeholder) : List Placeholder :=
  ps.foldl (fun seen p => if p ∈ seen then seen else seen ++ [p]) []

/-- The places of a template, in the order of their first marks. -/
def placeholders (t : Template) : List Placeholder :=
  firstOccurrences ((parts t.source).filterMap Part.place?)

/-- The text a part stands for. -/
def Part.text (fs : Fillings) (e : Ending) : Part → Text
  | .slot p => Text.withEnding e (fs.text p)
  | .char c => [c]

/-- Replace the marks of a text. -/
def substitute (fs : Fillings) (e : Ending) (t : Text) : Text :=
  (parts t).flatMap (Part.text fs e)

/-- A line with one mark, blanks around it, and nothing to insert. -/
def isEmptySlot (fs : Fillings) (line : Text) : Bool :=
  match Placeholder.ofToken? (Text.trim line) with
  | some p => (fs.text p).isEmpty
  | none => false

/-- A missing line counts as blank below the text. -/
def blankOrEnd : Option Text → Bool
  | some line => Text.isBlank line
  | none => true

/-- A missing line does not count as blank above the text. -/
def blankAbove : Option Text → Bool
  | some line => Text.isBlank line
  | none => false

/-- Render lines below the finished lines `above`, nearest first. A line that is left out takes
the blank line above it along, if another blank line or the end follows. -/
def renderLines (fs : Fillings) (e : Ending) (above : List Text) : List Text → List Text
  | [] => above.reverse
  | line :: below =>
    if isEmptySlot fs line then
      renderLines fs e
        (if blankAbove above.head? && blankOrEnd below.head? then above.tail else above) below
    else renderLines fs e (substitute fs e line :: above) below

/-- Fill the places of a template. The source decides the line ending, and whether the result
ends with one. -/
def render (t : Template) (fs : Fillings) : Text :=
  let e := Text.ending t.source
  Text.ofLines e (Text.endsWithNewline t.source) (renderLines fs e [] (Text.lines t.source))

end Template
end Scaffold
