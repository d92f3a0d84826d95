import Scaffold.Text.Basic

/-! The text for one place of a template. The contributions are kept apart until the text is
asked for, so that what stands between two of them is decided in one place. -/

namespace Scaffold

/-- What stands between the contributions to a place. -/
inductive Filling.Layout where
  /-- One line each; the first line is indented by the template, the others by `continuation`. -/
  | lines (continuation : Text)
  /-- All on one line. -/
  | inline (separator : Text)
  /-- Blocks of lines, with one empty line between two of them. -/
  | blocks
  deriving DecidableEq, Repr

/-- The text between two contributions. -/
def Filling.Layout.separator : Filling.Layout → Text
  | .lines continuation => '\n' :: continuation
  | .inline separator => separator
  | .blocks => ['\n', '\n']

/-- The contributions to one place of a template. -/
structure Filling where
  layout : Filling.Layout
  contributions : List Text := []
  leadingBlank : Bool := false
  deriving DecidableEq, Repr

namespace Filling

/-- Drop the line feeds at the end: the layout alone separates contributions. -/
def contribution (t : Text) : Text :=
  Text.dropEndWhile (· = '\n') t

/-- Add a contribution. -/
def push (f : Filling) (t : Text) : Filling :=
  { f with contributions := f.contributions ++ [contribution t] }

/-- Contributions in a layout. -/
def ofList (layout : Layout) (ts : List Text) : Filling :=
  { layout := layout, contributions := ts.map contribution }

/-- A single text. -/
def ofText (t : Text) : Filling :=
  ofList (.inline []) [t]

def isEmpty (f : Filling) : Bool :=
  f.contributions.isEmpty

/-- The text of a filling: nothing without contributions, however it is laid out. -/
def text (f : Filling) : Text :=
  if f.contributions.isEmpty then []
  else (if f.leadingBlank then ['\n'] else []) ++ Text.join f.layout.separator f.contributions

end Filling
end Scaffold
