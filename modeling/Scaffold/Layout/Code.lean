import Scaffold.Layout.Indent

/-! Writing nested code line by line. A `Code.Step` adds a line, changes the level, or writes a
block whose body is one level deeper; a `Code` holds the text so far and the level. -/

namespace Scaffold

/-- A step of writing code. -/
inductive Code.Step where
  | line (text : Text)
  | deeper
  | shallower
  | block (header close : Text) (body : List Code.Step)
  | when (condition : Bool) (body : List Code.Step)

/-- Code being written. -/
structure Code where
  indent : Indent
  level : Nat := 0
  text : Text := []
  deriving DecidableEq, Repr

namespace Code

/-- Add one line at the current level. -/
def line (c : Code) (t : Text) : Code :=
  { c with text := c.text ++ (c.indent.ofLevel c.level ++ t ++ ['\n']) }

/-- Go one level deeper. -/
def deeper (c : Code) : Code :=
  { c with level := c.level + 1 }

/-- Go one level back; the outermost level stays. -/
def shallower (c : Code) : Code :=
  { c with level := c.level - 1 }

mutual

/-- Carry out one step. -/
def step (c : Code) : Step → Code
  | .line t => c.line t
  | .deeper => c.deeper
  | .shallower => c.shallower
  | .block header close body => (steps (c.line header).deeper body).shallower.line close
  | .when condition body => if condition then steps c body else c

/-- Carry out steps in order. -/
def steps (c : Code) : List Step → Code
  | [] => c
  | s :: ss => steps (step c s) ss

end

/-- The text that steps write from nothing. -/
def write (indent : Indent) (ss : List Step) : Text :=
  (steps { indent := indent } ss).text

end Code
end Scaffold
