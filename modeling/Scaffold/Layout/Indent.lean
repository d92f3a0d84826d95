import Scaffold.Text.Basic

/-! Indentation: its unit, the white space of a level, and the level of a line. -/

namespace Scaffold

/-- The unit of indentation: some blanks, or a tab. -/
inductive Indent where
  | spaces (width : Nat)
  | tab
  deriving DecidableEq, Repr

namespace Indent

/-- Four blanks. -/
def standard : Indent := .spaces 4

/-- The character that the unit repeats. -/
def char : Indent → Char
  | .spaces _ => ' '
  | .tab => '\t'

/-- The characters that make up one level. -/
def width : Indent → Nat
  | .spaces n => n
  | .tab => 1

/-- White space for a level. -/
def ofLevel (i : Indent) (level : Nat) : Text :=
  List.replicate (i.width * level) i.char

/-- The leading run of the indent's character. -/
def leading (i : Indent) (line : Text) : Text :=
  line.takeWhile (· = i.char)

/-- The level of a line: how many whole units it starts with. An empty unit counts as one
character. -/
def levelOf (i : Indent) (line : Text) : Nat :=
  (i.leading line).length / max i.width 1

end Indent

/-- How deep a part of a file is nested. -/
inductive Depth where
  | file | type | method | closure
  deriving DecidableEq, Repr

/-- The level of indentation at a depth. -/
def Depth.level : Depth → Nat
  | .file => 0
  | .type => 1
  | .method => 2
  | .closure => 3

/-- White space for a depth. -/
def Indent.ofDepth (i : Indent) (d : Depth) : Text :=
  i.ofLevel d.level

end Scaffold
