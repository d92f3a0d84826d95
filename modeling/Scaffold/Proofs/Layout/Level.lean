import Mathlib.Data.Nat.Notation
import Scaffold.Layout.Indent

/-! Indentation and the level of a line. White space for a number of levels is that number of units,
and measuring a line undoes it (`levelOf_ofLevel_append`). A line that starts with part of a unit is
measured without that part, so the next level is always deeper than the line
(`length_leading_lt`). -/

namespace Scaffold.Indent

variable {indent : Indent}

/-- The white space of one level. -/
def unit (indent : Indent) : Text :=
  List.replicate indent.width indent.char

@[simp] theorem length_unit (indent : Indent) : indent.unit.length = indent.width :=
  List.length_replicate

@[simp] theorem length_ofLevel (indent : Indent) (n : ℕ) :
    (indent.ofLevel n).length = indent.width * n :=
  List.length_replicate

theorem ofLevel_eq_flatten (indent : Indent) (n : ℕ) :
    indent.ofLevel n = (List.replicate n indent.unit).flatten := by
  rw [unit, List.flatten_replicate_replicate, Nat.mul_comm, ofLevel]

theorem width_pos (h : indent ≠ .spaces 0) : 0 < indent.width := by
  cases indent with
  | spaces n =>
    apply Nat.pos_of_ne_zero
    rintro rfl
    exact h rfl
  | tab => exact Nat.one_pos

theorem levelOf_eq (h : indent ≠ .spaces 0) (line : Text) :
    indent.levelOf line = (indent.leading line).length / indent.width := by
  rw [levelOf, Nat.max_eq_left (width_pos h)]

theorem leading_ofLevel_append (indent : Indent) (n : ℕ) (s : Text) :
    indent.leading (indent.ofLevel n ++ s) = indent.ofLevel n ++ indent.leading s := by
  refine List.takeWhile_append_of_pos fun c hc => ?_
  rw [List.eq_of_mem_replicate hc, decide_eq_true rfl]

/-- Measuring undoes indenting. -/
theorem levelOf_ofLevel_append (h : indent ≠ .spaces 0) (n : ℕ) (s : Text) :
    indent.levelOf (indent.ofLevel n ++ s) = n + indent.levelOf s := by
  rw [levelOf_eq h, levelOf_eq h, leading_ofLevel_append, List.length_append, length_ofLevel,
    Nat.mul_add_div (width_pos h)]

/-- The level behind that of a line is deeper than the line starts. -/
theorem length_leading_lt (h : indent ≠ .spaces 0) (line : Text) :
    (indent.leading line).length < (indent.ofLevel (indent.levelOf line + 1)).length := by
  rw [length_ofLevel, levelOf_eq h]
  exact Nat.lt_mul_div_succ _ (width_pos h)

theorem length_ofLevel_le (h : indent ≠ .spaces 0) (line : Text) :
    (indent.ofLevel (indent.levelOf line + 1)).length ≤
      (indent.leading line).length + indent.unit.length := by
  rw [length_ofLevel, length_unit, levelOf_eq h, Nat.mul_succ]
  exact Nat.add_le_add_right (Nat.mul_div_le _ _) _

end Scaffold.Indent
