/-! Compact tables of characters: runs of code points that a case mapping shifts by one
amount, and ranges of code points that share a property. -/

namespace Scaffold.Text

/-- Every `step`-th code point from `first` to `last` is mapped by adding `shift`. -/
structure CaseRun where
  first : Nat
  last : Nat
  step : Nat
  shift : Int

namespace CaseRun

/-- Whether a code point belongs to the run. -/
def covers (r : CaseRun) (n : Nat) : Bool :=
  r.first ≤ n && n ≤ r.last && (n - r.first) % r.step == 0

/-- The image of a code point under a table of runs; outside all runs it is itself. -/
def apply (table : List CaseRun) (n : Nat) : Nat :=
  match table.find? (·.covers n) with
  | some r => (n + r.shift).toNat
  | none => n

end CaseRun

/-- Whether a code point lies in one of the closed ranges. -/
def inRanges (table : List (Nat × Nat)) (n : Nat) : Bool :=
  table.any fun (first, last) => first ≤ n && n ≤ last

end Scaffold.Text
