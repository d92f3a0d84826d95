import Scaffold.Text.Upper

/-! Upper case once and for all: the first character of an upper-case form is its own upper case,
so a text whose first letter is made upper case twice is the text with one such change. The code
points that have another upper case are kept as the bits of one number, and each code point that
comes first in a form is looked for there. Main statement: `capitalize_capitalize`. -/

namespace Scaffold.Text

/-! ### Sets of code points -/

/-- Some numbers as the bits of one number. -/
def bitSet (ns : List Nat) : Nat :=
  ns.foldr (fun n s => 1 <<< n ||| s) 0

theorem testBit_bitSet (ns : List Nat) (k : Nat) : (bitSet ns).testBit k = decide (k ∈ ns) := by
  induction ns with
  | nil => exact Nat.zero_testBit k
  | cons n ns ih =>
    have hcons : bitSet (n :: ns) = 1 <<< n ||| bitSet ns := rfl
    rw [hcons, Nat.testBit_or, Nat.one_shiftLeft, Nat.testBit_two_pow, ih]
    simp only [List.mem_cons, Bool.decide_or, eq_comm]

/-- The code points of a run. -/
def CaseRun.members (r : CaseRun) : List Nat :=
  (List.range ((r.last - r.first) / r.step + 1)).map (r.first + r.step * ·)

theorem CaseRun.mem_members {r : CaseRun} {n : Nat} (h : r.covers n = true) : n ∈ r.members := by
  simp only [covers, Bool.and_eq_true, decide_eq_true_eq, beq_iff_eq] at h
  obtain ⟨⟨hfirst, hlast⟩, hstep⟩ := h
  have hdiv := Nat.div_add_mod (n - r.first) r.step
  refine List.mem_map.2 ⟨(n - r.first) / r.step, List.mem_range.2 (Nat.lt_succ_of_le ?_), by omega⟩
  exact Nat.div_le_div_right (Nat.sub_le_sub_right hlast r.first)

/-! ### First characters of upper-case forms -/

/-- The code points that have another upper case. -/
def raised : List Nat :=
  upperExpansions.map (·.1) ++ upperRuns.flatMap CaseRun.members

/-- The code points that come first in an upper-case form. -/
def raisedTo : List Nat :=
  upperExpansions.filterMap (·.2.head?) ++
    upperRuns.flatMap fun r => r.members.map fun n : Nat => (n + r.shift).toNat

theorem not_mem_raised : ∀ k ∈ raisedTo, k.isValidChar ∧ k ∉ raised := by
  have table : ∀ k ∈ raisedTo, k.isValidChar ∧ (bitSet raised).testBit k = false := by
    decide +kernel
  intro k hk
  obtain ⟨hvalid, hbit⟩ := table k hk
  rw [testBit_bitSet, decide_eq_false_iff_not] at hbit
  exact ⟨hvalid, hbit⟩

theorem upperChar_of_not_mem {c : Char} (h : c.toNat ∉ raised) : upperChar c = [c] := by
  obtain ⟨hkeys, hruns⟩ := not_or.1 fun hm => h (List.mem_append.2 hm)
  have hlookup : upperExpansions.lookup c.toNat = none :=
    List.lookup_eq_none_iff.2 fun e he => bne_iff_ne.2 fun heq =>
      hkeys (List.mem_map.2 ⟨e, he, heq.symm⟩)
  have hfind : upperRuns.find? (·.covers c.toNat) = none :=
    List.find?_eq_none.2 fun r hr hc => hruns (List.mem_flatMap.2 ⟨r, hr, CaseRun.mem_members hc⟩)
  rw [upperChar, hlookup, CaseRun.apply, hfind]
  exact congrArg (fun c => [c]) (Char.ofNat_toNat c)

/-- A character is its own upper case, or its upper case starts with a character of the table. -/
theorem upperChar_cases (c : Char) :
    upperChar c = [c] ∨ ∃ k ∈ raisedTo, ∃ t, upperChar c = Char.ofNat k :: t := by
  unfold upperChar
  split
  · next ns hns =>
    have hne : ∀ e ∈ upperExpansions, e.2 ≠ [] := by decide +kernel
    obtain ⟨before, after, heq, -⟩ := List.lookup_eq_some_iff.1 hns
    have he : (c.toNat, ns) ∈ upperExpansions := heq ▸ by simp
    obtain ⟨k, ks, rfl⟩ := List.exists_cons_of_ne_nil (hne _ he)
    exact .inr ⟨k, List.mem_append_left _ (List.mem_filterMap.2 ⟨_, he, rfl⟩), _, rfl⟩
  · rw [CaseRun.apply]
    split
    · next r hr =>
      have hcovers := List.find?_some hr
      have hmem := CaseRun.mem_members hcovers
      exact .inr ⟨_, List.mem_append_right _ (List.mem_flatMap.2
        ⟨r, List.mem_of_find?_eq_some hr, List.mem_map_of_mem hmem⟩), [], rfl⟩
    · exact .inl (congrArg (fun c => [c]) (Char.ofNat_toNat c))

theorem exists_upperChar_eq_cons (c : Char) : ∃ d t, upperChar c = d :: t ∧ upperChar d = [d] := by
  rcases upperChar_cases c with h | ⟨k, hk, t, h⟩
  · exact ⟨c, [], h, h⟩
  · obtain ⟨hvalid, hnot⟩ := not_mem_raised k hk
    have htoNat : (Char.ofNat k).toNat = k := congrArg Char.toNat (dif_pos hvalid)
    exact ⟨Char.ofNat k, t, h, upperChar_of_not_mem (by rwa [htoNat])⟩

theorem capitalize_capitalize (t : Text) : capitalize (capitalize t) = capitalize t := by
  cases t with
  | nil => rfl
  | cons c t =>
    obtain ⟨d, u, hc, hd⟩ := exists_upperChar_eq_cons c
    rw [capitalize, hc, List.cons_append, capitalize, hd]
    rfl

end Scaffold.Text
