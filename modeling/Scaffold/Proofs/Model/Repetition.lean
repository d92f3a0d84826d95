import Mathlib.Data.List.Basic
import Mathlib.Data.List.Induction
import Scaffold.Model.Basic

/-! Names that a list repeats. A name counts as repeated at its second turn and never again, so the
repeated names come in the order of their second turns (`pairwise_secondOccurrences`). The same
names are found by a scan that keeps the names it has met and those it has met again
(`again_foldl_meet`). -/

namespace Scaffold.Model

variable {ns : List Text} {n : Text}

/-- A name at the end of a list is repeated for the first time if it stands in front of the end
exactly once. -/
theorem secondOccurrences_concat (seen ns : List Text) (n : Text) :
    secondOccurrences seen (ns ++ [n]) =
      secondOccurrences seen ns ++ if seen.count n + ns.count n = 1 then [n] else [] := by
  induction ns generalizing seen with
  | nil => rfl
  | cons a ns ih =>
    have hcount : (a :: seen).count n + ns.count n = seen.count n + (a :: ns).count n := by
      rw [List.count_cons, List.count_cons]
      omega
    rw [List.cons_append, secondOccurrences, secondOccurrences, ih, hcount]
    split <;> rfl

theorem repeated_concat (ns : List Text) (n : Text) :
    secondOccurrences [] (ns ++ [n]) =
      if ns.count n = 1 then secondOccurrences [] ns ++ [n] else secondOccurrences [] ns := by
  rw [secondOccurrences_concat, List.count_nil, Nat.zero_add]
  split
  · rfl
  · rw [List.append_nil]

theorem mem_secondOccurrences_iff : n ∈ secondOccurrences [] ns ↔ 2 ≤ ns.count n := by
  induction ns using List.reverseRecOn with
  | nil => simp [secondOccurrences]
  | append_singleton ns a ih =>
    rw [repeated_concat, List.count_append]
    by_cases ha : a = n
    · subst ha
      rw [List.count_singleton_self]
      split
      · next h => simp [h]
      · next h =>
        rw [ih]
        omega
    · have hcount : [a].count n = 0 := List.count_eq_zero.2 (by simpa using Ne.symm ha)
      rw [hcount, Nat.add_zero, ← ih]
      split
      · rw [List.mem_append, List.mem_singleton, or_iff_left (Ne.symm ha)]
      · rfl

/-- The turns of a name in the first of two lists come before those in the second. -/
theorem idxOfNth_append (ns ns' : List Text) (n : Text) (i : ℕ) :
    (ns ++ ns').idxOfNth n i =
      if i < ns.count n then ns.idxOfNth n i
      else ns.length + ns'.idxOfNth n (i - ns.count n) := by
  induction ns generalizing i with
  | nil => simp
  | cons a ns ih =>
    rw [List.cons_append, List.idxOfNth_cons, List.idxOfNth_cons, ih, ih, List.count_cons]
    grind

theorem pairwise_secondOccurrences (ns : List Text) :
    (secondOccurrences [] ns).Pairwise fun a b => ns.idxOfNth a 1 < ns.idxOfNth b 1 := by
  induction ns using List.reverseRecOn with
  | nil => exact .nil
  | append_singleton ns n ih =>
    have hkept : ∀ a ∈ secondOccurrences [] ns, (ns ++ [n]).idxOfNth a 1 = ns.idxOfNth a 1 := by
      intro a ha
      exact (idxOfNth_append ns [n] a 1).trans (if_pos (mem_secondOccurrences_iff.1 ha))
    have hold : (secondOccurrences [] ns).Pairwise fun a b =>
        (ns ++ [n]).idxOfNth a 1 < (ns ++ [n]).idxOfNth b 1 := by
      refine ih.imp_of_mem fun ha hb hlt => ?_
      rwa [hkept _ ha, hkept _ hb]
    rw [repeated_concat]
    split
    · next h =>
      refine List.pairwise_append.2 ⟨hold, List.pairwise_singleton _ n, fun a ha b hb => ?_⟩
      obtain rfl := List.mem_singleton.1 hb
      have hlast : (ns ++ [b]).idxOfNth b 1 = ns.length := by
        rw [idxOfNth_append, h]
        simp
      rw [hkept a ha, hlast, List.idxOfNth_lt_length_iff]
      exact mem_secondOccurrences_iff.1 ha
    · exact hold

/-! ### One scan with two collections -/

/-- The names a scan has met, and those it has met again. -/
structure Met where
  seen : List Text := []
  again : List Text := []

/-- Meet a name. Only a name that is met for the second time is put down as met again. -/
def Met.meet (s : Met) (n : Text) : Met :=
  if n ∈ s.seen then
    if n ∈ s.again then s else { s with again := s.again ++ [n] }
  else { s with seen := n :: s.seen }

theorem mem_seen_meet (s : Met) (a n : Text) : n ∈ (s.meet a).seen ↔ n ∈ s.seen ∨ n = a := by
  unfold Met.meet
  split
  · next ha =>
    have hn : n = a → n ∈ s.seen := fun h => h ▸ ha
    split <;> exact (or_iff_left_of_imp hn).symm
  · rw [List.mem_cons, or_comm]

theorem again_meet (s : Met) (n : Text) : (s.meet n).again =
    if n ∈ s.seen ∧ n ∉ s.again then s.again ++ [n] else s.again := by
  unfold Met.meet
  split_ifs <;> simp_all

theorem mem_seen_foldl_meet : n ∈ (ns.foldl Met.meet {}).seen ↔ n ∈ ns := by
  induction ns using List.reverseRecOn with
  | nil => rfl
  | append_singleton ns a ih =>
    rw [List.foldl_append, List.foldl_cons, List.foldl_nil, mem_seen_meet, ih, List.mem_append,
      List.mem_singleton]

/-- A scan finds the repeated names, in the same order. -/
theorem again_foldl_meet (ns : List Text) :
    (ns.foldl Met.meet {}).again = secondOccurrences [] ns := by
  induction ns using List.reverseRecOn with
  | nil => rfl
  | append_singleton ns a ih =>
    have hfirst : a ∈ (ns.foldl Met.meet {}).seen ↔ 1 ≤ ns.count a :=
      mem_seen_foldl_meet.trans List.one_le_count_iff.symm
    have hsecond : a ∈ (ns.foldl Met.meet {}).seen ∧ a ∉ secondOccurrences [] ns ↔
        ns.count a = 1 := by
      rw [hfirst, mem_secondOccurrences_iff]
      omega
    rw [List.foldl_append, List.foldl_cons, List.foldl_nil, again_meet, repeated_concat]
    simp only [ih, hsecond]

end Scaffold.Model
