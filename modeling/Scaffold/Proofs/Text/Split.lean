import Scaffold.Text.Basic

/-! Splitting a text at a character and joining it again. The parts do not have the character,
and joining them with it gives the text back; splitting undoes joining as well. -/

namespace Scaffold.Text

theorem splitOn_eq (c : Char) (t : Text) : splitOn c t = List.splitOn c t := by
  induction t with
  | nil => rfl
  | cons d t ih =>
    rw [splitOn, List.splitOn_cons_eq_if_modifyHead, ← ih]
    by_cases h : d = c
    · simp [h]
    · have hb : (d == c) = false := beq_eq_false_iff_ne.2 h
      rw [if_neg h, if_neg (by simp [hb])]
      cases hs : splitOn c t with
      | nil => exact absurd (ih.symm.trans hs) (List.splitOn_ne_nil c t)
      | cons w ws => rfl

theorem splitOn_ne_nil (c : Char) (t : Text) : splitOn c t ≠ [] := by
  rw [splitOn_eq]
  exact List.splitOn_ne_nil c t

@[simp] theorem splitOn_cons_self (c : Char) (t : Text) : splitOn c (c :: t) = [] :: splitOn c t :=
  if_pos rfl

theorem splitOn_append_cons (c : Char) (s t : Text) :
    splitOn c (s ++ c :: t) = splitOn c s ++ splitOn c t := by
  simp only [splitOn_eq, List.splitOn_append_cons_self]

theorem splitOn_of_not_mem {c : Char} {t : Text} (h : c ∉ t) : splitOn c t = [t] := by
  rw [splitOn_eq, List.splitOn_eq_singleton h]

theorem join_splitOn (c : Char) (t : Text) : join [c] (splitOn c t) = t := by
  rw [splitOn_eq]
  exact List.intercalate_splitOn c

theorem splitOn_join {c : Char} {ts : List Text} (h : ∀ t ∈ ts, c ∉ t) (hne : ts ≠ []) :
    splitOn c (join [c] ts) = ts := by
  rw [splitOn_eq]
  exact List.splitOn_intercalate c h hne

theorem not_mem_of_mem_splitOn {c : Char} {s t : Text} (h : s ∈ splitOn c t) : c ∉ s := by
  induction t generalizing s with
  | nil => simp_all [splitOn]
  | cons d t ih =>
    unfold splitOn at h
    split at h
    · rcases List.mem_cons.1 h with rfl | h
      · simp
      · exact ih h
    · next hd =>
      obtain ⟨w, ws, hw⟩ := List.exists_cons_of_ne_nil (splitOn_ne_nil c t)
      rw [hw] at h ih
      rcases List.mem_cons.1 h with rfl | h
      · have := ih List.mem_cons_self
        simp [Ne.symm hd, this]
      · exact ih (List.mem_cons_of_mem _ h)

/-- A text falls into two parts exactly if it has one mark. -/
theorem splitOn_eq_pair_iff {c : Char} {t a b : Text} :
    splitOn c t = [a, b] ↔ t = a ++ c :: b ∧ c ∉ a ∧ c ∉ b := by
  constructor
  · intro h
    have hmem : ∀ s ∈ [a, b], c ∉ s := fun s hs => not_mem_of_mem_splitOn (h ▸ hs)
    refine ⟨?_, hmem a (by simp), hmem b (by simp)⟩
    rw [← join_splitOn c t, h]
    simp [join]
  · rintro ⟨rfl, ha, hb⟩
    rw [splitOn_append_cons, splitOn_of_not_mem ha, splitOn_of_not_mem hb]
    rfl

/-- Two lists with a mark are the same up to their first marks and behind them. -/
theorem cons_inj_of_not_mem {α : Type} {c : α} {s t a b : List α} (hs : c ∉ s) (ht : c ∉ t)
    (h : s ++ c :: a = t ++ c :: b) : s = t ∧ a = b := by
  rcases List.append_eq_append_iff.1 h with ⟨d, rfl, hd⟩ | ⟨d, rfl, hd⟩
  · rcases d with _ | ⟨e, d⟩
    · exact ⟨(List.append_nil s).symm, (List.cons.inj hd).2⟩
    · obtain ⟨rfl, -⟩ := List.cons.inj hd
      exact absurd (by simp) ht
  · rcases d with _ | ⟨e, d⟩
    · exact ⟨List.append_nil t, (List.cons.inj hd).2.symm⟩
    · obtain ⟨rfl, -⟩ := List.cons.inj hd
      exact absurd (by simp) hs

theorem splitOnce?_eq_some_iff {c : Char} {t a b : Text} :
    splitOnce? c t = some (a, b) ↔ t = a ++ c :: b ∧ c ∉ a := by
  induction t generalizing a with
  | nil => simp [splitOnce?]
  | cons d t ih =>
    unfold splitOnce?
    split
    · next hd =>
      subst hd
      cases a <;> simp +contextual [eq_comm]
    · next hd =>
      cases a with
      | nil => simp [hd]
      | cons e a =>
        simp only [Option.map_eq_some_iff, Prod.mk.injEq, List.cons.injEq, List.cons_append,
          List.mem_cons, not_or]
        constructor
        · rintro ⟨⟨a', b'⟩, hs, ⟨rfl, rfl⟩, rfl⟩
          obtain ⟨ht, hc⟩ := ih.1 hs
          exact ⟨⟨rfl, ht⟩, Ne.symm hd, hc⟩
        · rintro ⟨⟨rfl, ht⟩, -, hc⟩
          exact ⟨(a, b), ih.2 ⟨ht, hc⟩, ⟨rfl, rfl⟩, rfl⟩

theorem join_cons_cons (sep s t : Text) (ts : List Text) :
    join sep (s :: t :: ts) = s ++ sep ++ join sep (t :: ts) := by
  simp [join, List.intercalate]

theorem join_prefix_join (sep : Text) {ss ts : List Text} (h : ss <+: ts) : join sep ss <+: join sep ts := by
  obtain ⟨rest, rfl⟩ := h
  induction ss with
  | nil => exact List.nil_prefix
  | cons s ss ih =>
    rcases ss with _ | ⟨s', ss⟩
    · rcases rest with _ | ⟨r, rest⟩
      · exact List.prefix_refl _
      · rw [List.cons_append, List.nil_append, join_cons_cons, List.append_assoc]
        simp [join]
    · simp only [List.cons_append, join_cons_cons] at ih ⊢
      exact (List.prefix_append_right_inj _).2 ih

end Scaffold.Text
