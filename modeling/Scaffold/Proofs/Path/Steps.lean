import Mathlib.Data.List.Basic
import Scaffold.Path
import Scaffold.Proofs.Text.Split

/-! The steps of a path: the texts between its slashes that are not idle. What is written at the
front of a path never is a step, and a path above another one has the steps of the other up to
some point, but not all of them. -/

namespace Scaffold

namespace Path

/-- The texts between the slashes of a path. -/
def segments (p : Path) : List Text :=
  Text.splitOn '/' p.text

/-- The segments that lead somewhere. -/
def steps (p : Path) : List Text :=
  p.segments.filter fun s => !isIdle s

/-- How the front of a path is found. -/
theorem front_cases (p : Path) :
    (p.front = ['/'] ∧ ∃ r, p.text = '/' :: r) ∨
    (p.front = ['.'] ∧ (p.text = ['.'] ∨ ∃ r, p.text = '.' :: '/' :: r)) ∨
    (p.front = [] ∧ p.isAbsolute = false) := by
  obtain ⟨t⟩ := p
  unfold front isAbsolute
  split <;> simp_all
  next h _ _ => cases t <;> simp_all

theorem text_eq (p : Path) : p.text = p.front ++ Text.join ['/'] p.parts := by
  rw [parts, Text.join_splitOn]
  rcases p.front_cases with ⟨hf, r, ht⟩ | ⟨hf, ht | ⟨r, ht⟩⟩ | ⟨hf, -⟩ <;> simp [*]

theorem steps_eq_parts (p : Path) : p.steps = p.parts.filter fun s => !isIdle s := by
  unfold steps segments parts
  rcases p.front_cases with ⟨hf, r, ht⟩ | ⟨hf, ht | ⟨r, ht⟩⟩ | ⟨hf, -⟩
  · simp [hf, ht, isIdle]
  · rw [hf, ht]; rfl
  · have hs : Text.splitOn '/' ('.' :: '/' :: r) = ['.'] :: Text.splitOn '/' r :=
      Text.splitOn_append_cons '/' ['.'] r
    simp [hf, ht, hs, isIdle]
  · simp [hf]

/-! ### Cut paths -/

/-- Parts without the idle ones at the end. -/
def trimmed (parts : List Text) : List Text :=
  (parts.reverse.dropWhile isIdle).reverse

theorem trimmed_prefix_self (parts : List Text) : trimmed parts <+: parts := by
  rw [trimmed, ← List.reverse_suffix, List.reverse_reverse]
  exact List.dropWhile_suffix _

theorem filter_trimmed (parts : List Text) :
    (trimmed parts).filter (fun s => !isIdle s) = parts.filter fun s => !isIdle s := by
  rw [← List.reverse_inj, ← List.filter_reverse, ← List.filter_reverse, trimmed, List.reverse_reverse]
  generalize parts.reverse = l
  induction l with
  | nil => rfl
  | cons a l ih => by_cases h : isIdle a <;> simp [h, ih]

theorem getLast_trimmed {parts : List Text} {s : Text} (h : (trimmed parts).getLast? = some s) :
    isIdle s = false := by
  rw [trimmed, List.getLast?_reverse] at h
  have := List.head?_dropWhile_not isIdle parts.reverse
  rw [h] at this
  simpa using this

theorem ofParts_text (front : Text) (parts : List Text) :
    (ofParts front parts).text = front ++ Text.join ['/'] (trimmed parts) := rfl

/-- A path that is cut at the end is a beginning of the path. -/
theorem ofParts_prefix_text {p : Path} {bs : List Text} (h : bs <+: p.parts) :
    (ofParts p.front bs).text <+: p.text := by
  rw [ofParts_text, text_eq p, List.prefix_append_right_inj]
  exact Text.join_prefix_join _ ((trimmed_prefix_self bs).trans h)

theorem steps_ofParts {p : Path} {bs : List Text} (h : bs <+: p.parts) :
    (ofParts p.front bs).steps = bs.filter fun s => !isIdle s := by
  have hb := (trimmed_prefix_self bs).trans h
  have hslash : ∀ s ∈ trimmed bs, '/' ∉ s := fun s hs =>
    Text.not_mem_of_mem_splitOn (hb.subset hs)
  rw [← filter_trimmed bs]
  unfold steps segments
  rw [ofParts_text]
  rcases ht : trimmed bs with _ | ⟨b, rest⟩
  · rcases p.front_cases with ⟨hf, -⟩ | ⟨hf, -⟩ | ⟨hf, -⟩ <;> rw [hf] <;> rfl
  · rw [ht] at hslash
    have hs := Text.splitOn_join hslash (by simp)
    rcases p.front_cases with ⟨hf, -⟩ | ⟨hf, hd⟩ | ⟨hf, -⟩
    · simp [hf, hs, isIdle]
    · -- behind a dot the first part is empty, so that the text goes on with a slash
      rw [ht, parts, hf] at hb
      obtain ⟨hbe, hrest⟩ : b = [] ∧ rest ≠ [] := by
        constructor
        · rcases hd with hd | ⟨r, hd⟩ <;> simp [hd, Text.splitOn] at hb <;> exact hb.1
        · rintro rfl
          have := @getLast_trimmed bs _ (by rw [ht]; rfl)
          rcases hd with hd | ⟨r, hd⟩ <;> simp [hd, Text.splitOn] at hb <;> simp [hb, isIdle] at this
      obtain ⟨c, rest, rfl⟩ := List.exists_cons_of_ne_nil hrest
      have hs' := Text.splitOn_join (fun s hm => hslash s (List.mem_cons_of_mem _ hm)) (by simp)
      have hj : ['.'] ++ Text.join ['/'] (b :: c :: rest) =
          ['.'] ++ '/' :: Text.join ['/'] (c :: rest) := by simp [hbe, Text.join_cons_cons]
      rw [hf, hj, Text.splitOn_append_cons, hs']
      simp [hbe, Text.splitOn, isIdle]
    · rw [hf, List.nil_append, hs]

theorem isAbsolute_of_prefix_text {p q : Path} (h : q.text <+: p.text) (hne : q.text ≠ []) :
    q.isAbsolute = p.isAbsolute := by
  obtain ⟨c, t, hq⟩ := List.exists_cons_of_ne_nil hne
  obtain ⟨r, hr⟩ := h
  simp [isAbsolute, ← hr, hq]

/-! ### Joined paths -/

theorem isAbsolute_join (p : Path) {q : Path} (h : q.isAbsolute = false) :
    (p.join q).isAbsolute = p.isAbsolute := by
  obtain ⟨t⟩ := p
  unfold join
  rw [if_neg (by simp [h])]
  rcases t with _ | ⟨c, t⟩
  · simpa [isAbsolute] using h
  · split <;> rfl

/-- The steps of a relative path come behind those of the path that it is joined to. -/
theorem steps_join (p : Path) {q : Path} (h : q.isAbsolute = false) :
    (p.join q).steps = p.steps ++ q.steps := by
  unfold join
  rw [if_neg (by simp [h])]
  split
  · next hp =>
    simp only [Bool.or_eq_true, List.isEmpty_iff, beq_iff_eq] at hp
    rcases hp with hp | hp
    · simp [steps, segments, hp, Text.splitOn, isIdle]
    · have hslash := List.dropLast_append_getLast? _ hp
      have hp' : p.text ++ q.text = p.text.dropLast ++ '/' :: q.text := by
        conv_lhs => rw [← hslash]
        simp
      have hself : Text.splitOn '/' p.text = Text.splitOn '/' p.text.dropLast ++ [[]] := by
        conv_lhs => rw [← hslash]
        rw [Text.splitOn_append_cons]
        rfl
      simp [steps, segments, hp', hself, Text.splitOn_append_cons, isIdle]
  · simp [steps, segments, Text.splitOn_append_cons]

/-! ### Ancestors -/

theorem mem_ancestorsOf {front : Text} {q : Path} {rev : List Text}
    (h : q ∈ ancestorsOf front rev) :
    q.text = [] ∨ ∃ after part before, rev = after ++ part :: before ∧ isIdle part = false ∧
      q = ofParts front before.reverse := by
  induction rev with
  | nil =>
    unfold ancestorsOf at h
    split at h <;> simp_all
  | cons part before ih =>
    unfold ancestorsOf at h
    split at h
    · rcases ih h with he | ⟨after, part', before', hr, hi, hq⟩
      · exact .inl he
      · exact .inr ⟨part :: after, part', before', by simp [hr], hi, hq⟩
    · next hi =>
      rcases List.mem_cons.1 h with rfl | h
      · exact .inr ⟨[], part, before, rfl, by simpa using hi, rfl⟩
      · rcases ih h with he | ⟨after, part', before', hr, hi, hq⟩
        · exact .inl he
        · exact .inr ⟨part :: after, part', before', by simp [hr], hi, hq⟩

/-- A path above another one starts where the other starts and has some of its steps, the first
ones, but not the last one. The empty path is above some paths as well. -/
theorem of_mem_properAncestors {p q : Path} (h : q ∈ p.properAncestors) (hne : q.text ≠ []) :
    q.isAbsolute = p.isAbsolute ∧ ∃ rest, rest ≠ [] ∧ p.steps = q.steps ++ rest := by
  rcases mem_ancestorsOf h with he | ⟨after, part, before, hr, hi, rfl⟩
  · exact absurd he hne
  · have hparts : p.parts = before.reverse ++ part :: after.reverse := by
      rw [← List.reverse_inj, hr]; simp
    have hpre : before.reverse <+: p.parts := ⟨_, hparts.symm⟩
    refine ⟨isAbsolute_of_prefix_text (ofParts_prefix_text hpre) hne,
      (part :: after.reverse).filter (fun s => !isIdle s), by simp [hi], ?_⟩
    rw [steps_ofParts hpre, steps_eq_parts, hparts, List.filter_append]

/-- The nearest path above another one is cut at its last part that is not idle. -/
theorem head?_ancestorsOf (front : Text) {rev : List Text} (h : ∃ s ∈ rev, isIdle s = false) :
    ∃ after part before, rev = after ++ part :: before ∧ (∀ s ∈ after, isIdle s = true) ∧
      isIdle part = false ∧ (ancestorsOf front rev).head? = some (ofParts front before.reverse) := by
  induction rev with
  | nil => simp at h
  | cons part before ih =>
    unfold ancestorsOf
    split
    · next hi =>
      have hrest : ∃ s ∈ before, isIdle s = false := by simpa [hi] using h
      obtain ⟨after, part', before', hr, ha, hp, hhead⟩ := ih hrest
      exact ⟨part :: after, part', before', by simp [hr], by simpa [hi] using ha, hp, hhead⟩
    · next hi => exact ⟨[], part, before, rfl, by simp, by simpa using hi, rfl⟩

/-- The nearest path above a path has all of its steps but the last one. -/
theorem exists_parent {p : Path} (h : p.steps ≠ []) :
    ∃ q, p.parent? = some q ∧ q.steps = p.steps.dropLast ∧ q.isAbsolute = p.isAbsolute := by
  have hidle : ∃ s ∈ p.parts.reverse, isIdle s = false := by
    obtain ⟨s, hs⟩ := List.exists_mem_of_ne_nil _ h
    rw [steps_eq_parts, List.mem_filter] at hs
    exact ⟨s, by simpa using hs.1, by simpa using hs.2⟩
  obtain ⟨after, part, before, hr, ha, hp, hhead⟩ := head?_ancestorsOf p.front hidle
  have hparts : p.parts = before.reverse ++ part :: after.reverse := by
    rw [← List.reverse_inj, hr]; simp
  have hpre : before.reverse <+: p.parts := ⟨_, hparts.symm⟩
  refine ⟨_, hhead, ?_, ?_⟩
  · have hnone : after.reverse.filter (fun s => !isIdle s) = [] := by
      rw [List.filter_eq_nil_iff]
      intro s hs
      simpa using ha s (List.mem_reverse.1 hs)
    rw [steps_ofParts hpre, steps_eq_parts, hparts, List.filter_append,
      List.filter_cons_of_pos (by simp [hp]), hnone, List.dropLast_concat]
  · by_cases hne : (ofParts p.front before.reverse).text = []
    · have hfront : p.front = [] := (List.append_eq_nil_iff.1 hne).1
      rcases p.front_cases with ⟨hf, -⟩ | ⟨hf, -⟩ | ⟨-, habs⟩
      · simp [hf] at hfront
      · simp [hf] at hfront
      · rw [habs]
        simp [isAbsolute, hne]
    · exact isAbsolute_of_prefix_text (ofParts_prefix_text hpre) hne

theorem of_mem_ancestors {p q : Path} (h : q ∈ p.ancestors) (hne : q.text ≠ []) :
    q.isAbsolute = p.isAbsolute ∧ q.steps <+: p.steps := by
  rcases List.mem_cons.1 h with rfl | h
  · exact ⟨rfl, List.prefix_refl _⟩
  · obtain ⟨ha, rest, -, hs⟩ := of_mem_properAncestors h hne
    exact ⟨ha, rest, hs.symm⟩

end Path
end Scaffold
