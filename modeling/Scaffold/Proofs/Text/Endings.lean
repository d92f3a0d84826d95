import Mathlib.Data.List.Chain
import Scaffold.Proofs.Text.Lines

/-! Texts whose lines all end in the same way. Taking such a text apart into lines and writing the
lines again gives the text back, with the same ending and the same end. Main statement:
`ofLines_lines`. -/

namespace Scaffold.Text

variable {s t : Text} {e : Ending}

/-! ### Characters in a row -/

/-- No line feed stands directly behind a carriage return. -/
def NoCrlf (t : Text) : Prop :=
  t.IsChain fun c d => c = '\r' → d ≠ '\n'

/-- Every line feed stands directly behind a carriage return. -/
def AllCrlf (t : Text) : Prop :=
  t.head? ≠ some '\n' ∧ t.IsChain fun c d => d = '\n' → c = '\r'

/-- Every carriage return stands directly before a line feed. -/
def NoLoneReturn (t : Text) : Prop :=
  t.getLast? ≠ some '\r' ∧ t.IsChain fun c d => c = '\r' → d = '\n'

instance (t : Text) : Decidable t.NoCrlf :=
  inferInstanceAs (Decidable (List.IsChain _ t))

instance (t : Text) : Decidable t.AllCrlf :=
  inferInstanceAs (Decidable (_ ∧ List.IsChain _ t))

instance (t : Text) : Decidable t.NoLoneReturn :=
  inferInstanceAs (Decidable (_ ∧ List.IsChain _ t))

/-- All lines of the text end with a line feed, or all with a carriage return and a line feed, and
no other carriage return is in it. -/
def HasOneEnding (t : Text) : Prop :=
  '\r' ∉ t ∨ (t.AllCrlf ∧ t.NoLoneReturn)

instance (t : Text) : Decidable t.HasOneEnding :=
  inferInstanceAs (Decidable (_ ∨ _))

/-- Every line of the text ends in this way. Carriage returns elsewhere do not matter. -/
def Uses : Ending → Text → Prop
  | .lf => NoCrlf
  | .crlf => AllCrlf

theorem hasCrlf_eq_false_iff : hasCrlf t = false ↔ t.NoCrlf := by
  induction t with
  | nil => simp [hasCrlf, NoCrlf]
  | cons c t ih =>
    rw [hasCrlf, Bool.or_eq_false_iff, ih, NoCrlf, NoCrlf, List.isChain_cons]
    refine and_congr_left fun _ => ?_
    cases t <;> simp

/-- A text uses its own ending, unless it mixes the two. -/
theorem uses_ending (h : t.NoCrlf ∨ t.AllCrlf) : Uses t.ending t := by
  rw [ending]
  cases hc : hasCrlf t with
  | false => exact hasCrlf_eq_false_iff.1 hc
  | true =>
    have hn : ¬ t.NoCrlf := by simp [← hasCrlf_eq_false_iff, hc]
    exact h.resolve_left hn

/-- What holds behind a character does so in every text without the character. -/
theorem isChain_of_not_mem {c : Char} {P : Char → Prop} (h : c ∉ t) :
    t.IsChain fun a b => a = c → P b := by
  induction t with
  | nil => exact .nil
  | cons a t ih =>
    obtain ⟨ha, ht⟩ := not_or.1 (mt List.mem_cons.2 h)
    exact List.isChain_cons.2 ⟨fun b _ he => absurd he.symm ha, ih ht⟩

theorem noCrlf_of_not_mem (h : '\r' ∉ t) : t.NoCrlf :=
  isChain_of_not_mem h

theorem noLoneReturn_of_not_mem (h : '\r' ∉ t) : t.NoLoneReturn :=
  ⟨fun hl => h (List.mem_of_getLast? hl), isChain_of_not_mem h⟩

theorem ending_of_not_mem (h : '\r' ∉ t) : ending t = .lf := by
  rw [ending, hasCrlf_eq_false_iff.2 (noCrlf_of_not_mem h), if_neg Bool.false_ne_true]

theorem ending_unlines {ls : List Text} (h : ∀ l ∈ ls, '\r' ∉ l) : ending (unlines ls) = .lf := by
  refine ending_of_not_mem fun hm => ?_
  obtain ⟨l, hl, hm⟩ := List.mem_flatMap.1 hm
  exact h l hl (by simpa using hm)

/-! ### From line to line -/

/-- Every text is a text without a line feed, or such a text, a line feed and a shorter text. -/
theorem line_induction {P : Text → Prop} (last : ∀ s, '\n' ∉ s → P s)
    (line : ∀ s t, '\n' ∉ s → P t → P (s ++ '\n' :: t)) (t : Text) : P t := by
  -- the characters of the line that is being read are carried along
  have hread : ∀ s, '\n' ∉ s → P (s ++ t) := by
    induction t with
    | nil =>
      intro s hs
      simpa using last s hs
    | cons c t ih =>
      intro s hs
      by_cases hc : c = '\n'
      · subst hc
        exact line s t hs (ih [] List.not_mem_nil)
      · have hs' : '\n' ∉ s ++ [c] := by simp [hs, Ne.symm hc]
        simpa using ih (s ++ [c]) hs'
  exact hread [] List.not_mem_nil

theorem chomp_append_crlf (s : Text) : chomp (s ++ ['\r'] ++ ['\n']) = s := by
  simp [chomp]

/-- The line in front of a line feed is all that stands there, less a carriage return at the end. -/
theorem chomp_cases (s : Text) :
    chomp (s ++ ['\n']) = s ∨ s = chomp (s ++ ['\n']) ++ ['\r'] := by
  rcases List.eq_nil_or_concat' s with rfl | ⟨l, c, rfl⟩
  · exact .inl rfl
  · by_cases hc : c = '\r'
    · subst hc
      rw [chomp_append_crlf]
      exact .inr rfl
    · exact .inl (chomp_append_newline (by simp [hc]))

theorem chomp_of_not_mem (h : '\n' ∉ s) : chomp s = s := by
  have hr : ∀ r, s.reverse ≠ '\n' :: r := by
    intro r hr
    exact h (List.mem_reverse.1 (hr ▸ List.mem_cons_self))
  unfold chomp
  split
  · next r heq => exact absurd heq (hr _)
  · next r _ heq => exact absurd heq (hr r)
  · rfl

theorem lines_of_not_mem (h : '\n' ∉ s) : lines s = if s = [] then [] else [s] := by
  rw [lines, pieces_of_not_mem h]
  by_cases he : s = [] <;> simp [he, chomp_of_not_mem h]

theorem newline_not_mem_lines {l : Text} (h : l ∈ lines t) : '\n' ∉ l := by
  induction t using line_induction with
  | last s hs =>
    rw [lines_of_not_mem hs] at h
    split at h
    · cases h
    · rwa [List.mem_singleton.1 h]
  | line s t hs ih =>
    rw [lines_append_newline hs] at h
    rcases List.mem_cons.1 h with rfl | h
    · rcases chomp_cases s with hc | hc
      · rwa [hc]
      · exact fun hm => hs (by rw [hc]; exact List.mem_append_left _ hm)
    · exact ih h

theorem lines_ne_nil (h : t ≠ []) : lines t ≠ [] := by
  rw [lines, Ne, List.map_eq_nil_iff]
  intro hp
  exact h (by rw [← flatten_pieces t, hp]; rfl)

/-- The first line of a text that uses an ending, with the ending. -/
theorem Uses.first_line (h : Uses e (s ++ '\n' :: t)) :
    chomp (s ++ ['\n']) ++ e.text = s ++ ['\n'] ∧ Uses e t := by
  cases e with
  | lf =>
    obtain ⟨-, ht, hlast⟩ := List.isChain_append.1 h
    have hs : s.getLast? ≠ some '\r' := fun hs => hlast _ hs _ rfl rfl rfl
    exact ⟨by rw [chomp_append_newline hs]; rfl, (List.isChain_cons.1 ht).2⟩
  | crlf =>
    obtain ⟨hhead, hchain⟩ := h
    obtain ⟨-, ht, hlast⟩ := List.isChain_append.1 hchain
    obtain ⟨hnext, ht⟩ := List.isChain_cons.1 ht
    refine ⟨?_, fun hh => absurd (hnext _ hh rfl) (by decide), ht⟩
    rcases List.eq_nil_or_concat' s with rfl | ⟨l, c, rfl⟩
    · exact absurd rfl hhead
    · obtain rfl : c = '\r' := hlast c (by simp) _ rfl rfl
      rw [chomp_append_crlf]
      simp [Ending.text]

/-! ### Lines written again -/

theorem endsWithNewline_of_not_mem (h : '\n' ∉ s) : endsWithNewline s = false := by
  rw [endsWithNewline, beq_eq_false_iff_ne]
  intro hl
  exact h (List.mem_of_getLast? hl)

theorem endsWithNewline_append (s : Text) (h : t ≠ []) :
    endsWithNewline (s ++ t) = endsWithNewline t := by
  rw [endsWithNewline, List.getLast?_append_of_ne_nil s h, ← endsWithNewline]

theorem ofLines_cons (e : Ending) (closed : Bool) (l : Text) {ls : List Text} (h : ls ≠ []) :
    ofLines e closed (l :: ls) = l ++ e.text ++ ofLines e closed ls := by
  obtain ⟨l', ls, rfl⟩ := List.exists_cons_of_ne_nil h
  simp [ofLines, join_cons_cons]

/-- The lines above a line, each with its ending, stand in front of the rest. -/
theorem ofLines_append_cons (e : Ending) (closed : Bool) (ls : List Text) (l : Text)
    (ls' : List Text) :
    ofLines e closed (ls ++ l :: ls') = ls.flatMap (· ++ e.text) ++ ofLines e closed (l :: ls') := by
  induction ls with
  | nil => rfl
  | cons l₀ ls ih =>
    rw [List.cons_append, ofLines_cons _ _ _ (by simp), ih, List.flatMap_cons]
    simp

theorem Uses.ofLines_lines (h : Uses e t) : ofLines e (endsWithNewline t) (lines t) = t := by
  induction t using line_induction with
  | last s hs =>
    rw [lines_of_not_mem hs, endsWithNewline_of_not_mem hs]
    by_cases he : s = [] <;> simp [he, ofLines, join]
  | line s t hs ih =>
    obtain ⟨hline, ht⟩ := h.first_line
    rw [lines_append_newline hs]
    by_cases he : t = []
    · subst he
      have hclosed : endsWithNewline (s ++ ['\n']) = true := by simp [endsWithNewline]
      have hwritten : ∀ l, ofLines e true (l :: lines []) = l ++ e.text := fun l => by
        simp [ofLines, join, lines, pieces]
      rw [hclosed, hwritten, hline]
    · have hclosed : endsWithNewline (s ++ '\n' :: t) = endsWithNewline t := by
        rw [← List.singleton_append, ← List.append_assoc, endsWithNewline_append _ he]
      rw [hclosed, ofLines_cons _ _ _ (lines_ne_nil he), ih ht, hline]
      simp

/-- A text that does not mix the two endings is its lines, written with its own ending. -/
theorem ofLines_lines (h : t.NoCrlf ∨ t.AllCrlf) :
    ofLines t.ending (endsWithNewline t) (lines t) = t :=
  (uses_ending h).ofLines_lines

end Scaffold.Text
