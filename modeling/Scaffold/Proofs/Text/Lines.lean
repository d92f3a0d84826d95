import Mathlib.Data.List.DropRight
import Mathlib.Data.List.TakeWhile
import Scaffold.Text.Lines
import Scaffold.Proofs.Text.Split

/-! Blanks at the ends of a text, and the pieces that a text falls into behind its line feeds. A
text that is put together from pieces falls into the same pieces again. -/

namespace Scaffold.Text

variable {s t : Text}

/-! ### Ends -/

theorem dropEndWhile_eq (p : Char → Bool) (t : Text) : dropEndWhile p t = t.rdropWhile p := rfl

theorem of_getLast?_dropEndWhile {p : Char → Bool} {c : Char}
    (h : (dropEndWhile p t).getLast? = some c) : p c = false := by
  have hd := List.head?_dropWhile_not p t.reverse
  rw [dropEndWhile, List.getLast?_reverse] at h
  rwa [h] at hd

theorem isBlank_append (s t : Text) : isBlank (s ++ t) = (isBlank s && isBlank t) :=
  List.all_append

theorem trim_eq_nil_of_isBlank (h : isBlank t = true) : trim t = [] := by
  have hd : t.dropWhile isBlankChar = [] := List.dropWhile_eq_nil_iff.2 (List.all_eq_true.1 h)
  rw [trim, hd]
  rfl

theorem isBlank_eq_false_of_trim (h : trim t ≠ []) : isBlank t = false := by
  rw [← Bool.not_eq_true]
  intro hb
  exact h (trim_eq_nil_of_isBlank hb)

/-- Blanks in front do not matter. -/
theorem trim_append_of_isBlank (h : isBlank s = true) (t : Text) : trim (s ++ t) = trim t := by
  rw [trim, List.dropWhile_append_of_pos (List.all_eq_true.1 h), ← trim]

/-- Trimming takes blanks away, and nothing else. -/
theorem exists_eq_append_trim (t : Text) :
    ∃ front back, t = front ++ trim t ++ back ∧ isBlank front = true ∧ isBlank back = true := by
  refine ⟨t.takeWhile isBlankChar, (t.dropWhile isBlankChar).rtakeWhile isBlankChar, ?_,
    List.all_takeWhile, ?_⟩
  · rw [trim, dropEndWhile_eq, List.append_assoc, List.rdropWhile_append_rtakeWhile,
      List.takeWhile_append_dropWhile]
  · exact List.all_eq_true.2 fun c hc => List.mem_rtakeWhile_imp hc

/-- A text that starts and ends with characters that are not blank is trimmed already. -/
theorem trim_eq_self {a b : Char} (hh : t.head? = some a) (ha : isBlankChar a = false)
    (hl : t.getLast? = some b) (hb : isBlankChar b = false) : trim t = t := by
  have hd : t.dropWhile isBlankChar = t := by
    cases t with
    | nil => rfl
    | cons c t =>
      obtain rfl : c = a := Option.some.inj hh
      exact List.dropWhile_cons_of_neg (by simp [ha])
  rw [trim, hd, dropEndWhile_eq, ← List.dropLast_append_getLast? b hl,
    List.rdropWhile_concat_neg _ _ _ (by simp [hb])]

/-! ### Pieces -/

theorem pieces_append_newline (h : '\n' ∉ s) (t : Text) :
    pieces (s ++ '\n' :: t) = (s ++ ['\n']) :: pieces t := by
  induction s with
  | nil => simp [pieces]
  | cons c s ih =>
    have hc : c ≠ '\n' := by
      rintro rfl
      exact h List.mem_cons_self
    have hs := ih fun hm => h (List.mem_cons_of_mem _ hm)
    rw [List.cons_append, pieces, if_neg hc, hs]
    rfl

theorem pieces_of_not_mem (h : '\n' ∉ s) : pieces s = if s = [] then [] else [s] := by
  induction s with
  | nil => rfl
  | cons c s ih =>
    have hc : c ≠ '\n' := by
      rintro rfl
      exact h List.mem_cons_self
    have hs := ih fun hm => h (List.mem_cons_of_mem _ hm)
    rw [pieces, if_neg hc, hs, if_neg (List.cons_ne_nil c s)]
    by_cases he : s = []
    · simp [he]
    · simp [he]

/-- A line feed stands only at the end of a piece. -/
theorem not_mem_dropLast_of_mem_pieces (h : s ∈ pieces t) : '\n' ∉ s.dropLast := by
  induction t generalizing s with
  | nil => cases h
  | cons c t ih =>
    unfold pieces at h
    split at h
    · rcases List.mem_cons.1 h with rfl | h
      · simp
      · exact ih h
    · next hc =>
      split at h
      · obtain rfl : s = [c] := by simpa using h
        simp
      · next p ps hp =>
        rcases List.mem_cons.1 h with rfl | h
        · have hmem := @ih p (by rw [hp]; exact List.mem_cons_self)
          cases p with
          | nil => simp
          | cons d p => simpa [Ne.symm hc] using hmem
        · exact ih (by rw [hp]; exact List.mem_cons_of_mem _ h)

/-! ### Lines, each with its line feed -/

/-- Lines written one below the other, each with a line feed behind it. -/
def unlines (ls : List Text) : Text :=
  ls.flatMap (· ++ ['\n'])

@[simp] theorem unlines_nil : unlines [] = [] := rfl

@[simp] theorem unlines_cons (l : Text) (ls : List Text) :
    unlines (l :: ls) = l ++ '\n' :: unlines ls := by
  simp [unlines]

@[simp] theorem unlines_append (ls ls' : List Text) :
    unlines (ls ++ ls') = unlines ls ++ unlines ls' :=
  List.flatMap_append

theorem unlines_eq_join {ls : List Text} (h : ls ≠ []) : unlines ls = join ['\n'] ls ++ ['\n'] := by
  induction ls with
  | nil => exact absurd rfl h
  | cons l ls ih =>
    rcases ls with _ | ⟨l', ls⟩
    · simp [join]
    · rw [unlines_cons, ih (List.cons_ne_nil _ _), join_cons_cons]
      simp

theorem ofLines_eq_unlines {ls : List Text} (h : ls ≠ []) : ofLines .lf true ls = unlines ls :=
  (unlines_eq_join h).symm

/-- Lines below each other, all with the same text in front. -/
theorem unlines_map_append {ts : List Text} (h : ts ≠ []) (front : Text) :
    unlines (ts.map (front ++ ·)) = front ++ join ('\n' :: front) ts ++ ['\n'] := by
  induction ts with
  | nil => exact absurd rfl h
  | cons t ts ih =>
    rcases ts with _ | ⟨t', ts⟩
    · simp [join]
    · rw [List.map_cons, unlines_cons, ih (List.cons_ne_nil _ _), join_cons_cons]
      simp

theorem count_unlines {c : Char} (hc : c ≠ '\n') (ls : List Text) :
    (unlines ls).count c = ls.flatten.count c := by
  induction ls with
  | nil => rfl
  | cons l ls ih => simp [hc.symm, ih]

theorem endsWithNewline_unlines {ls : List Text} (h : ls ≠ []) :
    endsWithNewline (unlines ls) = true := by
  rw [unlines_eq_join h, endsWithNewline, List.getLast?_concat]
  rfl

theorem chomp_append_newline (h : s.getLast? ≠ some '\r') : chomp (s ++ ['\n']) = s := by
  have hr : ∀ r, s.reverse ≠ '\r' :: r := by
    intro r hr
    rw [← List.head?_reverse, hr] at h
    exact h rfl
  unfold chomp
  rw [List.reverse_append, List.reverse_singleton, List.singleton_append]
  split
  · next r heq => exact absurd (List.cons.inj heq).2 (hr r)
  · next r _ heq => rw [← (List.cons.inj heq).2, List.reverse_reverse]
  · next hno => exact absurd rfl (hno _)

theorem lines_append_newline (h : '\n' ∉ s) (t : Text) :
    lines (s ++ '\n' :: t) = chomp (s ++ ['\n']) :: lines t := by
  rw [lines, pieces_append_newline h, List.map_cons, ← lines]

theorem lines_unlines {ls : List Text} (h : ∀ l ∈ ls, '\n' ∉ l ∧ '\r' ∉ l) :
    lines (unlines ls) = ls := by
  induction ls with
  | nil => rfl
  | cons l ls ih =>
    obtain ⟨hl, hls⟩ := List.forall_mem_cons.1 h
    have hr : l.getLast? ≠ some '\r' := fun hr => hl.2 (List.mem_of_getLast? hr)
    rw [unlines_cons, lines_append_newline hl.1, chomp_append_newline hr, ih hls]

end Scaffold.Text
