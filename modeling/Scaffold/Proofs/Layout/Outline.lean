import Scaffold.Layout.Indent
import Scaffold.Proofs.Text.Lines

/-! Outlines: code as a tree of blocks between braces, written with four blanks per level. In
the text of an outline the indentation of a line always agrees with the braces that are open above
it (`Outline.nests_lines`, `Nests.indented`), and the text can be read as an outline in one way
only (`Outline.allLines_injective`). -/

namespace Scaffold

/-! ### Braces -/

namespace Text

/-- The level behind a character on level `n`; a brace that is not open cannot be closed. -/
def afterChar (n : Nat) (c : Char) : Option Nat :=
  if c = '\x7b' then some (n + 1)
  else if c = '\x7d' then
    match n with
    | 0 => none
    | n + 1 => some n
  else some n

/-- The level behind a text that starts on level `n`. -/
def levelAfter (n : Nat) (t : Text) : Option Nat :=
  t.foldlM afterChar n

/-- How many more braces a text opens than it closes. -/
def openBraces (t : Text) : Int :=
  t.count '\x7b' - t.count '\x7d'

/-- Neither a brace nor part of a line ending. -/
def isPlainChar (c : Char) : Bool :=
  c != '\x7b' && c != '\x7d' && c != '\n' && c != '\r'

/-- A text without braces and within one line. -/
def IsPlain (t : Text) : Prop :=
  ∀ c ∈ t, isPlainChar c = true

instance (t : Text) : Decidable t.IsPlain :=
  decidable_of_iff (t.all isPlainChar = true) List.all_eq_true

variable {n m k : Nat} {s t : Text}

@[simp] theorem isPlain_append : IsPlain (s ++ t) ↔ s.IsPlain ∧ t.IsPlain :=
  List.forall_mem_append

theorem afterChar_cases {c : Char} (h : afterChar n c = some k) :
    (c = '\x7b' ∧ k = n + 1) ∨ (c = '\x7d' ∧ n = k + 1) ∨ (c ≠ '\x7b' ∧ c ≠ '\x7d' ∧ k = n) := by
  unfold afterChar at h
  split_ifs at h with ho hc
  · exact .inl ⟨ho, (Option.some.inj h).symm⟩
  · cases n with
    | zero => cases h
    | succ n => exact .inr (.inl ⟨hc, congrArg (· + 1) (Option.some.inj h)⟩)
  · exact .inr (.inr ⟨ho, hc, (Option.some.inj h).symm⟩)

theorem afterChar_of_ne {c : Char} (ho : c ≠ '\x7b') (hc : c ≠ '\x7d') (n : Nat) :
    afterChar n c = some n := by
  simp only [afterChar, if_neg ho, if_neg hc]

theorem afterChar_of_isPlainChar {c : Char} (h : isPlainChar c = true) (n : Nat) :
    afterChar n c = some n := by
  simp only [isPlainChar, Bool.and_eq_true, bne_iff_ne] at h
  exact afterChar_of_ne h.1.1.1 h.1.1.2 n

theorem levelAfter_cons (n : Nat) (c : Char) (t : Text) :
    levelAfter n (c :: t) = (afterChar n c).bind (levelAfter · t) := rfl

theorem levelAfter_append (n : Nat) (s t : Text) :
    levelAfter n (s ++ t) = (levelAfter n s).bind (levelAfter · t) :=
  List.foldlM_append

/-- Further open braces around a text do not matter to it. -/
theorem levelAfter_add (h : levelAfter n t = some k) (m : Nat) :
    levelAfter (m + n) t = some (m + k) := by
  induction t generalizing n with
  | nil =>
    cases h
    rfl
  | cons c t ih =>
    obtain ⟨j, hc, ht⟩ := Option.bind_eq_some_iff.1 h
    have hstep : afterChar (m + n) c = some (m + j) := by
      rcases afterChar_cases hc with ⟨rfl, rfl⟩ | ⟨rfl, rfl⟩ | ⟨ho, hcl, rfl⟩
      · rfl
      · rfl
      · exact afterChar_of_ne ho hcl _
    rw [levelAfter_cons, hstep]
    exact ih ht

theorem levelAfter_of_isPlain (h : t.IsPlain) (n : Nat) : levelAfter n t = some n := by
  induction t with
  | nil => rfl
  | cons c t ih =>
    obtain ⟨hc, ht⟩ := List.forall_mem_cons.1 h
    rw [levelAfter_cons, afterChar_of_isPlainChar hc]
    exact ih ht

theorem levelAfter_count (h : levelAfter n t = some k) :
    n + t.count '\x7b' = k + t.count '\x7d' := by
  induction t generalizing n with
  | nil =>
    cases h
    rfl
  | cons c t ih =>
    obtain ⟨j, hc, ht⟩ := Option.bind_eq_some_iff.1 h
    have hrest := ih ht
    rcases afterChar_cases hc with ⟨rfl, rfl⟩ | ⟨rfl, rfl⟩ | ⟨ho, hcl, rfl⟩
    · rw [List.count_cons_self, List.count_cons_of_ne (by decide)]
      omega
    · rw [List.count_cons_self, List.count_cons_of_ne (by decide)]
      omega
    · rw [List.count_cons_of_ne ho, List.count_cons_of_ne hcl]
      exact hrest

/-- A text that starts on level `n` never closes more braces than are open. -/
theorem count_le_of_prefix (h : levelAfter n t = some k) (hs : s <+: t) :
    s.count '\x7d' ≤ n + s.count '\x7b' := by
  obtain ⟨r, rfl⟩ := hs
  rw [levelAfter_append] at h
  obtain ⟨j, hj, -⟩ := Option.bind_eq_some_iff.1 h
  have := levelAfter_count hj
  omega

/-- The indentation of a text agrees with its braces. -/
structure Indented (t : Text) : Prop where
  /-- Up to no point are more braces closed than opened. -/
  closed_le : ∀ s, s <+: t → s.count '\x7d' ≤ s.count '\x7b'
  balanced : t.count '\x7d' = t.count '\x7b'
  /-- A line with anything on it starts with four blanks for each brace open above it; a brace that
  closes at the start of the line is no longer open. -/
  leading : ∀ before line after, lines t = before ++ line :: after → line ≠ [] →
    ((line.takeWhile (· = ' ')).length : Int) = 4 * (openBraces before.flatten -
      if (line.dropWhile (· = ' ')).head? = some '\x7d' then 1 else 0)

end Text

/-! ### Lines on their levels -/

/-- Whether the first character of a text is there to be seen. -/
def Text.startsShown (t : Text) : Bool :=
  t.head?.any fun c => !isBlankChar c

theorem Text.exists_cons_of_startsShown {t : Text} (h : t.startsShown = true) :
    ∃ c s, t = c :: s ∧ isBlankChar c = false := by
  cases t with
  | nil => cases h
  | cons c s => exact ⟨c, s, rfl, by simpa [startsShown] using h⟩

theorem Text.startsShown_append {s : Text} (h : s.startsShown = true) (t : Text) :
    (s ++ t).startsShown = true := by
  obtain ⟨c, s, rfl, -⟩ := exists_cons_of_startsShown h
  exact h

/-- The white space in front of a line of a level. -/
def margin (n : Nat) : Text :=
  Indent.standard.ofLevel n

theorem margin_eq (n : Nat) : margin n = List.replicate (4 * n) ' ' := rfl

theorem isPlain_margin (n : Nat) : (margin n).IsPlain := by
  intro c hc
  rw [margin_eq] at hc
  rw [List.eq_of_mem_replicate hc]
  rfl

theorem levelAfter_margin (n m : Nat) (t : Text) :
    Text.levelAfter n (margin m ++ t) = Text.levelAfter n t := by
  rw [Text.levelAfter_append, Text.levelAfter_of_isPlain (isPlain_margin m), Option.bind_some]

/-- What can stand on a line behind the margin, and takes the level up by `k`. -/
structure Fits (k : Nat) (t : Text) : Prop where
  start : Text.startsShown t = true
  oneLine : '\n' ∉ t ∧ '\r' ∉ t
  level : Text.levelAfter 0 t = some k

instance (k : Nat) (t : Text) : Decidable (Fits k t) :=
  decidable_of_iff (t.startsShown = true ∧ ('\n' ∉ t ∧ '\r' ∉ t) ∧ Text.levelAfter 0 t = some k)
    ⟨fun h => ⟨h.1, h.2.1, h.2.2⟩, fun h => ⟨h.1, h.2, h.3⟩⟩

namespace Fits

variable {k : Nat} {s t : Text}

theorem ne_nil (h : Fits k t) : t ≠ [] := by
  obtain ⟨c, s, rfl, -⟩ := Text.exists_cons_of_startsShown h.start
  exact List.cons_ne_nil c s

theorem isBlank (h : Fits k t) : Text.isBlank t = false := by
  obtain ⟨c, s, rfl, hc⟩ := Text.exists_cons_of_startsShown h.start
  rw [Text.isBlank, List.all_cons, hc, Bool.false_and]

theorem levelAfter (h : Fits k t) (n : Nat) : Text.levelAfter n t = some (n + k) :=
  Text.levelAfter_add h.level n

theorem head_ne_close (h : Fits k t) : t.head? ≠ some '\x7d' := by
  obtain ⟨c, s, rfl, -⟩ := Text.exists_cons_of_startsShown h.start
  intro hc
  obtain rfl : c = '\x7d' := by simpa using hc
  cases h.level

/-- A plain text with a fixed end. -/
theorem append (ht : t.IsPlain) (start : t.startsShown = true)
    (hs : ('\n' ∉ s ∧ '\r' ∉ s) ∧ Text.levelAfter 0 s = some k) : Fits k (t ++ s) := by
  have hmem : ∀ c, Text.isPlainChar c = false → c ∉ t := by
    intro c hc hm
    rw [ht c hm] at hc
    cases hc
  refine ⟨Text.startsShown_append start s, ⟨?_, ?_⟩, ?_⟩
  · exact fun hm => (List.mem_append.1 hm).elim (hmem _ rfl) hs.1.1
  · exact fun hm => (List.mem_append.1 hm).elim (hmem _ rfl) hs.1.2
  · rw [Text.levelAfter_append, Text.levelAfter_of_isPlain ht]
    exact hs.2

theorem of_isPlain (ht : t.IsPlain) (start : t.startsShown = true) : Fits 0 t := by
  rw [← List.append_nil t]
  exact append ht start ⟨by simp, rfl⟩

end Fits

/-- Lines that lead from one level to another, each behind the margin of its level. The brace that
closes a block stands on the level of the line that opened it. -/
inductive Nests : Nat → List Text → Nat → Prop
  | nil (n : Nat) : Nests n [] n
  | blank {n m : Nat} {ls : List Text} : Nests n ls m → Nests n ([] :: ls) m
  | line {n k m : Nat} {t : Text} {ls : List Text} (ht : Fits k t) :
      Nests (n + k) ls m → Nests n ((margin n ++ t) :: ls) m
  | close {n m : Nat} {ls : List Text} :
      Nests n ls m → Nests (n + 1) ((margin n ++ ['\x7d']) :: ls) m

namespace Nests

variable {n m k : Nat} {ls ls' : List Text}

theorem append (h : Nests n ls m) (h' : Nests m ls' k) : Nests n (ls ++ ls') k := by
  induction h with
  | nil => exact h'
  | blank _ ih => exact .blank (ih h')
  | line ht _ ih => exact .line ht (ih h')
  | close _ ih => exact .close (ih h')

/-- The level between two lines. -/
theorem split {before after : List Text} (h : Nests n (before ++ after) m) :
    ∃ k, Nests n before k ∧ Nests k after m := by
  induction before generalizing n with
  | nil => exact ⟨n, .nil n, h⟩
  | cons l before ih =>
    rcases h with _ | h | ⟨ht, h⟩ | h
    · obtain ⟨k, hb, ha⟩ := ih h
      exact ⟨k, .blank hb, ha⟩
    · obtain ⟨k, hb, ha⟩ := ih h
      exact ⟨k, .line ht hb, ha⟩
    · obtain ⟨k, hb, ha⟩ := ih h
      exact ⟨k, .close hb, ha⟩

theorem oneLine (h : Nests n ls m) : ∀ l ∈ ls, '\n' ∉ l ∧ '\r' ∉ l := by
  have hmargin : ∀ {j : Nat} {t : Text}, '\n' ∉ t ∧ '\r' ∉ t →
      '\n' ∉ margin j ++ t ∧ '\r' ∉ margin j ++ t := by
    intro j t ht
    simpa [margin_eq] using ht
  induction h with
  | nil => simp
  | blank _ ih => exact List.forall_mem_cons.2 ⟨by simp, ih⟩
  | line ht _ ih => exact List.forall_mem_cons.2 ⟨hmargin ht.oneLine, ih⟩
  | close _ ih => exact List.forall_mem_cons.2 ⟨hmargin (by decide), ih⟩

/-- The braces alone lead from the first level to the last. -/
theorem levelAfter_unlines (h : Nests n ls m) : Text.levelAfter n (Text.unlines ls) = some m := by
  have hline : ∀ {j i : Nat} {t : Text} (rest : Text), Text.levelAfter j t = some i →
      Text.levelAfter j (t ++ '\n' :: rest) = Text.levelAfter i rest := by
    intro j i t rest ht
    rw [Text.levelAfter_append, ht]
    rfl
  induction h with
  | nil => rfl
  | blank _ ih => exact ih
  | line ht _ ih =>
    rw [Text.unlines_cons, hline _ ((levelAfter_margin _ _ _).trans (ht.levelAfter _)), ih]
  | close _ ih => rw [Text.unlines_cons, hline _ (levelAfter_margin _ _ _), ih]

theorem openBraces_flatten (h : Nests n ls m) : Text.openBraces ls.flatten = m - n := by
  have hcount := Text.levelAfter_count h.levelAfter_unlines
  rw [Text.count_unlines (by decide), Text.count_unlines (by decide)] at hcount
  unfold Text.openBraces
  omega

/-- A line that is not empty stands behind the margin of its level, or of the level outside if it
starts with a closing brace. -/
theorem exists_margin {l : Text} (h : Nests n (l :: ls) m) (hne : l ≠ []) :
    ∃ d c s, l = margin d ++ c :: s ∧ c ≠ ' ' ∧ (n : Int) = d + if c = '\x7d' then 1 else 0 := by
  rcases h with _ | h | ⟨ht, h⟩ | h
  · exact absurd rfl hne
  · have hclose := ht.head_ne_close
    obtain ⟨c, s, rfl, hc⟩ := Text.exists_cons_of_startsShown ht.start
    have hspace : c ≠ ' ' := by
      rintro rfl
      cases hc
    refine ⟨n, c, s, rfl, hspace, ?_⟩
    rw [if_neg (by simpa using hclose)]
    simp
  · exact ⟨_, '\x7d', [], rfl, by decide, by simp⟩

theorem indented (h : Nests 0 ls 0) : Text.Indented (Text.unlines ls) where
  closed_le s hs := by simpa using Text.count_le_of_prefix h.levelAfter_unlines hs
  balanced := by simpa using (Text.levelAfter_count h.levelAfter_unlines).symm
  leading before line after hls hne := by
    rw [Text.lines_unlines h.oneLine] at hls
    subst hls
    obtain ⟨k, hb, ha⟩ := h.split
    obtain ⟨d, c, s, rfl, hc, hk⟩ := ha.exists_margin hne
    have hrun : ∀ b ∈ margin d, decide (b = ' ') = true := by
      intro b hm
      rw [margin_eq] at hm
      simp [List.eq_of_mem_replicate hm]
    rw [hb.openBraces_flatten, List.takeWhile_append_of_pos hrun, List.dropWhile_append_of_pos hrun,
      List.takeWhile_cons_of_neg (by simpa using hc),
      List.dropWhile_cons_of_neg (by simpa using hc), hk]
    simp [margin_eq]

end Nests

/-! ### Outlines -/

/-- Code as a tree: empty lines, lines, and blocks of a first line, a body and a closing brace. -/
inductive Outline where
  | blank
  | line (text : Text)
  | block (header : Text) (body : List Outline)

namespace Outline

mutual

/-- The lines of an outline on a level. -/
def lines (n : Nat) : Outline → List Text
  | .blank => [[]]
  | .line t => [margin n ++ t]
  | .block header body => (margin n ++ header) :: (allLines (n + 1) body ++ [margin n ++ ['\x7d']])

/-- The lines of several outlines, one below the other. -/
def allLines (n : Nat) : List Outline → List Text
  | [] => []
  | o :: os => lines n o ++ allLines n os

end

/-- Outlines below an empty line, if there are any. -/
def setOff (os : List Outline) : List Outline :=
  if os.isEmpty then [] else .blank :: os

/-- An outline whose lines fit: only the first line of a block opens a brace and leaves it open. -/
inductive Sound : Outline → Prop
  | blank : Sound .blank
  | line {t : Text} (h : Fits 0 t) : Sound (.line t)
  | block {header : Text} {body : List Outline} (h : Fits 1 header) (hb : ∀ o ∈ body, Sound o) :
      Sound (.block header body)

variable {n : Nat} {o o' : Outline} {os os' : List Outline}

@[simp] theorem allLines_nil (n : Nat) : allLines n [] = [] := rfl

@[simp] theorem allLines_cons (n : Nat) (o : Outline) (os : List Outline) :
    allLines n (o :: os) = lines n o ++ allLines n os := rfl

@[simp] theorem allLines_append (n : Nat) (os os' : List Outline) :
    allLines n (os ++ os') = allLines n os ++ allLines n os' := by
  induction os with
  | nil => rfl
  | cons o os ih => rw [List.cons_append, allLines_cons, ih, allLines_cons, List.append_assoc]

theorem allLines_map_line (n : Nat) (ts : List Text) :
    allLines n (ts.map line) = ts.map (margin n ++ ·) := by
  induction ts with
  | nil => rfl
  | cons t ts ih =>
    rw [List.map_cons, allLines_cons, ih, lines, List.map_cons, List.singleton_append]

theorem lines_ne_nil (n : Nat) (o : Outline) : lines n o ≠ [] := by
  cases o <;> exact List.cons_ne_nil _ _

theorem allLines_setOff (n : Nat) (os : List Outline) :
    allLines n (setOff os) = (if (allLines n os).isEmpty then [] else [[]]) ++ allLines n os := by
  rcases os with _ | ⟨o, os⟩
  · rfl
  · have hne : (allLines n (o :: os)).isEmpty = false := by
      rw [List.isEmpty_eq_false_iff]
      exact List.append_ne_nil_of_left_ne_nil (lines_ne_nil n o) _
    rw [hne]
    rfl

theorem nests_append (h : ∀ o ∈ os, Nests n (lines n o) n) : Nests n (allLines n os) n := by
  induction os with
  | nil => exact .nil n
  | cons o os ih =>
    obtain ⟨ho, hos⟩ := List.forall_mem_cons.1 h
    exact ho.append (ih hos)

/-- The lines of an outline lead back to the level they start on. -/
theorem nests_lines (h : Sound o) (n : Nat) : Nests n (lines n o) n := by
  induction h generalizing n with
  | blank => exact .blank (.nil n)
  | line h => exact .line h (.nil n)
  | block h _ ih =>
    have hbody := nests_append fun o ho => ih o ho (n + 1)
    exact .line h (hbody.append (.close (.nil n)))

theorem nests_allLines (h : ∀ o ∈ os, Sound o) (n : Nat) : Nests n (allLines n os) n :=
  nests_append fun o ho => nests_lines (h o ho) n

theorem sound_setOff (h : ∀ o ∈ os, Sound o) : ∀ o ∈ setOff os, Sound o := by
  unfold setOff
  split
  · simp
  · exact List.forall_mem_cons.2 ⟨.blank, h⟩

theorem sound_intersperse (h : ∀ o ∈ os, Sound o) : ∀ o ∈ os.intersperse .blank, Sound o := by
  induction os with
  | nil => exact h
  | cons o os ih =>
    obtain ⟨ho, hos⟩ := List.forall_mem_cons.1 h
    rcases os with _ | ⟨o', os⟩
    · exact h
    · rw [List.intersperse_cons_cons]
      exact List.forall_mem_cons.2 ⟨ho, List.forall_mem_cons.2 ⟨.blank, ih hos⟩⟩

/-- What may stand behind the lines of a body: nothing, or first the brace that closes it. -/
def Closed (ls : List Text) : Prop :=
  ∀ l, ls.head? = some l → Text.levelAfter 0 l = none

theorem closed_close (n : Nat) (ls : List Text) : Closed ((margin n ++ ['\x7d']) :: ls) := by
  rintro _ ⟨⟩
  exact levelAfter_margin 0 n _

/-- The lines of an outline start with a line that closes nothing. -/
theorem not_closed_lines (h : Sound o) (n : Nat) (ls : List Text) : ¬Closed (lines n o ++ ls) := by
  have hline : ∀ {k : Nat} {t : Text} (rest : List Text), Fits k t →
      ¬Closed ((margin n ++ t) :: rest) := by
    intro k t rest ht hc
    have hnone := hc _ rfl
    rw [levelAfter_margin, ht.level] at hnone
    cases hnone
  rcases h with _ | ⟨ht⟩ | ⟨hh, -⟩
  · intro hc
    cases hc [] rfl
  · exact hline _ ht
  · exact hline _ hh

/-- Bodies are read in one way only if their outlines are. -/
theorem allLines_append_inj {r r' : List Text} (hos : ∀ o ∈ os, Sound o)
    (hos' : ∀ o ∈ os', Sound o)
    (ih : ∀ o ∈ os, ∀ o', Sound o' → ∀ r r', lines n o ++ r = lines n o' ++ r' → o = o' ∧ r = r')
    (hr : Closed r) (hr' : Closed r') (h : allLines n os ++ r = allLines n os' ++ r') :
    os = os' ∧ r = r' := by
  induction os generalizing os' with
  | nil =>
    rcases os' with _ | ⟨o', os'⟩
    · exact ⟨rfl, h⟩
    · rw [allLines_nil, List.nil_append, allLines_cons, List.append_assoc] at h
      exact absurd (h ▸ hr) (not_closed_lines (hos' o' List.mem_cons_self) n _)
  | cons o os ihos =>
    obtain ⟨ho, htail⟩ := List.forall_mem_cons.1 hos
    obtain ⟨iho, iht⟩ := List.forall_mem_cons.1 ih
    rcases os' with _ | ⟨o', os'⟩
    · rw [allLines_nil, List.nil_append, allLines_cons, List.append_assoc] at h
      exact absurd (h.symm ▸ hr') (not_closed_lines ho n _)
    · obtain ⟨ho', htail'⟩ := List.forall_mem_cons.1 hos'
      rw [allLines_cons, allLines_cons, List.append_assoc, List.append_assoc] at h
      obtain ⟨hhead, hrest⟩ := iho o' ho' _ _ h
      obtain ⟨ht, hend⟩ := ihos htail htail' iht hrest
      rw [hhead, ht]
      exact ⟨rfl, hend⟩

/-- An outline is read off the front of a longer list of lines in one way only: an empty line, a
line and the first line of a block are told apart by their braces. -/
theorem lines_append_inj (ho : Sound o) (ho' : Sound o') (n : Nat) (r r' : List Text)
    (h : lines n o ++ r = lines n o' ++ r') : o = o' ∧ r = r' := by
  have hempty : ∀ {n k : Nat} {t : Text}, Fits k t → [] ≠ margin n ++ t := fun ht h =>
    ht.ne_nil (List.append_eq_nil_iff.1 h.symm).2
  have hlevel : ∀ {t t' : Text}, Fits 0 t → Fits 1 t' → t ≠ t' := by
    rintro t _ ht ht' rfl
    cases ht.level.symm.trans ht'.level
  -- By induction on the first outline; behind equal first lines of blocks the bodies are compared
  -- one level deeper, up to the braces that close them.
  induction ho generalizing o' n r r' with
  | blank =>
    rcases ho' with _ | ⟨ht'⟩ | ⟨hh', -⟩
    · exact ⟨rfl, (List.cons.inj h).2⟩
    · exact absurd (List.cons.inj h).1 (hempty ht')
    · exact absurd (List.cons.inj h).1 (hempty hh')
  | line ht =>
    rcases ho' with _ | ⟨ht'⟩ | ⟨hh', -⟩
    · exact absurd (List.cons.inj h).1.symm (hempty ht)
    · obtain ⟨hl, hr⟩ := List.cons.inj h
      rw [List.append_cancel_left hl]
      exact ⟨rfl, hr⟩
    · exact absurd (List.append_cancel_left (List.cons.inj h).1) (hlevel ht hh')
  | block hh hb ih =>
    rcases ho' with _ | ⟨ht'⟩ | ⟨hh', hb'⟩
    · exact absurd (List.cons.inj h).1.symm (hempty hh)
    · exact absurd (List.append_cancel_left (List.cons.inj h).1).symm (hlevel ht' hh)
    · obtain ⟨hl, hr⟩ := List.cons.inj h
      simp only [List.append_eq, List.append_assoc] at hr
      obtain ⟨hbody, hend⟩ := allLines_append_inj hb hb' (fun o ho o' ho' => ih o ho ho' (n + 1))
        (closed_close n r) (closed_close n r') hr
      rw [List.append_cancel_left hl, hbody]
      exact ⟨rfl, (List.cons.inj hend).2⟩

/-- Outlines with the same lines are the same. -/
theorem allLines_injective (hos : ∀ o ∈ os, Sound o) (hos' : ∀ o ∈ os', Sound o)
    (h : allLines n os = allLines n os') : os = os' := by
  have hnil : Closed [] := by
    intro l hl
    cases hl
  rw [← List.append_nil (allLines n os), ← List.append_nil (allLines n os')] at h
  exact (allLines_append_inj hos hos' (fun o ho o' ho' => lines_append_inj (hos o ho) ho' n)
    hnil hnil h).1

end Outline
end Scaffold
