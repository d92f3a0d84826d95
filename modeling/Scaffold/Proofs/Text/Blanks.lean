import Scaffold.Proofs.Text.Endings

/-! Blank lines of a text. What follows a line feed is a line here, even if it is empty, so the blank
lines of a text are put together from those of its parts: where two texts meet, the last line of the
one and the first of the other become one line (`blanks_append`). Which line ending is used does not
matter. -/

namespace Scaffold.Text

variable {s t : Text} {e : Ending} {ls : List Text} {as bs : List Bool} {a b : Bool}

/-- For each line of a text, whether it is blank. -/
def blanks (t : Text) : List Bool :=
  (splitOn '\n' t).map isBlank

theorem blanks_ne_nil (t : Text) : blanks t ≠ [] := by
  rw [blanks, Ne, List.map_eq_nil_iff]
  exact splitOn_ne_nil '\n' t

theorem exists_blanks_eq_concat (t : Text) : ∃ as a, blanks t = as ++ [a] :=
  (List.eq_nil_or_concat' (blanks t)).resolve_left (blanks_ne_nil t)

theorem blanks_of_not_mem (h : '\n' ∉ t) : blanks t = [isBlank t] := by
  rw [blanks, splitOn_of_not_mem h]
  rfl

theorem blanks_append_newline (s t : Text) : blanks (s ++ '\n' :: t) = blanks s ++ blanks t := by
  rw [blanks, splitOn_append_cons, List.map_append]
  rfl

/-- Where two texts meet, two lines become one. -/
theorem blanks_append (hs : blanks s = as ++ [a]) (ht : blanks t = b :: bs) :
    blanks (s ++ t) = as ++ (a && b) :: bs := by
  -- first for texts without line feeds at the front, whose only line is welded to the next
  have hfront : ∀ {u v : Text} {b bs}, '\n' ∉ u → blanks v = b :: bs →
      blanks (u ++ v) = (isBlank u && b) :: bs := by
    intro u v
    induction v using line_induction with
    | last v hv =>
      intro b bs hu hb
      rw [blanks_of_not_mem hv] at hb
      obtain ⟨rfl, rfl⟩ := List.cons.inj hb
      rw [blanks_of_not_mem (by simp [hu, hv]), isBlank_append]
    | line l v hl _ =>
      intro b bs hu hb
      rw [blanks_append_newline, blanks_of_not_mem hl] at hb
      obtain ⟨rfl, rfl⟩ := List.cons.inj hb
      rw [← List.append_assoc, blanks_append_newline, blanks_of_not_mem (by simp [hu, hl]),
        isBlank_append]
      rfl
  induction s using line_induction generalizing as with
  | last s hn =>
    rw [blanks_of_not_mem hn] at hs
    obtain ⟨rfl, ha⟩ := List.append_inj' (hs.symm.trans (List.nil_append [isBlank s]).symm) rfl
    obtain rfl : a = isBlank s := by simpa using ha
    exact hfront hn ht
  | line l s hl ih =>
    rw [blanks_append_newline, blanks_of_not_mem hl] at hs
    rcases as with _ | ⟨c, as⟩
    · exact absurd (List.cons.inj hs).2 (blanks_ne_nil s)
    · obtain ⟨rfl, hrest⟩ : isBlank l = c ∧ blanks s = as ++ [a] := List.cons.inj hs
      rw [List.append_assoc, List.cons_append, blanks_append_newline, blanks_of_not_mem hl,
        ih hrest]
      rfl

/-- Blanks at the end of a text do not matter. -/
theorem blanks_append_blank (hn : '\n' ∉ t) (ht : isBlank t = true) (s : Text) :
    blanks (s ++ t) = blanks s := by
  obtain ⟨as, a, hs⟩ := exists_blanks_eq_concat s
  rw [blanks_append hs (blanks_of_not_mem hn), hs, ht, Bool.and_true]

/-- Blanks in front of a text do not matter. -/
theorem blanks_blank_append (hn : '\n' ∉ s) (hs : isBlank s = true) (t : Text) :
    blanks (s ++ t) = blanks t := by
  obtain ⟨b, bs, ht⟩ := List.exists_cons_of_ne_nil (blanks_ne_nil t)
  have hb : blanks s = [] ++ [true] := by rw [blanks_of_not_mem hn, hs]; rfl
  rw [blanks_append hb ht, ht, Bool.true_and, List.nil_append]

/-- A text is blank if all its lines are. -/
theorem isBlank_eq_all (t : Text) : isBlank t = (blanks t).all id := by
  induction t using line_induction with
  | last s hn => simp [blanks_of_not_mem hn]
  | line s t hn ih =>
    have hcons : isBlank ('\n' :: t) = isBlank t := rfl
    rw [blanks_append_newline, blanks_of_not_mem hn, isBlank_append, hcons, ih]
    simp

theorem isBlank_join (h : isBlank t = false) (sep : Text) (ts : List Text) :
    isBlank (join sep (t :: ts)) = false := by
  rcases ts with _ | ⟨t', ts⟩
  · simpa [join] using h
  · rw [join_cons_cons, isBlank_append, isBlank_append, h]
    rfl

/-! ### Endings -/

theorem blanks_append_ending (s t : Text) (e : Ending) :
    blanks (s ++ e.text ++ t) = blanks s ++ blanks t := by
  cases e with
  | lf => simpa [Ending.text] using blanks_append_newline s t
  | crlf =>
    have hr : blanks (s ++ ['\r']) = blanks s := blanks_append_blank (by decide) (by decide) s
    simpa [Ending.text, hr] using blanks_append_newline (s ++ ['\r']) t

theorem withEnding_append (e : Ending) (s t : Text) :
    withEnding e (s ++ t) = withEnding e s ++ withEnding e t :=
  List.flatMap_append

theorem withEnding_of_not_mem (e : Ending) (h : '\n' ∉ t) : withEnding e t = t := by
  have hchar : ∀ c ∈ t, (if c = '\n' then e.text else [c]) = [c] := by
    intro c hc
    rw [if_neg]
    rintro rfl
    exact h hc
  rw [withEnding, List.flatMap_congr hchar, List.flatMap_singleton']

theorem blanks_withEnding (e : Ending) (t : Text) : blanks (withEnding e t) = blanks t := by
  induction t using line_induction with
  | last s hn => rw [withEnding_of_not_mem e hn]
  | line s t hn ih =>
    have hcons : withEnding e ('\n' :: t) = e.text ++ withEnding e t := rfl
    rw [withEnding_append, withEnding_of_not_mem e hn, hcons, ← List.append_assoc,
      blanks_append_ending, blanks_append_newline, ih]

/-- The lines of a text are all its lines, but for an empty one at the end. -/
theorem blanks_eq_lines (t : Text) : blanks t =
    (lines t).map isBlank ++ if t = [] ∨ t.endsWithNewline = true then [true] else [] := by
  have hchomp : ∀ s, isBlank (chomp (s ++ ['\n'])) = isBlank s := by
    intro s
    rcases chomp_cases s with h | h
    · rw [h]
    · have hr : isBlank ['\r'] = true := rfl
      rw [congrArg isBlank h, isBlank_append, hr, Bool.and_true]
  induction t using line_induction with
  | last s hn =>
    rw [blanks_of_not_mem hn, lines_of_not_mem hn, endsWithNewline_of_not_mem hn]
    by_cases he : s = []
    · subst he
      rfl
    · simp [he]
  | line s t hn ih =>
    have hend : (s ++ '\n' :: t = [] ∨ endsWithNewline (s ++ '\n' :: t) = true) ↔
        (t = [] ∨ t.endsWithNewline = true) := by
      rw [endsWithNewline_append s (List.cons_ne_nil _ _)]
      cases t <;> simp [endsWithNewline]
    rw [blanks_append_newline, blanks_of_not_mem hn, lines_append_newline hn, List.map_cons,
      hchomp s, ih, if_congr hend rfl rfl]
    rfl

theorem blanks_ofLines (e : Ending) (closed : Bool) (h : ls ≠ []) :
    blanks (ofLines e closed ls) = ls.flatMap blanks ++ if closed then [true] else [] := by
  induction ls with
  | nil => exact absurd rfl h
  | cons l ls ih =>
    rcases ls with _ | ⟨l', ls⟩
    · cases closed with
      | false => simp [ofLines, join]
      | true =>
        have hl : blanks (l ++ e.text ++ []) = blanks l ++ [true] := blanks_append_ending l [] e
        simpa [ofLines, join] using hl
    · rw [ofLines_cons _ _ _ (List.cons_ne_nil _ _), blanks_append_ending,
        ih (List.cons_ne_nil _ _), ← List.append_assoc, ← List.flatMap_cons]

theorem endsWithNewline_ofLines (e : Ending) (ls : List Text) :
    endsWithNewline (ofLines e true ls) = true := by
  have he : e.text.getLast? = some '\n' := by cases e <;> rfl
  simp [endsWithNewline, ofLines, List.getLast?_append, he]

/-- Lines that are written are read again, as far as blank lines go, if the last one is not blank.
Each of them may have been more than one line. -/
theorem map_isBlank_lines_ofLines (h : (ls.flatMap blanks).getLast? = some false) (e : Ending)
    (closed : Bool) : (lines (ofLines e closed ls)).map isBlank = ls.flatMap blanks := by
  have hls : ls ≠ [] := by
    rintro rfl
    cases h
  have hall := (blanks_eq_lines (ofLines e closed ls)).symm.trans (blanks_ofLines e closed hls)
  cases closed with
  | true =>
    rw [if_pos (.inr (endsWithNewline_ofLines e ls)), if_pos rfl] at hall
    exact List.append_cancel_right hall
  | false =>
    rw [if_neg Bool.false_ne_true, List.append_nil] at hall
    split at hall
    · rw [← hall, List.getLast?_concat] at h
      cases h
    · rwa [List.append_nil] at hall

/-! ### Rows of lines -/

/-- No two blank lines adjoin. -/
def SingleBlanks (ls : List Text) : Prop :=
  ls.IsChain fun l l' => isBlank l = false ∨ isBlank l' = false

/-- The same for marks of blank lines. -/
def Apart (bs : List Bool) : Prop :=
  bs.IsChain fun b b' => b = false ∨ b' = false

instance (ls : List Text) : Decidable (SingleBlanks ls) :=
  inferInstanceAs (Decidable (List.IsChain _ ls))

theorem singleBlanks_iff : SingleBlanks ls ↔ Apart (ls.map isBlank) := by
  rw [Apart, List.isChain_map]
  rfl

/-- The last line is there, and not blank. -/
def EndsShown (ls : List Text) : Prop :=
  ls.getLast?.any (!isBlank ·) = true

instance (ls : List Text) : Decidable (EndsShown ls) :=
  inferInstanceAs (Decidable (_ = true))

theorem endsShown_iff : EndsShown ls ↔ (ls.map isBlank).getLast? = some false := by
  rw [EndsShown, List.getLast?_map]
  cases ls.getLast? <;> simp

/-- Marks of lines of which the first and the last are not blank, and no two blank ones adjoin. -/
structure Framed (bs : List Bool) : Prop where
  head : bs.head? = some false
  last : bs.getLast? = some false
  apart : Apart bs

/-- A text that can be put within a line: it is nothing but blanks on one line, or its first and
its last line are not blank. -/
def IsInset (t : Text) : Prop :=
  blanks t = [true] ∨ Framed (blanks t)

theorem framed_singleton : Framed [false] :=
  ⟨rfl, rfl, .singleton _⟩

theorem isBlank_of_getLast? (h : (blanks t).getLast? = some false) : isBlank t = false := by
  rw [isBlank_eq_all, List.all_eq_false]
  exact ⟨false, List.mem_of_getLast? h, Bool.false_ne_true⟩

theorem Framed.isBlank (h : Framed (blanks t)) : Text.isBlank t = false :=
  isBlank_of_getLast? h.last

theorem framed_of_forall (hne : bs ≠ []) (h : ∀ b ∈ bs, b = false) : Framed bs := by
  obtain ⟨b, bs, rfl⟩ := List.exists_cons_of_ne_nil hne
  refine ⟨congrArg some (h b List.mem_cons_self), ?_, ?_⟩
  · rw [List.getLast?_eq_some_getLast (List.cons_ne_nil b bs)]
    exact congrArg some (h _ (List.getLast_mem _))
  · refine List.isChain_iff_forall_rel_of_append_cons_cons.2 fun a a' as as' has => .inl ?_
    exact h a (by rw [has]; simp)

theorem Framed.weld (hs : Framed (as ++ [a])) (ht : Framed (b :: bs)) :
    Framed (as ++ (a && b) :: bs) := by
  obtain rfl : a = false := by simpa using hs.last
  obtain rfl : b = false := by simpa using ht.head
  refine ⟨?_, ?_, List.isChain_split.2 ⟨hs.apart, ht.apart⟩⟩
  · have hhead := hs.head
    cases as with
    | nil => rfl
    | cons c as => exact hhead
  · have hlast := ht.last
    rw [List.getLast?_append_of_ne_nil _ (List.cons_ne_nil _ _)]
    exact hlast

theorem isInset_of_not_mem (h : '\n' ∉ t) : IsInset t := by
  rw [IsInset, blanks_of_not_mem h]
  cases isBlank t with
  | true => exact .inl rfl
  | false => exact .inr framed_singleton

theorem IsInset.append (hs : IsInset s) (ht : IsInset t) : IsInset (s ++ t) := by
  obtain ⟨as, a, has⟩ := exists_blanks_eq_concat s
  obtain ⟨b, bs, hbs⟩ := List.exists_cons_of_ne_nil (blanks_ne_nil t)
  unfold IsInset at hs ht ⊢
  rw [blanks_append has hbs]
  rw [has] at hs
  rw [hbs] at ht
  rcases hs with hs | hs
  · obtain ⟨rfl, ha⟩ := List.append_inj' (hs.trans (List.nil_append [true]).symm) rfl
    obtain rfl : a = true := by simpa using ha
    simpa using ht
  · rcases ht with ht | ht
    · obtain ⟨rfl, rfl⟩ := List.cons.inj ht
      rw [Bool.and_true]
      exact .inr hs
    · exact .inr (hs.weld ht)

theorem IsInset.framed (h : IsInset t) (hb : isBlank t = false) : Framed (blanks t) := by
  refine h.resolve_left fun hs => ?_
  rw [isBlank_eq_all, hs] at hb
  cases hb

theorem Framed.append (hs : Framed as) (ht : Framed bs) : Framed (as ++ bs) := by
  refine ⟨?_, ?_, List.isChain_append.2 ⟨hs.apart, ht.apart, fun a ha _ _ => .inl ?_⟩⟩
  · rw [List.head?_append, hs.head, Option.some_or]
  · rw [List.getLast?_append, ht.last, Option.some_or]
  · rw [hs.last] at ha
    exact (Option.some.inj ha).symm

theorem Framed.append_blank (hs : Framed as) (ht : Framed bs) : Framed (as ++ true :: bs) := by
  have hnext : Apart (true :: bs) :=
    List.isChain_cons.2 ⟨fun b hb => .inr (by
      rw [ht.head] at hb
      exact (Option.some.inj hb).symm), ht.apart⟩
  refine ⟨?_, ?_, List.isChain_append.2 ⟨hs.apart, hnext, fun a ha _ _ => .inl ?_⟩⟩
  · rw [List.head?_append, hs.head, Option.some_or]
  · rw [List.getLast?_append, List.getLast?_cons, ht.last, Option.getD_some, Option.some_or]
  · rw [hs.last] at ha
    exact (Option.some.inj ha).symm

/-- A separator that keeps the texts on both sides of it apart keeps any number of texts apart. -/
theorem framed_join {sep : Text} {ts : List Text}
    (hsep : ∀ s t, Framed (blanks s) → Framed (blanks t) → Framed (blanks (s ++ sep ++ t)))
    (h : ∀ t ∈ ts, Framed (blanks t)) (hne : ts ≠ []) : Framed (blanks (join sep ts)) := by
  induction ts with
  | nil => exact absurd rfl hne
  | cons t ts ih =>
    obtain ⟨ht, hts⟩ := List.forall_mem_cons.1 h
    rcases ts with _ | ⟨t', ts⟩
    · simpa [join] using ht
    · rw [join_cons_cons]
      exact hsep _ _ ht (ih hts (List.cons_ne_nil _ _))

/-! ### Single lines -/

/-- One line that is not blank. -/
structure IsRow (t : Text) : Prop where
  oneLine : '\n' ∉ t
  shown : isBlank t = false

instance (t : Text) : Decidable t.IsRow :=
  decidable_of_iff ('\n' ∉ t ∧ isBlank t = false) ⟨fun h => ⟨h.1, h.2⟩, fun h => ⟨h.1, h.2⟩⟩

theorem IsRow.append (hs : IsRow s) (ht : '\n' ∉ t) : IsRow (s ++ t) where
  oneLine hm := (List.mem_append.1 hm).elim hs.oneLine ht
  shown := by rw [isBlank_append, hs.shown, Bool.false_and]

theorem IsRow.prepend (ht : IsRow t) (hs : '\n' ∉ s) : IsRow (s ++ t) where
  oneLine hm := (List.mem_append.1 hm).elim hs ht.oneLine
  shown := by rw [isBlank_append, ht.shown, Bool.and_false]

theorem IsRow.blanks_eq (h : IsRow t) : blanks t = [false] := by
  rw [blanks_of_not_mem h.oneLine, h.shown]

theorem blanks_unlines (h : ∀ l ∈ ls, IsRow l) :
    blanks (unlines ls) = List.replicate ls.length false ++ [true] := by
  induction ls with
  | nil => rfl
  | cons l ls ih =>
    obtain ⟨hl, hls⟩ := List.forall_mem_cons.1 h
    rw [unlines_cons, blanks_append_newline, hl.blanks_eq, ih hls]
    rfl

/-! ### The end of a text -/

/-- A text whose last line is not blank, with its line feed and no other line below it. -/
structure IsFinished (t : Text) : Prop where
  closed : endsWithNewline t = true
  shown : EndsShown (lines t)

instance (t : Text) : Decidable t.IsFinished :=
  decidable_of_iff (endsWithNewline t = true ∧ EndsShown (lines t))
    ⟨fun h => ⟨h.1, h.2⟩, fun h => ⟨h.1, h.2⟩⟩

theorem isFinished_unlines (h : ls.getLast? = some t) (ht : IsRow t) : IsFinished (unlines ls) := by
  have hne : ls ≠ [] := by
    rintro rfl
    cases h
  obtain ⟨above, rfl⟩ := List.getLast?_eq_some_iff.1 h
  have hlast : ((above ++ [t]).flatMap blanks).getLast? = some false := by
    rw [List.flatMap_append, List.flatMap_singleton, ht.blanks_eq, List.getLast?_concat]
  refine ⟨endsWithNewline_unlines hne, ?_⟩
  rw [endsShown_iff, ← ofLines_eq_unlines hne, map_isBlank_lines_ofLines hlast, hlast]

/-- What stands above a finished text does not matter. -/
theorem IsFinished.append_newline (h : IsFinished t) (s : Text) : IsFinished (s ++ '\n' :: t) := by
  have hclosed : endsWithNewline (s ++ '\n' :: t) = true := by
    have hne : t ≠ [] := by
      rintro rfl
      cases h.closed
    rw [← List.singleton_append, ← List.append_assoc, endsWithNewline_append _ hne, h.closed]
  refine ⟨hclosed, ?_⟩
  have hall := blanks_eq_lines (s ++ '\n' :: t)
  rw [blanks_append_newline, blanks_eq_lines t, if_pos (.inr h.closed), if_pos (.inr hclosed),
    ← List.append_assoc] at hall
  have hshown := endsShown_iff.1 h.shown
  rw [endsShown_iff, ← List.append_cancel_right hall, List.getLast?_append, hshown, Option.some_or]

end Scaffold.Text
