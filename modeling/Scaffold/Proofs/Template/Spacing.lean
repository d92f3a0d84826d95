import Scaffold.Proofs.Template.Forward
import Scaffold.Proofs.Template.Marks
import Scaffold.Proofs.Text.Blanks

/-! Blank lines in a rendered template. Rendering takes finished lines back when it leaves a line
out; seen from the source, a blank line stays exactly if the lines below it do not clear it
(`renderLines_eq`). So blank lines adjoin in the result only where a text that begins with a blank
line is put below one (`Accepts.singleBlanks_render_iff`), and empty slots alone never make two
blank lines adjoin. Main statement: `render_singleBlanks`. -/

namespace Scaffold.Template

variable {fs : Fillings} {e : Ending} {line l : Text} {above ls : List Text} {p : Placeholder}

/-! ### Lines that stay -/

/-- Whether slots with nothing to insert come first, and then a blank line or the end. -/
def clearsAbove (fs : Fillings) : List Text → Bool
  | [] => false
  | l :: ls => isEmptySlot fs l && (blankOrEnd ls.head? || clearsAbove fs ls)

/-- The lines for a source: all lines that hold something, and the blank ones that are not
cleared. -/
def keptLines (fs : Fillings) (e : Ending) : List Text → List Text
  | [] => []
  | l :: ls =>
    (if isEmptySlot fs l || (Text.isBlank (substitute fs e l) && clearsAbove fs ls) then []
    else [substitute fs e l]) ++ keptLines fs e ls

theorem isEmptySlot_of_isBlank (h : Text.isBlank l = true) : isEmptySlot fs l = false := by
  apply isEmptySlot_of_none
  rw [slot?, Text.trim_eq_nil_of_isBlank h]
  decide

theorem clearsAbove_of_blankOrEnd (h : blankOrEnd ls.head? = true) : clearsAbove fs ls = false := by
  cases ls with
  | nil => rfl
  | cons l ls => rw [clearsAbove, isEmptySlot_of_isBlank h, Bool.false_and]

/-- Of the finished lines only the last one can be taken back, if it is blank and is cleared. -/
theorem renderLines_eq (above ls : List Text) : renderLines fs e above ls =
    (if blankAbove above.head? && clearsAbove fs ls then above.tail else above).reverse ++
      keptLines fs e ls := by
  induction ls generalizing above with
  | nil => simp [renderLines, clearsAbove, keptLines]
  | cons l ls ih =>
    rw [renderLines, ih, ih, clearsAbove, keptLines]
    cases isEmptySlot fs l with
    | true =>
      cases hb : blankOrEnd ls.head? with
      | true => simp [clearsAbove_of_blankOrEnd hb]
      | false => simp
    | false =>
      cases hc : blankAbove (substitute fs e l :: above).head? && clearsAbove fs ls with
      | true =>
        rw [List.head?_cons, blankAbove] at hc
        simp [hc]
      | false =>
        rw [List.head?_cons, blankAbove] at hc
        simp [hc]

theorem render_eq_ofLines (t : Template) (fs : Fillings) :
    t.render fs = Text.ofLines t.source.ending t.source.endsWithNewline
      (keptLines fs t.source.ending (Text.lines t.source)) := by
  rw [render, renderLines_eq]
  rfl

/-- The lines above a line that is not left out do not look past it. -/
theorem clearsAbove_append_cons (h : isEmptySlot fs l = false) (above below : List Text) :
    clearsAbove fs (above ++ l :: below) = clearsAbove fs (above ++ [l]) := by
  induction above with
  | nil => rw [List.nil_append, List.nil_append, clearsAbove, clearsAbove, h]; rfl
  | cons a above ih =>
    have hhead : (above ++ l :: below).head? = (above ++ [l]).head? := by cases above <;> rfl
    rw [List.cons_append, List.cons_append, clearsAbove, clearsAbove, ih, hhead]

/-- A line that shows something is kept. -/
theorem mem_keptLines (hl : l ∈ ls) (h : isEmptySlot fs l = false)
    (hs : Text.isBlank (substitute fs e l) = false) : substitute fs e l ∈ keptLines fs e ls := by
  induction ls with
  | nil => cases hl
  | cons a ls ih =>
    rw [keptLines, List.mem_append]
    rcases List.mem_cons.1 hl with rfl | hl
    · left
      simp [h, hs]
    · exact .inr (ih hl)

/-- Below a line that shows something, lines are kept on their own. -/
theorem keptLines_append_cons (h : isEmptySlot fs l = false)
    (hs : Text.isBlank (substitute fs e l) = false) (above below : List Text) :
    keptLines fs e (above ++ l :: below) =
      keptLines fs e (above ++ [l]) ++ keptLines fs e below := by
  induction above with
  | nil => simp [keptLines, h, hs]
  | cons a above ih =>
    rw [List.cons_append, List.cons_append, keptLines, keptLines, ih,
      clearsAbove_append_cons h above below, List.append_assoc]

/-! ### Blank lines that stay -/

/-- What a line of a source becomes has no two blank lines next to each other, and no blank line at
the end. -/
structure Settles (fs : Fillings) (e : Ending) (l : Text) : Prop where
  last : (Text.blanks (substitute fs e l)).getLast? = some false
  apart : Text.Apart (Text.blanks (substitute fs e l))

/-- All lines of a source that are not blank settle, but for those that are left out. -/
def Settled (fs : Fillings) (e : Ending) (ls : List Text) : Prop :=
  ∀ l ∈ ls, Text.isBlank l = false → isEmptySlot fs l = false → Settles fs e l

/-- The first of some lines that is not left out begins with a blank line, though it is not blank in
the source. -/
inductive Opens (fs : Fillings) (e : Ending) : List Text → Prop
  | here {l : Text} {ls : List Text} (he : isEmptySlot fs l = false)
      (hb : Text.isBlank l = false)
      (hl : (Text.blanks (substitute fs e l)).head? = some true) : Opens fs e (l :: ls)
  | skip {l : Text} {ls : List Text} (he : isEmptySlot fs l = true) (h : Opens fs e ls) :
      Opens fs e (l :: ls)

/-- A line that begins with a blank line comes below a blank line. -/
def Doubles (fs : Fillings) (e : Ending) (ls : List Text) : Prop :=
  ∃ above b below, ls = above ++ b :: below ∧ Text.isBlank b = true ∧ Opens fs e below

theorem doubles_cons : Doubles fs e (l :: ls) ↔
    (Text.isBlank l = true ∧ Opens fs e ls) ∨ Doubles fs e ls := by
  constructor
  · rintro ⟨_ | ⟨a, above⟩, b, below, h, hb, ho⟩
    · obtain ⟨rfl, rfl⟩ := List.cons.inj h
      exact .inl ⟨hb, ho⟩
    · obtain ⟨rfl, rfl⟩ := List.cons.inj h
      exact .inr ⟨above, b, below, rfl, hb, ho⟩
  · rintro (⟨hb, ho⟩ | ⟨above, b, below, rfl, hb, ho⟩)
    · exact ⟨[], l, ls, rfl, hb, ho⟩
    · exact ⟨l :: above, b, below, rfl, hb, ho⟩

theorem isBlank_of_isEmptySlot (h : isEmptySlot fs l = true) : Text.isBlank l = false := by
  rw [← Bool.not_eq_true]
  intro hb
  rw [isEmptySlot_of_isBlank hb] at h
  cases h

theorem Opens.head (h : Opens fs e ls) : blankOrEnd ls.head? = false := by
  cases h with
  | here _ hb _ => exact hb
  | skip he _ => exact isBlank_of_isEmptySlot he

theorem Opens.not_clears (h : Opens fs e ls) : clearsAbove fs ls = false := by
  induction h with
  | here he => rw [clearsAbove, he, Bool.false_and]
  | skip _ h ih => rw [clearsAbove, h.head, ih, Bool.or_false, Bool.and_false]

theorem keptLines_gone (h : isEmptySlot fs l = true) (ls : List Text) :
    keptLines fs e (l :: ls) = keptLines fs e ls := by
  rw [keptLines, h, Bool.true_or, if_pos rfl, List.nil_append]

theorem keptLines_shown (h : isEmptySlot fs l = false) (hs : Settles fs e l) (ls : List Text) :
    keptLines fs e (l :: ls) = substitute fs e l :: keptLines fs e ls := by
  rw [keptLines, h, Text.isBlank_of_getLast? hs.last, Bool.false_or, Bool.false_and,
    if_neg Bool.false_ne_true]
  rfl

/-! ### Marks in blank lines, and alone on a line -/

/-- Blanks hold no mark, and no mark begins in them. -/
theorem parts_append_of_isBlank {s : Text} (h : Text.isBlank s = true) (t : Text) :
    parts (s ++ t) = s.map .char ++ parts t := by
  induction s with
  | nil => rfl
  | cons c s ih =>
    obtain ⟨hc, hs⟩ := Bool.and_eq_true_iff.1 h
    rw [List.cons_append, parts_cons, ih hs, List.map_cons]
    · rfl
    · intro p hp
      obtain ⟨s, hs⟩ := p.stem_prefix_token.trans hp
      obtain rfl : 'V' = c := (List.cons.inj hs).1
      cases hc

theorem parts_of_isBlank {s : Text} (h : Text.isBlank s = true) : parts s = s.map .char := by
  have hs := parts_append_of_isBlank h []
  have hnil : parts [] = [] := rfl
  rwa [List.append_nil, hnil, List.append_nil] at hs

theorem substitute_of_isBlank (h : Text.isBlank l = true) : substitute fs e l = l := by
  rw [substitute, parts_of_isBlank h, flatMap_chars fun _ => rfl]

/-- A line with one mark only has the mark between blanks. -/
theorem exists_eq_of_slot (h : slot? l = some p) :
    ∃ front back, l = front ++ p.token ++ back ∧ Text.isBlank front = true ∧
      Text.isBlank back = true := by
  obtain ⟨front, back, hl, hf, hb⟩ := Text.exists_eq_append_trim l
  rw [slot?, Placeholder.ofToken?] at h
  have ht := List.find?_some h
  rw [← of_decide_eq_true ht] at hl
  exact ⟨front, back, hl, hf, hb⟩

theorem infix_of_slot (h : slot? l = some p) : p.token <:+: l := by
  obtain ⟨front, back, hl, -, -⟩ := exists_eq_of_slot h
  exact ⟨front, back, hl.symm⟩

theorem slot_token (p : Placeholder) : slot? p.token = some p := by
  have alone : ∀ p ∈ Placeholder.all, slot? p.token = some p := by decide +kernel
  exact alone p (Placeholder.mem_all p)

/-- A line with one mark only has the blank lines of the text for it. -/
theorem blanks_substitute_slot (hn : '\n' ∉ l) (h : slot? l = some p) :
    Text.blanks (substitute fs e l) = Text.blanks (fs.text p) := by
  obtain ⟨front, back, rfl, hf, hb⟩ := exists_eq_of_slot h
  have hparts : parts (front ++ p.token ++ back) =
      front.map .char ++ (.slot p :: back.map .char) := by
    rw [List.append_assoc, parts_append_of_isBlank hf, parts_token_append, parts_of_isBlank hb]
  have hnf : '\n' ∉ front := fun hm => hn (by simp [hm])
  have hnb : '\n' ∉ back := fun hm => hn (by simp [hm])
  rw [substitute, hparts, List.flatMap_append, List.flatMap_cons, flatMap_chars fun _ => rfl,
    flatMap_chars fun _ => rfl, Text.blanks_blank_append hnf hf, Part.text,
    Text.blanks_append_blank hnb hb, Text.blanks_withEnding]

/-! ### Tidy lines -/

/-- A line without marks, with one mark between blanks, or with something to show besides its
marks. -/
def isTidy (line : Text) : Bool :=
  (slot? line).isSome || (parts line).any Part.isInk || (parts line).all (·.place?.isNone)

theorem tidy_cases (ht : isTidy l = true) (hb : Text.isBlank l = false) :
    (∃ p, slot? l = some p) ∨ slot? l = none ∧ ∃ part ∈ parts l, part.isInk = true := by
  cases hs : slot? l with
  | some p => exact .inl ⟨p, rfl⟩
  | none =>
    refine .inr ⟨rfl, ?_⟩
    rw [isTidy, hs, Option.isSome_none, Bool.false_or, Bool.or_eq_true] at ht
    rcases ht with hink | hnone
    · exact List.any_eq_true.1 hink
    · -- a line without marks shows something if it is not blank
      obtain ⟨c, hc, hshown⟩ := List.all_eq_false.1 hb
      rw [← sourceOf_parts l] at hc
      obtain ⟨part, hpart, hc⟩ := List.mem_flatMap.1 hc
      refine ⟨part, hpart, ?_⟩
      have hplace := List.all_eq_true.1 hnone part hpart
      cases part with
      | slot p => cases hplace
      | char d =>
        obtain rfl : c = d := List.mem_singleton.1 hc
        simpa [Part.isInk] using hshown

/-- The texts for the marks of a line can be put in: in a line of its own a text must have no two
blank lines next to each other and no blank line at the end, within a line none at the start
either. -/
structure Takes (fs : Fillings) (l : Text) : Prop where
  alone : ∀ p, slot? l = some p → fs.text p = [] ∨
    (Text.blanks (fs.text p)).getLast? = some false ∧ Text.Apart (Text.blanks (fs.text p))
  within : slot? l = none → ∀ p, Part.slot p ∈ parts l → Text.IsInset (fs.text p)

theorem isInset_flatMap {ps : List Part} (h : ∀ part ∈ ps, Text.IsInset (part.text fs e)) :
    Text.IsInset (ps.flatMap (Part.text fs e)) := by
  induction ps with
  | nil => exact Text.isInset_of_not_mem List.not_mem_nil
  | cons part ps ih =>
    obtain ⟨hp, hps⟩ := List.forall_mem_cons.1 h
    exact hp.append (ih hps)

/-- A line that shows something besides its marks begins and ends with lines that are not blank,
whatever is put within it. -/
theorem Takes.framed (h : Takes fs l) (e : Ending) (hn : '\n' ∉ l) (hs : slot? l = none)
    (hink : ∃ part ∈ parts l, part.isInk = true) :
    Text.Framed (Text.blanks (substitute fs e l)) := by
  have hinset : ∀ part ∈ parts l, Text.IsInset (part.text fs e) := by
    intro part hpart
    cases part with
    | slot p =>
      have hp := h.within hs p hpart
      unfold Text.IsInset at hp ⊢
      rwa [Part.text, Text.blanks_withEnding]
    | char c =>
      refine Text.isInset_of_not_mem fun hc => hn ?_
      rw [← sourceOf_parts l]
      exact List.mem_flatMap.2 ⟨_, hpart, hc⟩
  obtain ⟨part, hpart, hpi⟩ := hink
  refine (isInset_flatMap hinset).framed ?_
  cases part with
  | slot p => cases hpi
  | char c =>
    refine List.all_eq_false.2 ⟨c, List.mem_flatMap.2 ⟨_, hpart, List.mem_singleton_self c⟩, ?_⟩
    simpa [Part.isInk] using hpi

theorem Takes.settles (h : Takes fs l) (hn : '\n' ∉ l) (ht : isTidy l = true)
    (hb : Text.isBlank l = false) (he : isEmptySlot fs l = false) : Settles fs e l := by
  rcases tidy_cases ht hb with ⟨p, hp⟩ | ⟨hs, hink⟩
  · rw [isEmptySlot_eq fs hp, List.isEmpty_eq_false_iff] at he
    have htext := (h.alone p hp).resolve_left he
    rw [← blanks_substitute_slot hn hp] at htext
    exact ⟨htext.1, htext.2⟩
  · have hframed := h.framed e hn hs hink
    exact ⟨hframed.last, hframed.apart⟩

/-! ### Blank lines of the result -/

/-- The blank lines among the lines that stay. -/
def keptBlanks (fs : Fillings) (e : Ending) (ls : List Text) : List Bool :=
  (keptLines fs e ls).flatMap Text.blanks

theorem keptBlanks_gone (h : isEmptySlot fs l = true) (ls : List Text) :
    keptBlanks fs e (l :: ls) = keptBlanks fs e ls := by
  rw [keptBlanks, keptLines_gone h, ← keptBlanks]

theorem keptBlanks_shown (h : isEmptySlot fs l = false) (hs : Settles fs e l) (ls : List Text) :
    keptBlanks fs e (l :: ls) = Text.blanks (substitute fs e l) ++ keptBlanks fs e ls := by
  rw [keptBlanks, keptLines_shown h hs, List.flatMap_cons, ← keptBlanks]

theorem keptBlanks_blank (h : Text.isBlank l = true) (hn : '\n' ∉ l) (ls : List Text) :
    keptBlanks fs e (l :: ls) =
      (if clearsAbove fs ls then [] else [true]) ++ keptBlanks fs e ls := by
  rw [keptBlanks, keptLines, isEmptySlot_of_isBlank h, substitute_of_isBlank h, h, Bool.false_or,
    Bool.true_and, List.flatMap_append, ← keptBlanks]
  cases clearsAbove fs ls with
  | true => rfl
  | false => simp [Text.blanks_of_not_mem hn, h]

/-- What is kept below a blank line that stays begins with a blank line only if a text does. -/
theorem head_keptBlanks (hset : Settled fs e ls) (hh : ∀ l ∈ ls.head?, Text.isBlank l = false)
    (hc : clearsAbove fs ls = false) :
    (keptBlanks fs e ls).head? = some true ↔ Opens fs e ls := by
  induction ls with
  | nil =>
    refine ⟨fun h => ?_, fun h => ?_⟩
    · cases h
    · cases h
  | cons l ls ih =>
    obtain ⟨hl, hls⟩ := List.forall_mem_cons.1 hset
    have hb : Text.isBlank l = false := hh l rfl
    cases he : isEmptySlot fs l with
    | true =>
      rw [clearsAbove, he, Bool.true_and, Bool.or_eq_false_iff] at hc
      have hnext : ∀ l ∈ ls.head?, Text.isBlank l = false := by
        intro l' hl'
        have hhead := hc.1
        rwa [hl'] at hhead
      rw [keptBlanks_gone he, ih hls hnext hc.2]
      refine ⟨.skip he, fun h => ?_⟩
      cases h with
      | here he' => rw [he] at he'; cases he'
      | skip _ h => exact h
    | false =>
      rw [keptBlanks_shown he (hl hb he), List.head?_append_of_ne_nil _ (Text.blanks_ne_nil _)]
      refine ⟨.here he hb, fun h => ?_⟩
      cases h with
      | here _ _ h => exact h
      | skip he' => rw [he] at he'; cases he'

/-- Blank lines adjoin in the result only where a text begins with one, below a blank line. -/
theorem apart_keptBlanks_iff (hn : ∀ l ∈ ls, '\n' ∉ l) (hset : Settled fs e ls)
    (hsp : Text.SingleBlanks ls) : Text.Apart (keptBlanks fs e ls) ↔ ¬Doubles fs e ls := by
  induction ls with
  | nil =>
    refine ⟨?_, fun _ => .nil⟩
    rintro - ⟨above, b, below, h, -⟩
    simp at h
  | cons l ls ih =>
    obtain ⟨hnl, hnls⟩ := List.forall_mem_cons.1 hn
    obtain ⟨hl, hls⟩ := List.forall_mem_cons.1 hset
    obtain ⟨hnext, hsp'⟩ := List.isChain_cons.1 hsp
    have ih := ih hnls hls hsp'
    rw [doubles_cons]
    cases hb : Text.isBlank l with
    | true =>
      have hhead : ∀ l' ∈ ls.head?, Text.isBlank l' = false := fun l' hl' =>
        (hnext l' hl').resolve_left (by simp [hb])
      rw [keptBlanks_blank hb hnl]
      cases hc : clearsAbove fs ls with
      | true =>
        have ho : ¬Opens fs e ls := fun h => by
          rw [h.not_clears] at hc
          cases hc
        simpa [ho] using ih
      | false =>
        rw [if_neg Bool.false_ne_true, List.singleton_append, Text.Apart, List.isChain_cons,
          ← Text.Apart, ih, ← head_keptBlanks hls hhead hc]
        cases (keptBlanks fs e ls).head? <;> simp
    | false =>
      cases he : isEmptySlot fs l with
      | true => simpa [keptBlanks_gone he] using ih
      | false =>
        have hs := hl hb he
        rw [keptBlanks_shown he hs, Text.Apart, List.isChain_append, ← Text.Apart, ← Text.Apart,
          ih]
        simp [hs.apart, hs.last]

/-- Lines of which none is kept clear the blank line above them. -/
theorem clearsAbove_of_keptLines_eq_nil (hset : Settled fs e ls) (hk : keptLines fs e ls = [])
    (hne : ls ≠ []) (hh : ∀ l ∈ ls.head?, Text.isBlank l = false) : clearsAbove fs ls = true := by
  induction ls with
  | nil => exact absurd rfl hne
  | cons l ls ih =>
    obtain ⟨hl, hls⟩ := List.forall_mem_cons.1 hset
    cases he : isEmptySlot fs l with
    | false =>
      rw [keptLines_shown he (hl (hh l rfl) he)] at hk
      cases hk
    | true =>
      rw [keptLines_gone he] at hk
      rw [clearsAbove, he, Bool.true_and]
      cases hb : blankOrEnd ls.head? with
      | true => rfl
      | false =>
        rw [Bool.false_or]
        refine ih hls hk ?_ fun l' hl' => ?_
        · rintro rfl
          cases hb
        · rwa [hl'] at hb

/-- The last line that is kept is not blank. -/
theorem getLast_keptBlanks (hset : Settled fs e ls) (hsp : Text.SingleBlanks ls)
    (hend : Text.EndsShown ls) (hk : keptLines fs e ls ≠ []) :
    (keptBlanks fs e ls).getLast? = some false := by
  induction ls with
  | nil => cases hend
  | cons l ls ih =>
    obtain ⟨hl, hls⟩ := List.forall_mem_cons.1 hset
    obtain ⟨hnext, hsp'⟩ := List.isChain_cons.1 hsp
    by_cases hrest : keptLines fs e ls = []
    · -- the last line that is kept is the first one; were it blank, the others would clear it
      have hb : Text.isBlank l = false := by
        rcases ls with _ | ⟨l', ls⟩
        · simpa [Text.EndsShown] using hend
        · rw [← Bool.not_eq_true]
          intro hb
          have hhead : ∀ l'' ∈ (l' :: ls).head?, Text.isBlank l'' = false := fun l'' hl'' =>
            (hnext l'' hl'').resolve_left (by simp [hb])
          have hc := clearsAbove_of_keptLines_eq_nil hls hrest (List.cons_ne_nil _ _) hhead
          rw [keptLines, hc, hrest, isEmptySlot_of_isBlank hb, Bool.false_or, Bool.and_true] at hk
          cases hsub : Text.isBlank (substitute fs e l) with
          | true => exact hk (by rw [hsub]; rfl)
          | false =>
            rw [substitute_of_isBlank hb, hb] at hsub
            cases hsub
      cases he : isEmptySlot fs l with
      | true => exact absurd ((keptLines_gone he ls).trans hrest) hk
      | false =>
        have hs := hl hb he
        rw [keptBlanks_shown he hs, keptBlanks, hrest, List.flatMap_nil, List.append_nil]
        exact hs.last
    · have hend' : Text.EndsShown ls := by
        rcases ls with _ | ⟨l', ls⟩
        · exact absurd rfl hrest
        · exact hend
      have hlast := ih hls hsp' hend' hrest
      have hne : keptBlanks fs e ls ≠ [] := by
        intro h
        rw [h] at hlast
        cases hlast
      rw [keptBlanks, keptLines, List.flatMap_append, ← keptBlanks,
        List.getLast?_append_of_ne_nil _ hne, hlast]

/-- Of tidy lines only a slot can begin with a blank line that is not in the source. -/
theorem opens_iff (h : ∀ l ∈ ls, '\n' ∉ l ∧ isTidy l = true ∧ Takes fs l) : Opens fs e ls ↔
    ∃ gone l below p, ls = gone ++ l :: below ∧ (∀ g ∈ gone, isEmptySlot fs g = true) ∧
      slot? l = some p ∧ fs.text p ≠ [] ∧ (Text.blanks (fs.text p)).head? = some true := by
  constructor
  · intro ho
    induction ho with
    | @here l ls he hb hl =>
      obtain ⟨hn, ht, htakes⟩ := h l List.mem_cons_self
      rcases tidy_cases ht hb with ⟨p, hp⟩ | ⟨hs, hink⟩
      · rw [isEmptySlot_eq fs hp, List.isEmpty_eq_false_iff] at he
        rw [blanks_substitute_slot hn hp] at hl
        exact ⟨[], l, ls, p, rfl, by simp, hp, he, hl⟩
      · rw [(htakes.framed _ hn hs hink).head] at hl
        cases hl
    | @skip l ls he _ ih =>
      obtain ⟨gone, l', below, p, rfl, hgone, hrest⟩ := ih (List.forall_mem_cons.1 h).2
      exact ⟨l :: gone, l', below, p, rfl, List.forall_mem_cons.2 ⟨he, hgone⟩, hrest⟩
  · rintro ⟨gone, l, below, p, rfl, hgone, hp, hne, hhead⟩
    induction gone with
    | nil =>
      obtain ⟨hn, -⟩ := h l (by simp)
      refine .here ?_ (isBlank_of_slot hp) (by rwa [blanks_substitute_slot hn hp])
      rwa [isEmptySlot_eq fs hp, List.isEmpty_eq_false_iff]
    | cons g gone ih =>
      obtain ⟨hg, hgone⟩ := List.forall_mem_cons.1 hgone
      exact .skip hg (ih (List.forall_mem_cons.1 h).2 hgone)

/-! ### Templates -/

/-- A source with single blank lines, of tidy lines that take the texts for their marks. -/
structure Accepts (t : Template) (fs : Fillings) : Prop where
  spaced : Text.SingleBlanks (Text.lines t.source)
  shown : Text.EndsShown (Text.lines t.source)
  tidy : ∀ l ∈ Text.lines t.source, isTidy l = true
  takes : ∀ l ∈ Text.lines t.source, Takes fs l

namespace Accepts

variable {t : Template}

theorem settled (h : Accepts t fs) : Settled fs e (Text.lines t.source) := fun l hl =>
  (h.takes l hl).settles (Text.newline_not_mem_lines hl) (h.tidy l hl)

theorem map_isBlank_lines_render (h : Accepts t fs)
    (hk : keptLines fs t.source.ending (Text.lines t.source) ≠ []) :
    (Text.lines (t.render fs)).map Text.isBlank =
      keptBlanks fs t.source.ending (Text.lines t.source) := by
  rw [render_eq_ofLines]
  exact Text.map_isBlank_lines_ofLines (getLast_keptBlanks h.settled h.spaced h.shown hk) _ _

/-- If all lines are left out, nothing remains, or a single empty line. -/
theorem lines_render_of_eq_nil (hk : keptLines fs t.source.ending (Text.lines t.source) = []) :
    Text.lines (t.render fs) = [] ∨ Text.lines (t.render fs) = [[]] := by
  rw [render_eq_ofLines, hk]
  cases t.source.endsWithNewline with
  | false => exact .inl rfl
  | true =>
    cases t.source.ending with
    | lf => exact .inr rfl
    | crlf => exact .inr rfl

theorem singleBlanks_render_iff (h : Accepts t fs) : Text.SingleBlanks (Text.lines (t.render fs)) ↔
    ¬Doubles fs t.source.ending (Text.lines t.source) := by
  rw [← apart_keptBlanks_iff (fun _ => Text.newline_not_mem_lines) h.settled h.spaced]
  by_cases hk : keptLines fs t.source.ending (Text.lines t.source) = []
  · have hsingle : Text.SingleBlanks (Text.lines (t.render fs)) := by
      rcases lines_render_of_eq_nil hk with hl | hl
      · rw [hl]
        exact .nil
      · rw [hl]
        exact .singleton _
    have hapart : Text.Apart (keptBlanks fs t.source.ending (Text.lines t.source)) := by
      rw [keptBlanks, hk]
      exact .nil
    exact iff_of_true hsingle hapart
  · rw [Text.singleBlanks_iff, h.map_isBlank_lines_render hk]

theorem endsShown_render (h : Accepts t fs)
    (hs : ∃ l ∈ Text.lines (t.render fs), Text.isBlank l = false) :
    Text.EndsShown (Text.lines (t.render fs)) := by
  by_cases hk : keptLines fs t.source.ending (Text.lines t.source) = []
  · obtain ⟨l, hl, hb⟩ := hs
    rcases lines_render_of_eq_nil hk with hlines | hlines
    · rw [hlines] at hl
      cases hl
    · rw [hlines] at hl
      rw [List.mem_singleton.1 hl] at hb
      cases hb
  · have hlast := getLast_keptBlanks h.settled h.spaced h.shown hk
    rw [← h.map_isBlank_lines_render hk, List.getLast?_map, Option.map_eq_some_iff] at hlast
    obtain ⟨l, hl, hb⟩ := hlast
    rw [Text.EndsShown, hl, Option.any_some, hb]
    rfl

/-- Blank lines adjoin exactly where a text that begins with a blank line is put below one, with
nothing but empty slots between them. -/
theorem doubles_iff (h : Accepts t fs) : Doubles fs e (Text.lines t.source) ↔
    ∃ above b gone l below p, Text.lines t.source = above ++ b :: (gone ++ l :: below) ∧
      Text.isBlank b = true ∧ (∀ g ∈ gone, isEmptySlot fs g = true) ∧ slot? l = some p ∧
      fs.text p ≠ [] ∧ (Text.blanks (fs.text p)).head? = some true := by
  have hline : ∀ {above below : List Text} {b : Text}, Text.lines t.source = above ++ b :: below →
      ∀ l ∈ below, '\n' ∉ l ∧ isTidy l = true ∧ Takes fs l := by
    intro above below b hls l hl
    have hmem : l ∈ Text.lines t.source := by simp [hls, hl]
    exact ⟨Text.newline_not_mem_lines hmem, h.tidy l hmem, h.takes l hmem⟩
  constructor
  · rintro ⟨above, b, below, hls, hb, ho⟩
    obtain ⟨gone, l, below, p, rfl, hrest⟩ := (opens_iff (hline hls)).1 ho
    exact ⟨above, b, gone, l, below, p, hls, hb, hrest⟩
  · rintro ⟨above, b, gone, l, below, p, hls, hb, hrest⟩
    exact ⟨above, b, _, hls, hb, (opens_iff (hline hls)).2 ⟨gone, l, below, p, rfl, hrest⟩⟩

end Accepts

/-- Slots with nothing to insert never leave two blank lines next to each other, or one at the end,
if no text for a slot has a blank line. Line feeds in a slot's text are separators, so `htext` cuts
it with `Text.splitOn`, while source and result are cut with `Text.lines`, where they close lines. A
text that ends with a line feed has a blank last line, and `htext` rules it out. -/
theorem render_singleBlanks (t : Template) (fs : Fillings)
    (hsp : Text.SingleBlanks (Text.lines t.source)) (hend : Text.EndsShown (Text.lines t.source))
    (htidy : ∀ l ∈ Text.lines t.source, isTidy l = true)
    (htext : ∀ p, fs.text p = [] ∨
      ∀ l ∈ Text.splitOn '\n' (fs.text p), Text.isBlank l = false) :
    Text.SingleBlanks (Text.lines (t.render fs)) ∧
    ((∃ l ∈ Text.lines (t.render fs), Text.isBlank l = false) →
      Text.EndsShown (Text.lines (t.render fs))) := by
  have hframed : ∀ p, fs.text p ≠ [] → Text.Framed (Text.blanks (fs.text p)) := fun p hp =>
    Text.framed_of_forall (Text.blanks_ne_nil _)
      (List.forall_mem_map.2 ((htext p).resolve_left hp))
  have htakes : ∀ l, Takes fs l := by
    refine fun l => ⟨fun p _ => ?_, fun _ p _ => ?_⟩
    · by_cases hp : fs.text p = []
      · exact .inl hp
      · exact .inr ⟨(hframed p hp).last, (hframed p hp).apart⟩
    · by_cases hp : fs.text p = []
      · rw [hp]
        exact .inl rfl
      · exact .inr (hframed p hp)
  have h : Accepts t fs := ⟨hsp, hend, htidy, fun l _ => htakes l⟩
  refine ⟨h.singleBlanks_render_iff.2 fun hd => ?_, h.endsShown_render⟩
  obtain ⟨above, b, gone, l, below, p, -, -, -, -, hp, hhead⟩ := h.doubles_iff.1 hd
  rw [(hframed p hp).head] at hhead
  cases hhead

/-- A source with slots between blank lines and at the end. -/
def classTemplate : Template :=
  ⟨Text.ofLines .crlf false (List.map String.toList [
    "import A", "", " VAR_ENTITY ", "VAR_NODE", "", "class VAR_MODEL_NAME \x7b", " VAR_KEYS", "\x7d",
    " ", "\tVAR_PARENTS", "VAR_VIEW_DATA"]), .inline⟩

def classFillings : Fillings :=
  .ofList [(.modelName, .ofText "User"), (.keys, .ofText "case a\n case b"),
    (.node, .ofList .blocks [])]

theorem render_classTemplate :
    Text.SingleBlanks (Text.lines classTemplate.source) ∧
    Text.EndsShown (Text.lines classTemplate.source) ∧
    (∀ l ∈ Text.lines classTemplate.source, isTidy l = true) ∧
    (∀ p, classFillings.text p = [] ∨
      ∀ l ∈ Text.splitOn '\n' (classFillings.text p), Text.isBlank l = false) ∧
    classTemplate.render classFillings =
      "import A\r\n\r\nclass User \x7b\r\n case a\r\n case b\r\n\x7d" ∧
    Text.SingleBlanks (Text.lines (classTemplate.render classFillings)) ∧
    ((∃ l ∈ Text.lines (classTemplate.render classFillings), Text.isBlank l = false) →
      Text.EndsShown (Text.lines (classTemplate.render classFillings))) := by
  have hsp : Text.SingleBlanks (Text.lines classTemplate.source) := by decide +kernel
  have hend : Text.EndsShown (Text.lines classTemplate.source) := by decide +kernel
  have htidy : ∀ l ∈ Text.lines classTemplate.source, isTidy l = true := by decide +kernel
  have htext : ∀ p ∈ Placeholder.all, classFillings.text p = [] ∨
      ∀ l ∈ Text.splitOn '\n' (classFillings.text p), Text.isBlank l = false := by
    decide +kernel
  have htext' := fun p => htext p (Placeholder.mem_all p)
  exact ⟨hsp, hend, htidy, htext', by decide +kernel, render_singleBlanks _ _ hsp hend htidy htext'⟩

end Scaffold.Template
