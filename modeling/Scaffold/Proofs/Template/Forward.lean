import Mathlib.Data.List.Chain
import Scaffold.Proofs.Layout.Outline
import Scaffold.Proofs.Text.Endings
import Scaffold.Template.Source

/-! The lines of a rendered template, from top to bottom. Rendering looks back at the finished
lines when a line is left out; `written` looks ahead in the source instead, so what a line becomes
depends on the source alone. For sources whose slots stand behind the margin of their depth both
agree: `render_eq_unlines`. -/

namespace Scaffold.Template

/-- The place that a line holds the mark of, and nothing else. -/
def slot? (line : Text) : Option Placeholder :=
  Placeholder.ofToken? (Text.trim line)

/-- What a part stands for, in a source with line feeds only. -/
def Part.fill (text : Placeholder → Text) : Part → Text
  | .slot p => text p
  | .char c => [c]

/-- Whether a blank line is left out above the lines of a source: behind it stand slots with no
lines, and then a blank line or the end. -/
def clears (slots : Placeholder → List Text) : Bool → List Text → Bool
  | seen, [] => seen
  | seen, l :: ls =>
    match slot? l with
    | some p => clears slots true ls && (slots p).isEmpty
    | none => seen && l.isEmpty

/-- The lines for a source, with `slots` for the lines that hold one mark only and `text` for
the marks within lines. -/
def written (text : Placeholder → Text) (slots : Placeholder → List Text) : List Text → List Text
  | [] => []
  | l :: ls =>
    (match slot? l with
    | some p => slots p
    | none =>
      if l.isEmpty then (if clears slots false ls then [] else [[]])
      else [(parts l).flatMap (Part.fill text)]) ++ written text slots ls

/-- A character that shows on paper. -/
def Part.isInk : Part → Bool
  | .slot _ => false
  | .char c => !Text.isBlankChar c

/-- A line of a source that is a slot behind the margin of its depth, or is empty, or shows
something besides its marks. -/
def isRegular (line : Text) : Bool :=
  match slot? line with
  | some p => parts line == (margin p.depth.level).map Part.char ++ [Part.slot p]
  | none => line.isEmpty || (!Text.isBlank line && (parts line).any Part.isInk)

/-- The lines `slots p` are those that a filling puts in place of a slot. -/
structure Shows (fs : Fillings) (slots : Placeholder → List Text) (p : Placeholder) : Prop where
  empty : fs.text p = [] → slots p = []
  full : fs.text p ≠ [] → Text.isBlank (fs.text p) = false ∧
    Text.unlines (slots p) = margin p.depth.level ++ fs.text p ++ ['\n']

variable {fs : Fillings} {slots : Placeholder → List Text} {line : Text} {ls : List Text}
  {p : Placeholder}

theorem withEnding_lf (t : Text) : Text.withEnding .lf t = t := by
  have hchar : (fun c => if c = '\n' then Ending.text .lf else [c]) = fun c : Char => [c] := by
    funext c
    split
    · next h => rw [h]; rfl
    · rfl
  rw [Text.withEnding, hchar, List.flatMap_singleton']

/-- Characters that are kept make up their text again. -/
theorem flatMap_chars {g : Part → Text} (hg : ∀ c, g (.char c) = [c]) (t : Text) :
    (t.map Part.char).flatMap g = t := by
  rw [List.flatMap_map, List.flatMap_congr fun c _ => hg c]
  exact List.flatMap_singleton' t

theorem substitute_lf (fs : Fillings) (t : Text) :
    substitute fs .lf t = (parts t).flatMap (Part.fill fs.text) := by
  refine congrArg (List.flatMap · _) (funext fun part => ?_)
  cases part with
  | slot p => exact withEnding_lf _
  | char c => rfl

/-! ### Single lines -/

theorem isEmptySlot_eq (fs : Fillings) (h : slot? line = some p) :
    isEmptySlot fs line = (fs.text p).isEmpty := by
  unfold slot? at h
  rw [isEmptySlot, h]

theorem isEmptySlot_of_none (fs : Fillings) (h : slot? line = none) :
    isEmptySlot fs line = false := by
  unfold slot? at h
  rw [isEmptySlot, h]

/-- A slot becomes the margin and the text for it. -/
theorem substitute_slot (fs : Fillings) (hr : isRegular line = true) (h : slot? line = some p) :
    substitute fs .lf line = margin p.depth.level ++ fs.text p := by
  rw [isRegular, h] at hr
  rw [substitute_lf, eq_of_beq hr, List.flatMap_append, flatMap_chars fun _ => rfl,
    List.flatMap_singleton]
  rfl

theorem isBlank_of_slot (h : slot? line = some p) : Text.isBlank line = false := by
  apply Text.isBlank_eq_false_of_trim
  intro hn
  rw [slot?, hn] at h
  cases h

theorem regular_cases (hr : isRegular line = true) (h : slot? line = none) (hne : line ≠ []) :
    Text.isBlank line = false ∧ ∃ part ∈ parts line, part.isInk = true := by
  rw [isRegular, h] at hr
  simpa [List.isEmpty_eq_false_iff.2 hne] using hr

/-- A line that shows something besides its marks is not blank, whatever is put in. -/
theorem isBlank_substitute (fs : Fillings) (hr : isRegular line = true) (h : slot? line = none)
    (hne : line ≠ []) :
    Text.isBlank (substitute fs .lf line) = false := by
  obtain ⟨-, part, hm, hink⟩ := regular_cases hr h hne
  cases part with
  | slot p => cases hink
  | char c =>
    have hmem : c ∈ substitute fs .lf line := by
      rw [substitute_lf]
      exact List.mem_flatMap.2 ⟨_, hm, List.mem_singleton_self c⟩
    rw [← Bool.not_eq_true]
    intro hall
    have hblank : Text.isBlankChar c = true := List.all_eq_true.1 hall c hmem
    simp [Part.isInk, hblank] at hink

/-- Once a slot has been seen, the blank line above is left out if a blank line or the end comes
next. -/
theorem clears_true (hr : ∀ l ∈ ls, isRegular l = true) :
    clears slots true ls = (blankOrEnd ls.head? || clears slots false ls) := by
  rcases ls with _ | ⟨l, ls⟩
  · rfl
  · have hl := hr l List.mem_cons_self
    rw [List.head?_cons, blankOrEnd, clears, clears]
    cases hs : slot? l with
    | some p => simp [isBlank_of_slot hs]
    | none =>
      rcases l with _ | ⟨c, l⟩
      · rfl
      · simp [(regular_cases hl hs (List.cons_ne_nil c l)).1]

/-! ### The whole source -/

/-- No two empty lines adjoin. -/
def Spaced (ls : List Text) : Prop :=
  ls.IsChain fun l l' => l ≠ [] ∨ l' ≠ []

theorem renderLines_kept (above : List Text) (h : isEmptySlot fs line = false) :
    renderLines fs .lf above (line :: ls) =
      renderLines fs .lf (substitute fs .lf line :: above) ls := by
  rw [renderLines, h, if_neg Bool.false_ne_true]

/-- A slot with nothing to insert below a line that is not blank. -/
theorem renderLines_skipped {above : List Text} (h : isEmptySlot fs line = true)
    (ha : blankAbove above.head? = false) :
    renderLines fs .lf above (line :: ls) = renderLines fs .lf above ls := by
  rw [renderLines, if_pos h, ha, Bool.false_and, if_neg Bool.false_ne_true]

/-- A slot with nothing to insert below an empty line. -/
theorem renderLines_cleared (above : List Text) (h : isEmptySlot fs line = true) :
    renderLines fs .lf ([] :: above) (line :: ls) =
      renderLines fs .lf (if blankOrEnd ls.head? then above else [] :: above) ls := by
  rw [renderLines, if_pos h]
  rfl

/-- Rendering below finished lines that do not end with a blank one, and below one blank line more.
Slots may take the blank line along, never the lines above it. -/
theorem unlines_renderLines_above (hr : ∀ l ∈ ls, isRegular l = true)
    (hs : ∀ l ∈ ls, ∀ p, slot? l = some p → Shows fs slots p) (above : List Text)
    (ha : blankAbove above.head? = false) :
    (Spaced ls → Text.unlines (renderLines fs .lf above ls) =
      Text.unlines above.reverse ++ Text.unlines (written fs.text slots ls)) ∧
    (Spaced ([] :: ls) → Text.unlines (renderLines fs .lf ([] :: above) ls) =
      Text.unlines above.reverse ++ Text.unlines
        ((if clears slots false ls then [] else [[]]) ++ written fs.text slots ls)) := by
  induction ls generalizing above with
  | nil => simp [renderLines, written, clears]
  | cons l ls ih =>
    obtain ⟨hl, hrs⟩ := List.forall_mem_cons.1 hr
    obtain ⟨hsl, hss⟩ := List.forall_mem_cons.1 hs
    -- A text that is not blank closes off everything above it.
    have hpush : ∀ {t : Text} {done : List Text}, Text.isBlank t = false → Spaced ls →
        Text.unlines (renderLines fs .lf (t :: done) ls) =
          Text.unlines done.reverse ++ (t ++ '\n' :: Text.unlines (written fs.text slots ls)) := by
      intro t done ht hsp
      rw [(ih hrs hss (t :: done) ht).1 hsp]
      simp
    cases hslot : slot? l with
    | some p =>
      obtain ⟨hempty, hfull⟩ := hsl p hslot
      have hw : written fs.text slots (l :: ls) = slots p ++ written fs.text slots ls := by
        rw [written, hslot]
      have hc : clears slots false (l :: ls) = (clears slots true ls && (slots p).isEmpty) := by
        rw [clears, hslot]
      have hskip := isEmptySlot_eq fs hslot
      by_cases he : fs.text p = []
      · rw [he] at hskip
        rw [hw, hc, hempty he, clears_true hrs]
        refine ⟨fun hsp => ?_, fun hsp => ?_⟩
        · rw [renderLines_skipped hskip ha]
          exact (ih hrs hss above ha).1 (List.isChain_cons.1 hsp).2
        · have hsp' : Spaced ls := (List.isChain_cons.1 (List.isChain_cons.1 hsp).2).2
          rw [renderLines_cleared above hskip]
          cases hb : blankOrEnd ls.head? with
          | true => simpa using (ih hrs hss above ha).1 hsp'
          | false =>
            have hhead : ∀ l' ∈ ls.head?, l' ≠ [] := by
              rintro l' hl' rfl
              rw [hl'] at hb
              cases hb
            have hnext : Spaced ([] :: ls) :=
              List.isChain_cons.2 ⟨fun l' hl' => .inr (hhead l' hl'), hsp'⟩
            simpa using (ih hrs hss above ha).2 hnext
      · obtain ⟨hb, hlines⟩ := hfull he
        have hkept : isEmptySlot fs l = false := hskip.trans (List.isEmpty_eq_false_iff.2 he)
        have hne : (slots p).isEmpty = false := by
          rw [List.isEmpty_eq_false_iff]
          intro h
          rw [h] at hlines
          simp at hlines
        have ht : Text.isBlank (substitute fs .lf l) = false := by
          rw [substitute_slot fs hl hslot, Text.isBlank_append, hb, Bool.and_false]
        rw [renderLines_kept _ hkept, renderLines_kept _ hkept, hw, hc, hne, Bool.and_false]
        refine ⟨fun hsp => ?_, fun hsp => ?_⟩
        · rw [hpush ht (List.isChain_cons.1 hsp).2, Text.unlines_append, hlines,
            substitute_slot fs hl hslot]
          simp
        · rw [hpush ht (List.isChain_cons.1 (List.isChain_cons.1 hsp).2).2, Text.unlines_append,
            Text.unlines_append, hlines, substitute_slot fs hl hslot]
          simp
    | none =>
      have hkept := isEmptySlot_of_none fs hslot
      have hc : clears slots false (l :: ls) = false := by
        rw [clears, hslot]
        rfl
      rw [renderLines_kept _ hkept, renderLines_kept _ hkept, hc, written, hslot]
      by_cases hne : l = []
      · subst hne
        refine ⟨fun hsp => (ih hrs hss above ha).2 hsp, fun hsp => ?_⟩
        exact absurd ((List.isChain_cons.1 hsp).1 [] rfl) (by simp)
      · have ht := isBlank_substitute fs hl hslot hne
        refine ⟨fun hsp => ?_, fun hsp => ?_⟩
        · rw [hpush ht (List.isChain_cons.1 hsp).2, substitute_lf]
          simp [hne]
        · rw [hpush ht (List.isChain_cons.1 (List.isChain_cons.1 hsp).2).2, substitute_lf]
          simp [hne]

/-- A source with line feeds is rendered line by line, looking ahead only. -/
theorem render_eq_unlines {t : Template} (ht : t.source = Text.ofLines .lf true ls)
    (hline : ∀ l ∈ ls, '\n' ∉ l ∧ '\r' ∉ l) (hr : ∀ l ∈ ls, isRegular l = true) (hsp : Spaced ls)
    (hs : ∀ l ∈ ls, ∀ p, slot? l = some p → Shows fs slots p)
    (hne : written fs.text slots ls ≠ []) :
    t.render fs = Text.unlines (written fs.text slots ls) := by
  have hls : ls ≠ [] := by
    rintro rfl
    exact hne rfl
  have hall := (unlines_renderLines_above hr hs [] rfl).1 hsp
  rw [List.reverse_nil, Text.unlines_nil, List.nil_append] at hall
  have hlines : renderLines fs .lf [] ls ≠ [] := by
    intro h
    rw [h] at hall
    obtain ⟨l, ls', hw⟩ := List.exists_cons_of_ne_nil hne
    rw [hw] at hall
    simp at hall
  rw [render, ht, Text.ofLines_eq_unlines hls, Text.ending_unlines fun l hl => (hline l hl).2,
    Text.endsWithNewline_unlines hls, Text.lines_unlines hline, Text.ofLines_eq_unlines hlines,
    hall]

/-! ### Parts of a source -/

/-- The lines above a line that is no slot do not look past it. -/
theorem clears_append_cons (h : slot? line = none) (seen : Bool) (above below : List Text) :
    clears slots seen (above ++ line :: below) = clears slots seen (above ++ [line]) := by
  induction above generalizing seen with
  | nil =>
    rw [List.nil_append, List.nil_append, clears, clears, h]
  | cons l above ih =>
    rw [List.cons_append, List.cons_append, clears, clears, ih]

/-- The lines down to one that is no slot and not empty are written on their own. -/
theorem written_append_cons {text : Placeholder → Text} (h : slot? line = none) (hne : line ≠ [])
    (above below : List Text) :
    written text slots (above ++ line :: below) =
      written text slots (above ++ [line]) ++ written text slots below := by
  induction above with
  | nil => simp [written, h, hne]
  | cons l above ih =>
    rw [List.cons_append, List.cons_append, written, written, ih,
      clears_append_cons h false above below, List.append_assoc]

/-- An empty line stays above a line that is no slot. -/
theorem written_blank_cons {text : Placeholder → Text} (h : slot? line = none)
    (below : List Text) :
    written text slots ([] :: line :: below) = [] :: written text slots (line :: below) := by
  have hnil : slot? [] = none := by decide
  have hc : clears slots false (line :: below) = false := by
    rw [clears, h]
    rfl
  rw [written, hnil, hc]
  rfl

/-- The lines of the text for a slot, with the margin of its depth in front. -/
def textLines (fs : Fillings) (p : Placeholder) : List Text :=
  if fs.text p = [] then [] else Text.splitOn '\n' (margin p.depth.level ++ fs.text p)

theorem shows_textLines (h : fs.text p ≠ [] → Text.isBlank (fs.text p) = false) :
    Shows fs (textLines fs) p where
  empty he := if_pos he
  full hne := by
    refine ⟨h hne, ?_⟩
    rw [textLines, if_neg hne, Text.unlines_eq_join (Text.splitOn_ne_nil _ _), Text.join_splitOn]

end Scaffold.Template
