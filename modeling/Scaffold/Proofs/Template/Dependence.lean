import Mathlib.Algebra.Order.BigOperators.Group.List
import Mathlib.Algebra.Order.Group.Nat
import Mathlib.Data.List.Induction
import Scaffold.Proofs.Template.Spacing
import Scaffold.Proofs.Template.Substitution

/-! What rendering depends on. The places of a template are those whose marks stand somewhere in the
source, in the order of their first marks. The lines of a source have the same marks as the source,
so neither the text of a line nor the decision to leave it out looks at any other place. The text
for a place with a mark shows in the result. Main statement: `placeholders_exact`. -/

namespace Scaffold

/-- The first place at which a text stands in another one is at this index. -/
def Text.FirstAt (s t : Text) (i : Nat) : Prop :=
  s <+: t.drop i ∧ ∀ j < i, ¬ s <+: t.drop j

namespace Template

variable {t : Template} {fs fs' : Fillings} {e : Ending} {s l : Text} {ls : List Text}
  {p q : Placeholder} {ps : List Placeholder}

/-! ### First occurrences -/

theorem firstOccurrences_concat (ps : List Placeholder) (p : Placeholder) :
    firstOccurrences (ps ++ [p]) =
      if p ∈ firstOccurrences ps then firstOccurrences ps else firstOccurrences ps ++ [p] := by
  rw [firstOccurrences, List.foldl_append]
  rfl

theorem mem_firstOccurrences : p ∈ firstOccurrences ps ↔ p ∈ ps := by
  induction ps using List.reverseRecOn with
  | nil => rfl
  | append_singleton ps q ih =>
    rw [firstOccurrences_concat, List.mem_append, List.mem_singleton, ← ih]
    split
    · next hq => exact ⟨.inl, fun h => h.elim id fun hp => hp ▸ hq⟩
    · rw [List.mem_append, List.mem_singleton]

/-- The first `p` of a list comes before all `q`, of which there are some. -/
def Leads (ps : List Placeholder) (p q : Placeholder) : Prop :=
  ∃ front back, ps = front ++ p :: back ∧ p ∉ front ∧ q ∉ p :: front ∧ q ∈ back

theorem Leads.concat (h : Leads ps p q) (r : Placeholder) : Leads (ps ++ [r]) p q := by
  obtain ⟨front, back, rfl, hp, hq, hback⟩ := h
  exact ⟨front, back ++ [r], by simp, hp, hq, List.mem_append_left _ hback⟩

theorem pairwise_firstOccurrences (ps : List Placeholder) :
    (firstOccurrences ps).Pairwise (Leads ps) := by
  induction ps using List.reverseRecOn with
  | nil => exact .nil
  | append_singleton ps r ih =>
    have hlater : (firstOccurrences ps).Pairwise (Leads (ps ++ [r])) := ih.imp fun h => h.concat r
    rw [firstOccurrences_concat]
    split
    · exact hlater
    · next hr =>
      rw [mem_firstOccurrences] at hr
      refine List.pairwise_append.2 ⟨hlater, List.pairwise_singleton _ r, fun p hp q hq => ?_⟩
      obtain rfl := List.mem_singleton.1 hq
      obtain ⟨front, back, rfl, hfront⟩ := List.eq_append_cons_of_mem (mem_firstOccurrences.1 hp)
      refine ⟨front, back ++ [q], by simp, hfront, fun hq => hr ?_, by simp⟩
      rw [List.mem_append, List.mem_cons]
      exact (List.mem_cons.1 hq).elim (fun h => .inr (.inl h)) .inl

/-! ### Marks of a source -/

theorem eq_slot_of_place? {part : Part} (h : part.place? = some p) : part = .slot p := by
  cases part with
  | slot q => rw [Option.some.inj h]
  | char c => cases h

theorem slot_mem_iff {ps : List Part} : p ∈ ps.filterMap Part.place? ↔ .slot p ∈ ps := by
  rw [List.mem_filterMap]
  constructor
  · rintro ⟨part, hpart, hp⟩
    rwa [← eq_slot_of_place? hp]
  · exact fun h => ⟨_, h, rfl⟩

theorem mem_placeholders_iff : p ∈ t.placeholders ↔ p.token <:+: t.source := by
  rw [placeholders, mem_firstOccurrences, slot_mem_iff, slot_mem_parts_iff]

/-- The first part with a mark is where the mark stands first in the source. -/
theorem firstAt_of_parts {front back : List Part} (h : parts s = front ++ .slot p :: back)
    (hp : .slot p ∉ front) : Text.FirstAt p.token s (sourceOf front).length := by
  have hs : s = sourceOf front ++ (p.token ++ sourceOf back) := by
    rw [← sourceOf_parts s, h, sourceOf_append, sourceOf_cons]
    rfl
  refine ⟨?_, fun j hj hpre => ?_⟩
  · rw [hs, List.drop_left]
    exact List.prefix_append _ _
  · obtain ⟨after, hafter⟩ := hpre
    have hsplit : s = s.take j ++ (p.token ++ after) := by rw [hafter, List.take_append_drop]
    obtain ⟨front', back', hparts, hfront', -⟩ := (isReading_parts s).marks _ p after hsplit
    rw [h] at hparts
    have hle : (sourceOf front).length ≤ (sourceOf front').length := by
      rcases List.append_eq_append_iff.1 hparts with ⟨d, rfl, -⟩ | ⟨d, rfl, hd⟩
      · rw [sourceOf_append, List.length_append]
        exact Nat.le_add_right _ _
      · rcases d with _ | ⟨part, d⟩
        · rw [List.append_nil]
        · -- the mark would be among the parts in front of the first one
          obtain ⟨rfl, -⟩ := List.cons.inj hd
          exact absurd (by simp) hp
    rw [hfront', List.length_take] at hle
    omega

/-- If the first mark of a place is read before those of another one, it stands before them. -/
theorem Leads.firstAt (h : Leads ((parts s).filterMap Part.place?) p q) :
    ∃ i j, i < j ∧ Text.FirstAt p.token s i ∧ Text.FirstAt q.token s j := by
  obtain ⟨front, back, hread, hp, hq, hback⟩ := h
  obtain ⟨ps₁, ps, hparts, rfl, hps⟩ := List.filterMap_eq_append_iff.1 hread
  obtain ⟨skip, part, ps₂, rfl, hskip, hpart, rfl⟩ := List.filterMap_eq_cons_iff.1 hps
  obtain rfl := eq_slot_of_place? hpart
  have hskip' : skip.filterMap Part.place? = [] := List.filterMap_eq_nil_iff.2 hskip
  have hfront : ∀ {r : Placeholder}, r ∉ ps₁.filterMap Part.place? → .slot r ∉ ps₁ ++ skip := by
    intro r hr
    rwa [← slot_mem_iff, List.filterMap_append, hskip', List.append_nil]
  obtain ⟨ps₃, ps₄, rfl, hq₃⟩ := List.eq_append_cons_of_mem (slot_mem_iff.1 hback)
  rw [List.mem_cons, not_or] at hq
  have hparts' : parts s = (ps₁ ++ skip ++ .slot p :: ps₃) ++ .slot q :: ps₄ := by
    rw [hparts]
    simp
  refine ⟨_, _, ?_, firstAt_of_parts (by rw [hparts, List.append_assoc]) (hfront hp),
    firstAt_of_parts hparts' ?_⟩
  · have hpos : 0 < (Part.slot p).source.length := List.length_pos_of_ne_nil p.token_ne_nil
    rw [sourceOf_append _ (.slot p :: ps₃), sourceOf_cons, List.length_append, List.length_append]
    omega
  · rw [List.mem_append, List.mem_cons, not_or, not_or]
    exact ⟨hfront hq.2, fun h => hq.1 (Part.slot.inj h), hq₃⟩

/-! ### What the lines of a source look at -/

/-- A mark of a source stands on one of its lines. -/
theorem slot_mem_parts_iff_lines :
    .slot p ∈ parts s ↔ ∃ l ∈ Text.lines s, .slot p ∈ parts l := by
  induction s using Text.line_induction with
  | last s hs =>
    rw [Text.lines_of_not_mem hs]
    by_cases he : s = []
    · subst he
      have hnil : parts [] = [] := rfl
      simp [hnil]
    · simp [he]
  | line s t hs ih =>
    have hline : Part.slot p ∈ parts (Text.chomp (s ++ ['\n'])) ↔ Part.slot p ∈ parts s := by
      rcases Text.chomp_cases s with hc | hc
      · rw [hc]
      · have hparts := parts_append_cons (fun p => p.ends_not_mem_token.2)
          (Text.chomp (s ++ ['\n'])) []
        rw [← hc] at hparts
        have hnil : parts [] = [] := rfl
        rw [hparts, hnil]
        simp
    rw [parts_append_cons (fun p => p.ends_not_mem_token.1), Text.lines_append_newline hs]
    simp [hline, ih]

section

variable (h : ∀ p, .slot p ∈ parts l → fs.text p = fs'.text p)
include h

theorem substitute_congr (e : Ending) : substitute fs e l = substitute fs' e l := by
  refine List.flatMap_congr fun part hpart => ?_
  cases part with
  | slot p => exact congrArg (Text.withEnding e) (h p hpart)
  | char c => rfl

theorem isEmptySlot_congr : isEmptySlot fs l = isEmptySlot fs' l := by
  cases hs : slot? l with
  | none => rw [isEmptySlot_of_none fs hs, isEmptySlot_of_none fs' hs]
  | some p =>
    rw [isEmptySlot_eq fs hs, isEmptySlot_eq fs' hs, h p (slot_mem_parts_iff.2 (infix_of_slot hs))]

end

section

variable (h : ∀ l ∈ ls, ∀ p, .slot p ∈ parts l → fs.text p = fs'.text p)
include h

theorem clearsAbove_congr : clearsAbove fs ls = clearsAbove fs' ls := by
  induction ls with
  | nil => rfl
  | cons l ls ih =>
    obtain ⟨hl, hls⟩ := List.forall_mem_cons.1 h
    rw [clearsAbove, clearsAbove, isEmptySlot_congr hl, ih hls]

/-- Which lines stay, and what they become, depends on the marks of the lines alone. -/
theorem keptLines_congr (e : Ending) : keptLines fs e ls = keptLines fs' e ls := by
  induction ls with
  | nil => rfl
  | cons l ls ih =>
    obtain ⟨hl, hls⟩ := List.forall_mem_cons.1 h
    rw [keptLines, keptLines, isEmptySlot_congr hl, substitute_congr hl, clearsAbove_congr hls,
      ih hls]

end

theorem render_congr (h : ∀ p ∈ t.placeholders, fs.text p = fs'.text p) :
    t.render fs = t.render fs' := by
  rw [render_eq_ofLines, render_eq_ofLines, keptLines_congr fun l hl p hp => h p ?_]
  rw [mem_placeholders_iff, ← slot_mem_parts_iff]
  exact slot_mem_parts_iff_lines.2 ⟨l, hl, hp⟩

/-! ### Texts that show in the result -/

/-- The result of rendering changes with the text for this place alone. -/
def DependsOn (t : Template) (p : Placeholder) : Prop :=
  ∃ fs fs' : Fillings, (∀ q, q ≠ p → fs.text q = fs'.text q) ∧ t.render fs ≠ t.render fs'

/-- Where more is put in place of a mark, and nowhere less, the result is longer. -/
theorem length_substitute_lt (hp : .slot p ∈ parts s)
    (hle : ∀ q, (Text.withEnding e (fs.text q)).length ≤ (Text.withEnding e (fs'.text q)).length)
    (hlt : (Text.withEnding e (fs.text p)).length < (Text.withEnding e (fs'.text p)).length) :
    (substitute fs e s).length < (substitute fs' e s).length := by
  rw [substitute, substitute, List.length_flatMap, List.length_flatMap]
  refine List.sum_lt_sum _ _ (fun part _ => ?_) ⟨.slot p, hp, hlt⟩
  cases part with
  | slot q => exact hle q
  | char c => exact Nat.le_refl 1

theorem infix_ofLines (h : l ∈ ls) (e : Ending) (closed : Bool) :
    l <:+: Text.ofLines e closed ls := by
  obtain ⟨above, below, rfl⟩ := List.append_of_mem h
  have hfirst : l <+: Text.ofLines e closed (l :: below) := by
    rcases below with _ | ⟨l', below⟩
    · simp [Text.ofLines, Text.join]
    · rw [Text.ofLines_cons _ _ _ (List.cons_ne_nil l' below), List.append_assoc]
      exact List.prefix_append _ _
  rw [Text.ofLines_append_cons]
  exact hfirst.isInfix.trans (List.suffix_append _ _).isInfix

theorem dependsOn_of_mem (h : p ∈ t.placeholders) : t.DependsOn p := by
  -- With a text in every place no line is left out, so a longer text for `p` shows.
  let fs : Fillings := ⟨fun _ => some (.ofText ['x'])⟩
  let fs' : Fillings := fs.set p (.ofText ['x', 'x'])
  have hfs : ∀ q, fs.text q = ['x'] := fun q => rfl
  have hfs' : ∀ q, fs'.text q = if q = p then ['x', 'x'] else ['x'] := fun q => by
    by_cases hq : q = p
    · simp only [fs', Fillings.text, Fillings.set, if_pos hq]
      rfl
    · simp only [fs', Fillings.text, Fillings.set, if_neg hq]
      rfl
  have hkept : ∀ l ∈ Text.lines t.source, isEmptySlot fs l = false := fun l _ =>
    isEmptySlot_eq_false fun q _ => by simp [hfs]
  have hkept' : ∀ l ∈ Text.lines t.source, isEmptySlot fs' l = false := fun l _ =>
    isEmptySlot_eq_false fun q _ => by
      rw [hfs']
      split <;> simp
  rw [mem_placeholders_iff, ← slot_mem_parts_iff, slot_mem_parts_iff_lines] at h
  obtain ⟨l, hl, hp⟩ := h
  have hwritten := slot_mem_parts_iff.2 ((slot_mem_parts_iff.1 hp).trans
    (infix_ofLines hl t.source.ending t.source.endsWithNewline))
  have hlt : (t.render fs).length < (t.render fs').length := by
    rw [render_of_kept t hkept, render_of_kept t hkept']
    refine length_substitute_lt hwritten (fun q => ?_) ?_
    · rw [hfs, hfs']
      split <;> simp [Text.withEnding]
    · rw [hfs, hfs', if_pos rfl]
      simp [Text.withEnding]
  refine ⟨fs, fs', fun q hq => by rw [hfs, hfs', if_neg hq], fun heq => ?_⟩
  rw [heq] at hlt
  exact Nat.lt_irrefl _ hlt

/-- The places of a template are those whose marks stand in its source, each one once and in the
order of their first marks. They are also the places that rendering depends on: with the same texts
for them the result is the same, whatever the other texts are. -/
theorem placeholders_exact (t : Template) :
    (∀ p, p ∈ t.placeholders ↔ p.token <:+: t.source) ∧ t.placeholders.Nodup ∧
    (t.placeholders.Pairwise fun p q => ∃ i j, i < j ∧
      Text.FirstAt p.token t.source i ∧ Text.FirstAt q.token t.source j) ∧
    (∀ fs fs' : Fillings, (∀ p ∈ t.placeholders, fs.text p = fs'.text p) →
      t.render fs = t.render fs') ∧
    ∀ p, p ∈ t.placeholders ↔ t.DependsOn p := by
  refine ⟨fun p => mem_placeholders_iff, ?_, ?_, fun fs fs' => render_congr, fun p =>
    ⟨dependsOn_of_mem, ?_⟩⟩
  · refine (pairwise_firstOccurrences _).imp fun h => ?_
    obtain ⟨front, back, -, -, hq, -⟩ := h
    exact fun heq => hq (heq ▸ List.mem_cons_self)
  · exact (pairwise_firstOccurrences _).imp Leads.firstAt
  · rintro ⟨fs, fs', hother, hne⟩
    by_contra hp
    exact hne (render_congr fun q hq => hother q fun h => hp (h ▸ hq))

end Template
end Scaffold
