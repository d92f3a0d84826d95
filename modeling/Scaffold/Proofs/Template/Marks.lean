import Mathlib.Data.List.Infix
import Scaffold.Template.Basic

/-! The marks in the source of a template. Marks do not overlap: none begins with another one, and
none begins inside another one, whatever follows. So a source has one reading, in which every
occurrence of a mark is a part of its own, and a single pass over the source finds it. Main
statement: `parts_eq_iff`. -/

namespace Scaffold

/-! ### Marks next to each other -/

namespace Placeholder

variable {p q : Placeholder} {s t : Text} {c : Char}

/-- What all marks begin with. -/
def stem : Text := "VAR_"

theorem stem_prefix_token (p : Placeholder) : stem <+: p.token := by
  have starts : ∀ p ∈ all, stem <+: p.token := by decide +kernel
  exact starts p (mem_all p)

theorem token_ne_nil (p : Placeholder) : p.token ≠ [] := by
  intro h
  have hp := stem_prefix_token p
  rw [h, List.prefix_nil] at hp
  revert hp
  decide

/-- A mark stands on one line. -/
theorem ends_not_mem_token (p : Placeholder) : '\n' ∉ p.token ∧ '\r' ∉ p.token := by
  have none : ∀ p ∈ all, '\n' ∉ p.token ∧ '\r' ∉ p.token := by decide +kernel
  exact none p (mem_all p)

/-- The end of a mark is not how a mark begins, since the stem comes only at the start. -/
theorem not_prefix_of_suffix (h : p.token = s ++ t) (hs : s ≠ []) (ht : t ≠ []) :
    ¬ t <+: q.token ∧ ¬ q.token <+: t := by
  have ends : ∀ p ∈ all, ∀ t ∈ p.token.tail.tails, t ≠ [] → ¬ t.take stem.length <+: stem := by
    decide +kernel
  obtain ⟨c, s, rfl⟩ := List.exists_cons_of_ne_nil hs
  have htail : t ∈ p.token.tail.tails := (List.mem_tails _ _).2 ⟨s, by rw [h]; rfl⟩
  have hstem := ends p (mem_all p) t htail ht
  have hlen := List.length_take_le stem.length t
  have htake := List.take_prefix stem.length t
  refine ⟨fun hq => hstem ?_, fun hq => hstem ?_⟩
  · exact List.prefix_of_prefix_length_le (htake.trans hq) (stem_prefix_token q) hlen
  · exact List.prefix_of_prefix_length_le htake ((stem_prefix_token q).trans hq) hlen

theorem eq_of_prefix_of_prefix (hp : p.token <+: t) (hq : q.token <+: t) : p = q := by
  rcases List.prefix_or_prefix_of_prefix hp hq with h | h
  · exact eq_of_token_prefix h
  · exact Eq.symm <| eq_of_token_prefix h

theorem atStart?_eq_some_iff : atStart? t = some p ↔ p.token <+: t := by
  unfold atStart?
  constructor
  · intro h
    have hp := List.find?_some h
    exact List.isPrefixOf_iff_prefix.1 hp
  · intro hp
    have hsome : (all.find? (·.token.isPrefixOf t)).isSome = true :=
      List.find?_isSome.2 ⟨p, mem_all p, List.isPrefixOf_iff_prefix.2 hp⟩
    obtain ⟨q, hq⟩ := Option.isSome_iff_exists.1 hsome
    have hq' := List.find?_some hq
    rw [hq, eq_of_prefix_of_prefix hp (List.isPrefixOf_iff_prefix.1 hq')]

theorem atStart?_eq_none_iff : atStart? t = none ↔ ∀ p : Placeholder, ¬ p.token <+: t := by
  simp only [← atStart?_eq_some_iff, Option.eq_none_iff_forall_ne_some, Ne]

/-- Behind a mark, the next mark comes at the earliest after all of it. -/
theorem prefix_of_append_eq {a b : Text} (h : p.token ++ s = a ++ (q.token ++ b)) (ha : a ≠ []) :
    p.token <+: a := by
  rcases List.append_eq_append_iff.1 h with ⟨d, hd, -⟩ | ⟨d, hd, hb⟩
  · exact ⟨d, hd.symm⟩
  · by_cases hnil : d = []
    · exact ⟨[], by rw [hd, hnil, List.append_nil, List.append_nil]⟩
    · obtain ⟨h₁, h₂⟩ := @not_prefix_of_suffix p q a d hd ha hnil
      have hq : q.token <+: d ++ s := ⟨b, hb⟩
      rcases List.prefix_or_prefix_of_prefix hq (List.prefix_append d s) with h | h
      · exact absurd h h₂
      · exact absurd h h₁

end Placeholder

namespace Template

variable {p : Placeholder} {ps : List Part} {s t : Text} {c : Char}

/-! ### One pass over a source -/

theorem partsAfter_eq (n : Nat) (t : Text) : partsAfter n t = parts (t.drop n) := by
  induction n generalizing t with
  | zero => rfl
  | succ n ih =>
    cases t with
    | nil => rfl
    | cons c t => exact ih t

theorem parts_token_append (p : Placeholder) (t : Text) :
    parts (p.token ++ t) = .slot p :: parts t := by
  obtain ⟨c, s, hs⟩ := List.exists_cons_of_ne_nil p.token_ne_nil
  have hp : Placeholder.atStart? (c :: (s ++ t)) = some p :=
    Placeholder.atStart?_eq_some_iff.2 ⟨t, by rw [hs, List.cons_append]⟩
  have hrest : partsAfter (p.token.length - 1) (s ++ t) = parts t := by
    rw [partsAfter_eq, hs, List.length_cons, Nat.add_sub_cancel, List.drop_left]
  rw [hs, List.cons_append, parts, partsAfter, hp]
  dsimp only
  rw [hrest]

theorem parts_cons (h : ∀ p : Placeholder, ¬ p.token <+: c :: t) :
    parts (c :: t) = .char c :: parts t := by
  rw [parts, partsAfter, Placeholder.atStart?_eq_none_iff.2 h]
  rfl

/-- A text is read from its front: a mark, or a character with which no mark begins. -/
theorem parts_induction {P : Text → Prop} (nil : P [])
    (mark : ∀ (p : Placeholder) (t : Text), P t → P (p.token ++ t))
    (char : ∀ (c : Char) (t : Text), (∀ p : Placeholder, ¬ p.token <+: c :: t) → P t → P (c :: t))
    (t : Text) : P t := by
  induction hn : t.length using Nat.strongRecOn generalizing t with
  | ind n ih =>
    subst hn
    cases t with
    | nil => exact nil
    | cons c t =>
      by_cases h : ∀ p : Placeholder, ¬ p.token <+: c :: t
      · exact char c t h (ih _ (by simp) t rfl)
      · simp only [not_forall, not_not] at h
        obtain ⟨p, u, hu⟩ := h
        have hpos := List.length_pos_of_ne_nil p.token_ne_nil
        have hlen : u.length < (c :: t).length := by
          rw [← hu, List.length_append]
          omega
        rw [← hu]
        exact mark p u (ih _ hlen u rfl)

/-- A character that is in no mark is a part of its own, and nothing is read across it. -/
theorem parts_append_cons (hc : ∀ p : Placeholder, c ∉ p.token) (s t : Text) :
    parts (s ++ c :: t) = parts s ++ .char c :: parts t := by
  have hstart : ∀ (p : Placeholder) (s : Text), p.token <+: s ++ c :: t → p.token <+: s := by
    intro p s h
    rcases List.prefix_or_prefix_of_prefix h (List.prefix_append s (c :: t)) with h' | ⟨d, hd⟩
    · exact h'
    · rw [← hd, List.prefix_append_right_inj] at h
      cases d with
      | nil => exact ⟨[], by rw [← hd, List.append_nil, List.append_nil]⟩
      | cons a d =>
        obtain ⟨rfl, -⟩ := List.cons_prefix_cons.1 h
        exact absurd (hd ▸ by simp) (hc p)
  induction s using parts_induction with
  | nil =>
    refine parts_cons fun p h => ?_
    exact p.token_ne_nil (List.prefix_nil.1 (hstart p [] h))
  | mark p s ih => rw [List.append_assoc, parts_token_append, parts_token_append, ih]; rfl
  | char d s hd ih =>
    have hd' : ∀ p : Placeholder, ¬ p.token <+: d :: (s ++ c :: t) := fun p h => hd p (hstart p _ h)
    rw [List.cons_append, parts_cons hd', parts_cons hd, ih]
    rfl

/-! ### The reading of a source -/

/-- How a part is written in a source. -/
def Part.source : Part → Text
  | .slot p => p.token
  | .char c => [c]

/-- The source that consists of some parts. -/
def sourceOf (ps : List Part) : Text :=
  ps.flatMap Part.source

/-- The parts make up the source, and wherever a mark stands in the source it is one of them. -/
structure IsReading (ps : List Part) (t : Text) : Prop where
  source : sourceOf ps = t
  marks : ∀ before (p : Placeholder) after, t = before ++ (p.token ++ after) →
    ∃ ps₁ ps₂, ps = ps₁ ++ .slot p :: ps₂ ∧ sourceOf ps₁ = before ∧ sourceOf ps₂ = after

@[simp] theorem sourceOf_cons (part : Part) (ps : List Part) :
    sourceOf (part :: ps) = part.source ++ sourceOf ps :=
  List.flatMap_cons

@[simp] theorem sourceOf_append (ps qs : List Part) :
    sourceOf (ps ++ qs) = sourceOf ps ++ sourceOf qs :=
  List.flatMap_append

theorem sourceOf_parts (t : Text) : sourceOf (parts t) = t := by
  induction t using parts_induction with
  | nil => rfl
  | mark p t ih => rw [parts_token_append, sourceOf_cons, ih]; rfl
  | char c t h ih => rw [parts_cons h, sourceOf_cons, ih]; rfl

theorem isReading_parts (t : Text) : IsReading (parts t) t := by
  refine ⟨sourceOf_parts t, ?_⟩
  induction t using parts_induction with
  | nil =>
    intro before q after h
    simp [q.token_ne_nil] at h
  | mark p t ih =>
    intro before q after h
    rw [parts_token_append]
    by_cases hb : before = []
    · subst hb
      obtain rfl : p = q := Placeholder.eq_of_prefix_of_prefix (List.prefix_append p.token t)
        ⟨after, h.symm⟩
      have ht : t = after := List.append_cancel_left h
      exact ⟨[], parts t, rfl, rfl, by rw [sourceOf_parts, ht]⟩
    · obtain ⟨before, rfl⟩ := Placeholder.prefix_of_append_eq h hb
      rw [List.append_assoc] at h
      obtain ⟨ps₁, ps₂, hps, h₁, h₂⟩ := ih before q after (List.append_cancel_left h)
      exact ⟨.slot p :: ps₁, ps₂, by rw [hps]; rfl, by rw [sourceOf_cons, h₁]; rfl, h₂⟩
  | char c t hc ih =>
    intro before q after h
    rw [parts_cons hc]
    cases before with
    | nil => exact absurd ⟨after, h.symm⟩ (hc q)
    | cons d before =>
      obtain ⟨rfl, ht⟩ := List.cons.inj h
      obtain ⟨ps₁, ps₂, hps, h₁, h₂⟩ := ih before q after ht
      exact ⟨.char c :: ps₁, ps₂, by rw [hps]; rfl, by rw [sourceOf_cons, h₁]; rfl, h₂⟩

/-- The marks among the parts are those that stand in the source. -/
theorem slot_mem_parts_iff : .slot p ∈ parts t ↔ p.token <:+: t := by
  constructor
  · intro h
    obtain ⟨front, back, hps⟩ := List.append_of_mem h
    have ht := sourceOf_parts t
    rw [hps, sourceOf_append, sourceOf_cons, ← List.append_assoc] at ht
    exact ⟨_, _, ht⟩
  · rintro ⟨before, after, h⟩
    rw [List.append_assoc] at h
    obtain ⟨front, back, hps, -, -⟩ := (isReading_parts t).marks before p after h.symm
    rw [hps]
    exact List.mem_append_right _ List.mem_cons_self

/-- Without its first part, a reading is one of the rest of the source. -/
theorem IsReading.tail {part : Part} (h : IsReading (part :: ps) t) :
    IsReading ps (sourceOf ps) := by
  refine ⟨rfl, fun before p after hs => ?_⟩
  have ht : t = (part.source ++ before) ++ (p.token ++ after) := by
    rw [← h.source, sourceOf_cons, hs, List.append_assoc]
  obtain ⟨ps₁, ps₂, hps, h₁, h₂⟩ := h.marks _ p after ht
  cases ps₁ with
  | nil =>
    -- the mark would stand at the very start, where the first part is
    have hnil := List.append_eq_nil_iff.1 h₁.symm
    obtain ⟨rfl, -⟩ := List.cons.inj hps
    exact absurd hnil.1 p.token_ne_nil
  | cons part' ps₁ =>
    obtain ⟨rfl, rfl⟩ := List.cons.inj hps
    rw [sourceOf_cons] at h₁
    exact ⟨ps₁, ps₂, rfl, List.append_cancel_left h₁, h₂⟩

/-- The pass over a source finds its only reading. -/
theorem parts_eq_iff : parts t = ps ↔ IsReading ps t := by
  constructor
  · rintro rfl
    exact isReading_parts t
  · intro h
    induction ps generalizing t with
    | nil =>
      rw [← h.source]
      rfl
    | cons part ps ih =>
      have hps := ih h.tail
      cases part with
      | slot p =>
        rw [← h.source, sourceOf_cons, Part.source, parts_token_append, hps]
      | char c =>
        have hc : ∀ p : Placeholder, ¬ p.token <+: c :: sourceOf ps := by
          rintro p ⟨after, ha⟩
          have ht : t = [] ++ (p.token ++ after) := by rw [← h.source, List.nil_append, ha]; rfl
          obtain ⟨ps₁, ps₂, hps, h₁, -⟩ := h.marks [] p after ht
          cases ps₁ with
          | nil => cases hps
          | cons part' ps₁ =>
            obtain ⟨rfl, -⟩ := List.cons.inj hps
            exact absurd (List.append_eq_nil_iff.1 h₁).1 (List.cons_ne_nil c [])
        rw [← h.source, sourceOf_cons, Part.source, List.singleton_append, parts_cons hc, hps]

end Template
end Scaffold
