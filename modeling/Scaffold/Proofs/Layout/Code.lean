import Mathlib.Data.List.Forall2
import Scaffold.Layout.Code
import Scaffold.Proofs.Text.Lines

/-! The lines that code is written as. A step changes the level or adds lines, each of them one of
its texts behind the white space of some level (`adds_steps`); a block that is written alone begins
with its header. Main statement: `write_block`. -/

namespace Scaffold.Code

mutual

/-- The texts that a step writes, one to a line. -/
def Step.texts : Step → List Text
  | .line t => [t]
  | .deeper | .shallower => []
  | .block header close body => header :: (allTexts body ++ [close])
  | .when condition body => if condition then allTexts body else []

/-- The texts that steps write. -/
def allTexts : List Step → List Text
  | [] => []
  | s :: ss => s.texts ++ allTexts ss

end

section

variable {P : Text → Prop} {s : Step} {ss : List Step} {header close t : Text} {b : Bool}

theorem forall_mem_texts_line : (∀ t' ∈ (Step.line t).texts, P t') ↔ P t := by
  rw [Step.texts, List.forall_mem_singleton]

theorem forall_mem_texts_block : (∀ t ∈ (Step.block header close ss).texts, P t) ↔
    P header ∧ (∀ t ∈ allTexts ss, P t) ∧ P close := by
  rw [Step.texts, List.forall_mem_cons, List.forall_mem_append, List.forall_mem_singleton]

theorem forall_mem_texts_when : (∀ t ∈ (Step.when b ss).texts, P t) ↔
    (b = true → ∀ t ∈ allTexts ss, P t) := by
  rw [Step.texts]
  cases b <;> simp

theorem forall_mem_allTexts_nil : ∀ t ∈ allTexts [], P t := by
  simp [allTexts]

theorem forall_mem_allTexts_cons : (∀ t ∈ allTexts (s :: ss), P t) ↔
    (∀ t ∈ s.texts, P t) ∧ ∀ t ∈ allTexts ss, P t := by
  rw [allTexts, List.forall_mem_append]

end

/-- A line is a text behind the white space of some level. -/
def Behind (indent : Indent) (t line : Text) : Prop :=
  ∃ level, line = indent.ofLevel level ++ t

/-- Code with more lines than before, for the given texts. -/
structure Adds (ts : List Text) (c c' : Code) : Prop where
  indent : c'.indent = c.indent
  text : ∃ ls, List.Forall₂ (Behind c.indent) ts ls ∧ c'.text = c.text ++ Text.unlines ls

variable {c c' c'' : Code} {ts ts' : List Text}

namespace Adds

theorem refl (c : Code) : Adds [] c c :=
  ⟨rfl, [], .nil, (List.append_nil c.text).symm⟩

/-- The level of code says nothing about its lines. -/
theorem of_deeper (h : Adds ts c.deeper c') : Adds ts c c' :=
  ⟨h.indent, h.text⟩

theorem shallower (h : Adds ts c c') : Adds ts c c'.shallower :=
  ⟨h.indent, h.text⟩

theorem line (c : Code) (t : Text) : Adds [t] c (c.line t) :=
  ⟨rfl, [c.indent.ofLevel c.level ++ t], .cons ⟨c.level, rfl⟩ .nil, by simp [Code.line]⟩

theorem trans (h : Adds ts c c') (h' : Adds ts' c' c'') : Adds (ts ++ ts') c c'' := by
  obtain ⟨hi, ls, hls, ht⟩ := h
  obtain ⟨hi', ls', hls', ht'⟩ := h'
  rw [hi] at hls'
  refine ⟨hi'.trans hi, ls ++ ls', List.rel_append hls hls', ?_⟩
  rw [ht', ht, List.append_assoc, Text.unlines_append]

end Adds

mutual

theorem adds_step (c : Code) : (s : Step) → Adds s.texts c (step c s)
  | .line t => by
    rw [step, Step.texts]
    exact .line c t
  | .deeper => by
    rw [step, Step.texts]
    exact (Adds.refl c.deeper).of_deeper
  | .shallower => by
    rw [step, Step.texts]
    exact (Adds.refl c).shallower
  | .block header close body => by
    rw [step, Step.texts]
    have hbody := adds_steps (c.line header).deeper body
    exact (Adds.line c header).trans (hbody.of_deeper.shallower.trans (.line _ close))
  | .when condition body => by
    rw [step, Step.texts]
    cases condition with
    | true => exact adds_steps c body
    | false => exact .refl c

theorem adds_steps (c : Code) : (ss : List Step) → Adds (allTexts ss) c (steps c ss)
  | [] => by
    rw [steps, allTexts]
    exact .refl c
  | s :: ss => by
    rw [steps, allTexts]
    exact (adds_step c s).trans (adds_steps _ ss)

end

/-- What is written for a block alone: its header, and a line for each of its other texts. -/
theorem write_block (indent : Indent) (header close : Text) (body : List Step) :
    ∃ ls, List.Forall₂ (Behind indent) (allTexts body ++ [close]) ls ∧
      write indent [.block header close body] = Text.unlines (header :: ls) := by
  have hbody := adds_steps (Code.line { indent := indent } header).deeper body
  obtain ⟨-, ls, hls, ht⟩ := hbody.shallower.trans (.line _ close)
  refine ⟨ls, hls, ?_⟩
  rw [write, steps, steps, step]
  exact ht.trans (by simp [deeper, Code.line, Indent.ofLevel])

end Scaffold.Code
