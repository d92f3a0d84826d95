import Scaffold.Proofs.Template.Marks
import Scaffold.Proofs.Text.Endings

/-! Rendering as one substitution. A template is rendered line by line, but where no line is left
out the result is that of replacing all marks of the source at once: every mark by its text, and
every other character by itself. The text for a mark is put in as it is, whatever it holds. Main
statement: `render_replaces_marks`. -/

namespace Scaffold.Template

variable {fs : Fillings} {e : Ending} {line : Text}

@[simp] theorem substitute_nil : substitute fs e [] = [] := rfl

theorem substitute_append_cons {c : Char} (hc : ∀ p : Placeholder, c ∉ p.token) (s t : Text) :
    substitute fs e (s ++ c :: t) = substitute fs e s ++ c :: substitute fs e t := by
  rw [substitute, parts_append_cons hc, List.flatMap_append, List.flatMap_cons]
  rfl

/-- A mark does not go over the end of a line. -/
theorem substitute_append_ending (s t : Text) (e' : Ending) :
    substitute fs e (s ++ e'.text ++ t) = substitute fs e s ++ e'.text ++ substitute fs e t := by
  have hn : ∀ p : Placeholder, '\n' ∉ p.token := fun p => p.ends_not_mem_token.1
  cases e' with
  | lf =>
    have h := @substitute_append_cons fs e '\n' hn s t
    simpa [Ending.text] using h
  | crlf =>
    have h := @substitute_append_cons fs e '\r' (fun p => p.ends_not_mem_token.2) s ('\n' :: t)
    have hnext := @substitute_append_cons fs e '\n' hn [] t
    rw [List.nil_append] at hnext
    rw [hnext] at h
    simpa [Ending.text] using h

theorem substitute_join (e' : Ending) (ls : List Text) :
    substitute fs e (Text.join e'.text ls) = Text.join e'.text (ls.map (substitute fs e)) := by
  induction ls with
  | nil => rfl
  | cons l ls ih =>
    rcases ls with _ | ⟨l', ls⟩
    · simp [Text.join]
    · rw [Text.join_cons_cons, substitute_append_ending, ih]
      simp [Text.join_cons_cons]

theorem substitute_ofLines (e' : Ending) (closed : Bool) (ls : List Text) :
    substitute fs e (Text.ofLines e' closed ls) =
      Text.ofLines e' closed (ls.map (substitute fs e)) := by
  cases closed with
  | false =>
    have h := @substitute_join fs e e' ls
    simpa [Text.ofLines] using h
  | true =>
    have h := @substitute_append_ending fs e (Text.join e'.text ls) [] e'
    rw [substitute_join, List.append_nil] at h
    simpa [Text.ofLines] using h

/-- A line is kept if it is no mark on its own, or if there is a text for the mark. -/
theorem isEmptySlot_eq_false (h : ∀ p : Placeholder, Text.trim line = p.token → fs.text p ≠ []) :
    isEmptySlot fs line = false := by
  unfold isEmptySlot
  split
  · next p hp =>
    have ht := List.find?_some hp
    rw [List.isEmpty_eq_false_iff]
    exact h p (of_decide_eq_true ht).symm
  · rfl

/-- Where every line is kept, each of them is rendered on its own. -/
theorem renderLines_of_kept {ls : List Text} (h : ∀ l ∈ ls, isEmptySlot fs l = false)
    (above : List Text) :
    renderLines fs e above ls = above.reverse ++ ls.map (substitute fs e) := by
  induction ls generalizing above with
  | nil => simp [renderLines]
  | cons l ls ih =>
    obtain ⟨hl, hls⟩ := List.forall_mem_cons.1 h
    rw [renderLines, hl, if_neg Bool.false_ne_true, ih hls]
    simp

/-- Where every line is kept, rendering is one substitution in the lines of the source. -/
theorem render_of_kept (t : Template) (h : ∀ l ∈ Text.lines t.source, isEmptySlot fs l = false) :
    t.render fs = substitute fs t.source.ending
      (Text.ofLines t.source.ending t.source.endsWithNewline (Text.lines t.source)) := by
  rw [substitute_ofLines, render, renderLines_of_kept h]
  rfl

/-- Rendering a source with one kind of line ending, and with a text for every mark that has a line
of its own, replaces the marks and nothing else. -/
theorem render_replaces_marks (t : Template) (fs : Fillings)
    (he : t.source.NoCrlf ∨ t.source.AllCrlf)
    (hf : ∀ line ∈ Text.lines t.source, ∀ p : Placeholder,
      Text.trim line = p.token → fs.text p ≠ []) :
    ∃ ps, IsReading ps t.source ∧ t.render fs = ps.flatMap (Part.text fs t.source.ending) := by
  have hkept : ∀ l ∈ Text.lines t.source, isEmptySlot fs l = false := fun l hl =>
    isEmptySlot_eq_false (hf l hl)
  refine ⟨parts t.source, parts_eq_iff.1 rfl, ?_⟩
  calc t.render fs
      = substitute fs t.source.ending
          (Text.ofLines t.source.ending t.source.endsWithNewline (Text.lines t.source)) :=
        render_of_kept t hkept
    _ = substitute fs t.source.ending t.source := by rw [Text.ofLines_lines he]

/-- A source with marks that adjoin, and texts that look like marks. -/
def titleTemplate : Template :=
  ⟨"VAR_VAR_TITLEVAR_NODE VAR_NOD\r\n VAR_TITLE\r\n\r\nE", .inline⟩

def titleFillings : Fillings :=
  .ofList [(.title, .ofText "VAR_NO\nDE"), (.node, .ofText "VAR_TITLE")]

theorem render_titleTemplate :
    titleTemplate.source.AllCrlf ∧
    (∀ line ∈ Text.lines titleTemplate.source, ∀ p : Placeholder,
      Text.trim line = p.token → titleFillings.text p ≠ []) ∧
    titleTemplate.render titleFillings =
      "VAR_VAR_NO\r\nDEVAR_TITLE VAR_NOD\r\n VAR_NO\r\nDE\r\n\r\nE" ∧
    ∃ ps, IsReading ps titleTemplate.source ∧
      titleTemplate.render titleFillings =
        ps.flatMap (Part.text titleFillings titleTemplate.source.ending) := by
  have he : titleTemplate.source.AllCrlf := by decide +kernel
  have hf : ∀ line ∈ Text.lines titleTemplate.source, ∀ p ∈ Placeholder.all,
      Text.trim line = p.token → titleFillings.text p ≠ [] := by
    decide +kernel
  have hf' := fun line hl p => hf line hl p (Placeholder.mem_all p)
  exact ⟨he, hf', by decide +kernel, render_replaces_marks _ _ (.inr he) hf'⟩

end Scaffold.Template
