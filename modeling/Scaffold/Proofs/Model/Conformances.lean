import Scaffold.Proofs.Model.Parts
import Scaffold.Proofs.Template.Dependence

/-! What the conformances of a model add to its file. Their marks stand on the last two lines of the
built-in template, below an empty line, and the lines above do not depend on them. Whatever strings
are in the model, the file ends without the empty line if it has no conformance, and otherwise with
one block or two. Main statement: `conformances_appended`. -/

namespace Scaffold.Model

open Template (clearsAbove isEmptySlot keptLines slot? slot_token substitute)

variable {m : Model} {indent : Indent} {fs : Fillings} {p : Placeholder}

/-- The file of a model with these conformances instead of its own. -/
def fileWith (indent : Indent) (m : Model) (c : Conformances) : Text :=
  (Template.builtin .model).render (fillings indent { m with conformances := c })

/-! ### The end of the template -/

/-- The last lines of the template, and the lines above them without the marks of conformances. -/
theorem exists_above_conformances : ∃ above : List Text,
    modelLines = above ++ responseHeader Placeholder.modelName.token ::
      [[], Placeholder.node.token, Placeholder.viewData.token] ∧
    ∀ l ∈ above ++ [responseHeader Placeholder.modelName.token],
      ¬Placeholder.node.token <:+: l ∧ ¬Placeholder.viewData.token <:+: l := by
  refine ⟨modelLines.take 59, ?_⟩
  unfold responseHeader modelLines Template.modelSource
  simp only [List.map_cons, List.map_nil]
  repeat rw [String.toList_ofList]
  decide +kernel

/-- A mark on a line of its own, with a text that shows or with none. -/
theorem keptLines_token (h : fs.text p = [] ∨ Text.isBlank (fs.text p) = false) (ls : List Text) :
    keptLines fs .lf (p.token :: ls) =
      (if (fs.text p).isEmpty then [] else [fs.text p]) ++ keptLines fs .lf ls := by
  have hempty := Template.isEmptySlot_eq fs (slot_token p)
  have hparts := Template.parts_token_append p []
  rw [List.append_nil] at hparts
  have hsub : substitute fs .lf p.token = fs.text p := by
    rw [Template.substitute_lf, hparts]
    exact List.append_nil _
  rw [keptLines, hsub, hempty]
  rcases h with h | h
  · rw [h]
    rfl
  · rw [h, Bool.false_and, Bool.or_false]

/-- The empty line above the marks stays if there is a text for one of them. -/
theorem keptLines_conformances (hnode : fs.text .node = [] ∨ Text.isBlank (fs.text .node) = false)
    (hview : fs.text .viewData = [] ∨ Text.isBlank (fs.text .viewData) = false) :
    keptLines fs .lf [[], Placeholder.node.token, Placeholder.viewData.token] =
      (if (fs.text .node).isEmpty && (fs.text .viewData).isEmpty then [] else [[]]) ++
        ((if (fs.text .node).isEmpty then [] else [fs.text .node]) ++
          ((if (fs.text .viewData).isEmpty then [] else [fs.text .viewData]) ++ [])) := by
  have hclears : clearsAbove fs [Placeholder.node.token, Placeholder.viewData.token] =
      ((fs.text .node).isEmpty && (fs.text .viewData).isEmpty) := by
    rw [clearsAbove, clearsAbove, Template.isEmptySlot_eq fs (slot_token _),
      Template.isEmptySlot_eq fs (slot_token _), List.head?_cons, Template.blankOrEnd,
      Template.isBlank_of_slot (slot_token _), Bool.false_or, List.head?_nil, Template.blankOrEnd,
      Bool.true_or, Bool.and_true]
  have hblank : Text.isBlank [] = true := rfl
  rw [keptLines, Template.isEmptySlot_of_isBlank hblank, Template.substitute_nil, hblank, hclears,
    keptLines_token hnode, keptLines_token hview, keptLines, Bool.false_or, Bool.true_and]

/-! ### The texts that depend on the conformances -/

theorem text_conformances (hn : p ≠ .node) (hv : p ≠ .viewData) (c c' : Conformances) :
    (fillings indent { m with conformances := c }).text p =
      (fillings indent { m with conformances := c' }).text p := by
  cases p <;> first | rfl | contradiction

/-- A block of its own, or nothing. -/
theorem text_block {t : Text} {b : Bool} (hl : layout indent p = .blocks)
    (hc : m.contributions indent p = some (if b then [t] else [])) :
    (m.fillings indent).text p = if b then
      (if p == .viewData && m.conformances.node then ['\n'] else []) ++ Filling.contribution t
    else [] := by
  rw [text_fillings hc, hl]
  cases b with
  | false => rfl
  | true => simp [Text.join]

/-! ### The file -/

theorem render_eq_keptLines (fs : Fillings) : (Template.builtin .model).render fs =
    Text.ofLines .lf true (keptLines fs .lf modelLines) := by
  have h := isSource_modelLines
  have hne : modelLines ≠ [] := by
    obtain ⟨above, hls, -⟩ := exists_above_conformances
    rw [hls]
    exact List.append_ne_nil_of_right_ne_nil _ (List.cons_ne_nil _ _)
  have hsource : Template.modelSource = Text.unlines modelLines :=
    h.source.trans (Text.ofLines_eq_unlines hne)
  have hending : Template.modelSource.ending = .lf := by
    rw [hsource, Text.ending_unlines fun l hl => (h.oneLine l hl).2]
  have hclosed : Template.modelSource.endsWithNewline = true := by
    rw [hsource, Text.endsWithNewline_unlines hne]
  have hbuiltin : (Template.builtin .model).source = Template.modelSource := rfl
  rw [Template.render_eq_ofLines, hbuiltin, hending, hclosed]
  rfl

/-- The last line of the template above the marks of conformances shows in every file. -/
theorem shown_responseHeader (fs : Fillings) :
    isEmptySlot fs (responseHeader Placeholder.modelName.token) = false ∧
      Text.isBlank (substitute fs .lf (responseHeader Placeholder.modelName.token)) = false := by
  have hslot : slot? (responseHeader Placeholder.modelName.token) = none := by decide +kernel
  have hregular : Template.isRegular (responseHeader Placeholder.modelName.token) = true := by
    decide +kernel
  exact ⟨Template.isEmptySlot_of_none fs hslot,
    Template.isBlank_substitute fs hregular hslot header_ne_nil⟩

/-- All lines but the last three of the template become the same for fillings that agree but for the
conformances. -/
theorem exists_render_eq (fs : Fillings) : ∃ front : Text, ∀ fs' : Fillings,
    (∀ p, p ≠ .node → p ≠ .viewData → fs'.text p = fs.text p) →
      (Template.builtin .model).render fs' = front ++ Text.unlines
        (keptLines fs' .lf [[], Placeholder.node.token, Placeholder.viewData.token]) := by
  obtain ⟨above, hls, habove⟩ := exists_above_conformances
  refine ⟨Text.unlines (keptLines fs .lf (above ++ [responseHeader Placeholder.modelName.token])),
    fun fs' h => ?_⟩
  obtain ⟨hkept, hshown⟩ := shown_responseHeader fs'
  have hsame : keptLines fs' .lf (above ++ [responseHeader Placeholder.modelName.token]) =
      keptLines fs .lf (above ++ [responseHeader Placeholder.modelName.token]) := by
    refine Template.keptLines_congr (fun l hl p hp => h p ?_ ?_) .lf
    · rintro rfl
      exact (habove l hl).1 (Template.slot_mem_parts_iff.1 hp)
    · rintro rfl
      exact (habove l hl).2 (Template.slot_mem_parts_iff.1 hp)
  -- The header shows, so what stands below it cannot take a line back above it.
  have hne : keptLines fs' .lf modelLines ≠ [] := by
    refine List.ne_nil_of_mem (Template.mem_keptLines ?_ hkept hshown)
    simp [hls]
  rw [render_eq_keptLines, Text.ofLines_eq_unlines hne, hls,
    Template.keptLines_append_cons hkept hshown, hsame, Text.unlines_append]

/-- The lines for the marks of conformances, with the empty line above them. -/
theorem unlines_keptLines_conformances (indent : Indent) (m : Model) :
    Text.unlines (keptLines (m.fillings indent) .lf
        [[], Placeholder.node.token, Placeholder.viewData.token]) =
      (if m.conformances.node then '\n' :: nodeConformance indent m.name else []) ++
        if m.conformances.viewData then '\n' :: viewDataConformance indent m.name else [] := by
  obtain ⟨s, hs⟩ : IsClosed (nodeConformance indent m.name) := isClosed_write _ _ _
  obtain ⟨t, ht⟩ : IsClosed (viewDataConformance indent m.name) := isClosed_write _ _ _
  -- Both blocks end in a brace, so their marks are not gone, whatever the name of the model is.
  have hbrace : ∀ u : Text, Text.isBlank (u ++ ['\x7d']) = false := fun u => by
    rw [Text.isBlank_append]
    exact Bool.and_false _
  have hnode := @text_block m indent .node (nodeConformance indent m.name)
    m.conformances.node rfl rfl
  have hview := @text_block m indent .viewData (viewDataConformance indent m.name)
    m.conformances.viewData rfl rfl
  rw [hs, contribution_append s (by decide)] at hnode
  rw [ht, contribution_append t (by decide)] at hview
  have hnodeShown : (m.fillings indent).text .node = [] ∨
      Text.isBlank ((m.fillings indent).text .node) = false := by
    rw [hnode]
    cases m.conformances.node
    · exact .inl rfl
    · exact .inr (hbrace s)
  have hviewShown : (m.fillings indent).text .viewData = [] ∨
      Text.isBlank ((m.fillings indent).text .viewData) = false := by
    rw [hview]
    cases m.conformances.viewData
    · exact .inl rfl
    · rw [if_pos rfl, Text.isBlank_append, hbrace, Bool.and_false]
      exact .inr rfl
  rw [keptLines_conformances hnodeShown hviewShown, hnode, hview, hs, ht]
  cases m.conformances.node <;> cases m.conformances.viewData <;> simp

/-- The file of a model is that of the model without conformances, and below it the blocks of its
conformances, each below an empty line. -/
theorem fileWith_eq (indent : Indent) (m : Model) (c : Conformances) :
    fileWith indent m c = fileWith indent m {} ++
      ((if c.node then '\n' :: nodeConformance indent m.name else []) ++
        if c.viewData then '\n' :: viewDataConformance indent m.name else []) := by
  obtain ⟨front, hfront⟩ := exists_render_eq (fillings indent { m with conformances := {} })
  have hfile : ∀ c, fileWith indent m c = front ++
      ((if c.node then '\n' :: nodeConformance indent m.name else []) ++
        if c.viewData then '\n' :: viewDataConformance indent m.name else []) := fun c => by
    rw [fileWith, hfront _ fun p hn hv => text_conformances hn hv c {},
      unlines_keptLines_conformances]
  rw [hfile c, hfile {}]
  simp

/-- Conformances do nothing to the file of a model but append their blocks to it, whatever strings
are in the model: one of them below an empty line, or both, with an empty line between them. -/
theorem conformances_appended (indent : Indent) (m : Model) : ∃ node viewData : Text,
    nodeConformance indent m.name = node ++ ['\n'] ∧
    viewDataConformance indent m.name = viewData ++ ['\n'] ∧
    fileWith indent m ⟨true, false⟩ =
      fileWith indent m ⟨false, false⟩ ++ ['\n'] ++ node ++ ['\n'] ∧
    fileWith indent m ⟨false, true⟩ =
      fileWith indent m ⟨false, false⟩ ++ ['\n'] ++ viewData ++ ['\n'] ∧
    fileWith indent m ⟨true, true⟩ =
      fileWith indent m ⟨false, false⟩ ++ ['\n'] ++ node ++ ['\n'] ++ ['\n'] ++ viewData ++
        ['\n'] := by
  obtain ⟨node, hnode⟩ : ∃ t, nodeConformance indent m.name = t ++ ['\n'] :=
    ⟨_, (isClosed_write _ _ _).contribution.symm⟩
  obtain ⟨viewData, hview⟩ : ∃ t, viewDataConformance indent m.name = t ++ ['\n'] :=
    ⟨_, (isClosed_write _ _ _).contribution.symm⟩
  refine ⟨node, viewData, hnode, hview, ?_, ?_, ?_⟩
  all_goals
    rw [fileWith_eq, hnode, hview]
    simp

end Scaffold.Model
