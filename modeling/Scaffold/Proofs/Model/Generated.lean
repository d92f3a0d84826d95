import Scaffold.Proofs.Model.Outline
import Scaffold.Proofs.Model.Texts
import Scaffold.Proofs.Template.Forward

/-! The built-in template, filled for a model whose names are words, is the outline of the model
written out: `render_eq_outline`. The lines of a slot have their first margin from the template and
the others from the table of depths, and blocks have theirs from the writer of nested code. -/

namespace Scaffold.Model

variable {m : Model} {p : Placeholder} {ts : List Text} {os : List Outline}

/-- The lines of a model in place of a slot. -/
def slots (m : Model) (p : Placeholder) : List Text :=
  match layout .standard p with
  | .blocks => Outline.allLines 0 (
      if p == .viewData && m.conformances.node then Outline.setOff ((m.blocks p).intersperse .blank)
      else (m.blocks p).intersperse .blank)
  | _ => Outline.allLines p.depth.level (m.rows p)

/-- The places with lines of their own in the template. -/
def standing : List Placeholder :=
  [.entity, .properties, .initBody, .rowInit, .makeRow, .jsonInit, .makeJson, .builder, .keys,
    .parents, .node, .viewData]

/-! ### The template -/

/-- The conformances with an empty line above each of them, as they come from two slots. -/
theorem allLines_conformances (m : Model) :
    Outline.allLines 0
        (Outline.setOff ((m.blocks .node ++ m.blocks .viewData).intersperse .blank)) =
      (if (m.slots .viewData).isEmpty && (m.slots .node).isEmpty then [] else [[]]) ++
        (m.slots .node ++ (m.slots .viewData ++ [])) := by
  obtain ⟨name, entity, fields, ⟨node, viewData⟩⟩ := m
  cases node <;> cases viewData <;> rfl

/-- The lines of the built-in template. -/
def modelLines : List Text :=
  Text.lines Template.modelSource

/-- What rendering needs to know of the lines of the template. -/
structure IsSource (ls : List Text) : Prop where
  source : Template.modelSource = Text.ofLines .lf true ls
  oneLine : ∀ l ∈ ls, '\n' ∉ l ∧ '\r' ∉ l
  regular : ∀ l ∈ ls, Template.isRegular l = true
  places : ∀ l ∈ ls, (Template.slot? l).all (· ∈ standing) = true
  spaced : Template.Spaced ls

theorem isSource_modelLines : IsSource modelLines := by
  suffices h : Template.modelSource = Text.ofLines .lf true modelLines ∧
      (∀ l ∈ modelLines, '\n' ∉ l ∧ '\r' ∉ l) ∧ (∀ l ∈ modelLines, Template.isRegular l = true) ∧
      (∀ l ∈ modelLines, (Template.slot? l).all (· ∈ standing) = true) ∧
      Template.Spaced modelLines from ⟨h.1, h.2.1, h.2.2.1, h.2.2.2.1, h.2.2.2.2⟩
  rw [Template.Spaced, modelLines, Template.modelSource]
  simp only [List.map_cons, List.map_nil]
  -- As lists of characters the lines are quick to compute with.
  repeat rw [String.toList_ofList]
  decide +kernel

set_option maxRecDepth 10000 in
/-- With the lines of a model in its slots, the lines of the template are those of the outline. -/
theorem written_modelLines {m : Model} {text : Placeholder → Text}
    (hname : text .modelName = m.name) (hparams : text .initParams = m.params) :
    Template.written text m.slots modelLines = Outline.allLines 0 m.outline := by
  suffices h : ∃ ls, Template.modelSource = Text.ofLines .lf true ls ∧ ls ≠ [] ∧
      (∀ l ∈ ls, '\n' ∉ l ∧ '\r' ∉ l) ∧
      Template.written text m.slots ls = Outline.allLines 0 m.outline by
    obtain ⟨ls, hls, hne, hline, hw⟩ := h
    rwa [modelLines, hls, Text.ofLines_eq_unlines hne, Text.lines_unlines hline]
  rw [Template.modelSource, outline, declaration, columnKeys, preparation, conversion, ← hname,
    ← hparams, Outline.allLines_append, allLines_conformances]
  simp only [Outline.allLines_append, Outline.allLines_cons, Outline.allLines_nil, Outline.lines,
    Outline.allLines_setOff, List.append_assoc, List.cons_append, List.nil_append, List.map_cons,
    List.map_nil]
  repeat rw [String.toList_ofList]
  exact ⟨_, rfl, List.cons_ne_nil _ _, by decide +kernel, rfl⟩

/-- The template is rendered line by line if all its slots show lines. -/
theorem render_modelLines {fs : Fillings} {slots : Placeholder → List Text}
    (hs : ∀ p ∈ standing, Template.Shows fs slots p)
    (hne : Template.written fs.text slots modelLines ≠ []) :
    (Template.builtin .model).render fs =
      Text.unlines (Template.written fs.text slots modelLines) := by
  have h := isSource_modelLines
  refine Template.render_eq_unlines h.source h.oneLine h.regular h.spaced ?_ hne
  intro l hl p hp
  have hst := h.places l hl
  rw [hp] at hst
  exact hs p (of_decide_eq_true hst)

/-! ### Slots -/

theorem map_contribution (h : ∀ t ∈ ts, Fits 0 t) : ts.map Filling.contribution = ts := by
  rw [List.map_congr_left fun t ht => contribution_of_not_mem (h t ht).oneLine.1, List.map_id']

/-- Lines of fields: the first one behind the margin of the slot, the others behind their own. -/
theorem shows_rows (hl : layout .standard p = .lines (margin p.depth.level))
    (hc : m.contributions .standard p = some ts)
    (hfits : ∀ t ∈ (m.contributions .standard p).getD [], Fits 0 t) :
    Template.Shows (m.fillings .standard) m.slots p := by
  rw [hc, Option.getD_some] at hfits
  have hview : (p == .viewData) = false := by
    rw [beq_eq_false_iff_ne]
    rintro rfl
    cases hl
  have hself := map_contribution hfits
  have hslots : m.slots p = ts.map (margin p.depth.level ++ ·) := by
    rw [slots, hl, rows, hc, Option.getD_some, Outline.allLines_map_line]
  have htext := text_fillings hc
  rw [hview, Bool.false_and, if_neg Bool.false_ne_true, List.nil_append, hself, hl] at htext
  rcases ts with _ | ⟨t, ts⟩
  · exact ⟨fun _ => hslots, fun h => absurd htext h⟩
  · have ht := hfits t List.mem_cons_self
    have hb := isBlank_text hc (by rw [contribution_of_not_mem ht.oneLine.1, ht.isBlank])
    refine ⟨fun h => ?_, fun _ => ⟨hb, ?_⟩⟩
    · rw [h] at hb
      cases hb
    · rw [htext, if_neg (List.cons_ne_nil t ts), hslots]
      exact Text.unlines_map_append (List.cons_ne_nil t ts) _

/-- The text of a block. -/
structure IsBlockText (o : Outline) (t : Text) : Prop where
  close : IsClosed t
  lines : t = Text.unlines (o.lines 0)

theorem IsBlockText.contribution {o : Outline} {t : Text} (h : IsBlockText o t) :
    Filling.contribution t ++ ['\n'] = Text.unlines (o.lines 0) :=
  h.close.contribution.trans h.lines

theorem isBlockText_block (header : Text) (body : List Outline) :
    IsBlockText (.block header body) (Text.unlines (Outline.lines 0 (.block header body))) :=
  ⟨⟨margin 0 ++ header ++ '\n' :: Text.unlines (Outline.allLines 1 body), by
    simp [Outline.lines, margin_eq]⟩, rfl⟩

/-- Blocks with an empty line between two of them. -/
theorem join_blocks (h : List.Forall₂ IsBlockText os ts) (hne : ts ≠ []) :
    Text.join ['\n', '\n'] (ts.map Filling.contribution) ++ ['\n'] =
      Text.unlines (Outline.allLines 0 (os.intersperse .blank)) := by
  induction h with
  | nil => exact absurd rfl hne
  | @cons o t os ts ho hos ih =>
    rcases hos with _ | ⟨ho', hos⟩
    · simpa [Text.join] using ho.contribution
    · rw [List.map_cons, List.map_cons, Text.join_cons_cons, ← List.map_cons, List.append_assoc,
        ih (List.cons_ne_nil _ _), List.intersperse_cons_cons, Outline.allLines_cons,
        Outline.allLines_cons, Text.unlines_append, ← ho.contribution]
      simp [Outline.lines]

/-- Blocks of a model: they are written with their margins. -/
theorem shows_blocks (hl : layout .standard p = .blocks) (hd : p.depth = .file)
    (hc : m.contributions .standard p = some ts) (hb : List.Forall₂ IsBlockText (m.blocks p) ts) :
    Template.Shows (m.fillings .standard) m.slots p := by
  have htext := text_fillings hc
  have hslots : m.slots p = Outline.allLines 0 (
      if p == .viewData && m.conformances.node then Outline.setOff ((m.blocks p).intersperse .blank)
      else (m.blocks p).intersperse .blank) := by
    rw [slots, hl]
  have hmargin : margin p.depth.level = [] := by rw [hd]; rfl
  rw [hl] at htext
  generalize (p == .viewData && m.conformances.node) = leading at htext hslots
  generalize m.blocks p = os at hb hslots
  rcases hb with _ | ⟨ho, hos⟩
  · exact ⟨fun _ => by rw [hslots]; cases leading <;> rfl, fun h => absurd htext h⟩
  · next o t os ts =>
    have hjoin := join_blocks (.cons ho hos) (List.cons_ne_nil t ts)
    have hb := isBlank_text hc ho.close.isBlank
    refine ⟨fun h => ?_, fun _ => ⟨hb, ?_⟩⟩
    · rw [h] at hb
      cases hb
    · have hne : (o :: os).intersperse .blank ≠ [] := by
        cases os <;> simp
      rw [hslots, htext, if_neg (List.cons_ne_nil t ts), hmargin, List.nil_append,
        List.append_assoc, Filling.Layout.separator, hjoin]
      cases leading with
      | false => rfl
      | true =>
        rw [if_pos rfl, if_pos rfl, Outline.setOff, if_neg (by simpa using hne)]
        rfl

/-! ### Blocks as they are written -/

theorem parentAccessor_eq (model : Text) (f : Field) :
    parentAccessor .standard model f = Text.unlines ((accessor model f).lines 0) := by
  unfold parentAccessor accessor
  cases f.isOptional <;>
    simp [Code.write, Code.steps, Code.step, Code.line, Code.deeper, Code.shallower, braced,
      Outline.lines, margin]

theorem conformance_eq (model protocol signature body : Text) :
    conformance .standard model protocol signature body =
      Text.unlines ((conforming model protocol signature body).lines 0) := by
  simp [conformance, conforming, Code.write, Code.steps, Code.step, Code.line, Code.deeper,
    Code.shallower, braced, Outline.lines, margin]

theorem blockTexts_parents (m : Model) :
    List.Forall₂ IsBlockText (m.blocks .parents)
      (m.relations.map (parentAccessor .standard m.name)) := by
  refine List.forall₂_map_left_iff.2 (List.forall₂_map_right_iff.2 (List.forall₂_same.2 ?_))
  intro f _
  rw [parentAccessor_eq]
  exact isBlockText_block _ _

theorem blockTexts_conformance (b : Bool) (model protocol signature body : Text) :
    List.Forall₂ IsBlockText (if b then [conforming model protocol signature body] else [])
      (if b then [conformance .standard model protocol signature body] else []) := by
  cases b with
  | false => exact .nil
  | true =>
    rw [conformance_eq]
    exact .cons (isBlockText_block _ _) .nil

/-! ### Rendering -/

theorem shows_standing (hm : m.Spelled)
    (he : ∃ naming : Naming, m.entity = naming.entityName m.name) (hp : p ∈ standing) :
    Template.Shows (m.fillings .standard) m.slots p := by
  have hfield : ∀ q ∈ Placeholder.fieldIndexed, layout .standard q = .lines (margin q.depth.level) →
      Template.Shows (m.fillings .standard) m.slots q := fun q hq hl =>
    shows_rows hl (contributions_eq hq) (fits_contribution hm hq)
  cases p
  case modelName | initParams | controllerName | title => exact absurd hp (by decide)
  case entity => exact shows_rows rfl rfl (fits_entity hm he)
  case parents => exact shows_blocks rfl rfl rfl (blockTexts_parents m)
  case node => exact shows_blocks rfl rfl rfl (blockTexts_conformance _ _ _ _ _)
  case viewData => exact shows_blocks rfl rfl rfl (blockTexts_conformance _ _ _ _ _)
  all_goals exact hfield _ (by decide) rfl

theorem text_initParams (hm : m.Spelled) : (m.fillings .standard).text .initParams = m.params := by
  have hp : Placeholder.initParams ∈ Placeholder.fieldIndexed := by decide
  have hc := @contributions_eq m .initParams .standard hp
  have hfits := fits_contribution hm hp
  rw [params, text_fillings hc]
  rw [hc, Option.getD_some] at hfits ⊢
  rw [map_contribution hfits]
  split
  · next h => rw [h]; rfl
  · rfl

/-- The text that is generated for a model is its outline, written out. -/
theorem render_eq_outline (hm : m.Spelled)
    (he : ∃ naming : Naming, m.entity = naming.entityName m.name) :
    (Template.builtin .model).render (m.fillings .standard) =
      Text.unlines (Outline.allLines 0 m.outline) := by
  have hw := written_modelLines (text_modelName (hm.name.not_mem rfl)) (text_initParams hm)
  have hne : Template.written (m.fillings .standard).text m.slots modelLines ≠ [] := by
    rw [hw]
    exact List.cons_ne_nil _ _
  rw [← hw]
  exact render_modelLines (fun _ => shows_standing hm he) hne

end Scaffold.Model
