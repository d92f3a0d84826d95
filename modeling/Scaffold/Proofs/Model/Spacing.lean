import Scaffold.Proofs.Model.Texts
import Scaffold.Proofs.Template.Spacing

/-! Blank lines around the conformances of a model. The empty line above the second of two
conformances is part of its text, whatever template it is put in. It is the only one between them
where their marks stand on adjacent lines; where the template itself has a blank line there, the
result has two. Main statement: `conformances_spaced_iff`. -/

namespace Scaffold.Model

open Template (infix_of_slot isEmptySlot isTidy parts slot? slot_mem_parts_iff slot_token)

variable {m : Model} {t : Template} {indent : Indent} {p : Placeholder} {l : Text}

/-- Between a blank line and the mark of the second conformance, a template has nothing but slots
with nothing to insert. -/
def Crowds (fs : Fillings) (t : Template) : Prop :=
  ∃ above b gone below,
    Text.lines t.source = above ++ b :: (gone ++ Placeholder.viewData.token :: below) ∧
    Text.isBlank b = true ∧ ∀ g ∈ gone, isEmptySlot fs g = true

/-- A template takes the texts of a model if the mark of the second conformance has lines of its
own, and so has the name only if it shows. -/
theorem takes_fillings (hm : ∀ s ∈ m.strings, '\n' ∉ s)
    (hview : Placeholder.viewData.token <:+: l → l = Placeholder.viewData.token)
    (hname : slot? l = some .modelName → m.name = [] ∨ Text.isBlank m.name = false) :
    Template.Takes (m.fillings indent) l where
  alone p hp := by
    by_cases hpn : p = .modelName
    · subst hpn
      rw [text_modelName (newline_not_mem_modelName hm)]
      rcases hname hp with h | h
      · exact .inl h
      · have hrow : Text.IsRow m.name := ⟨newline_not_mem_modelName hm, h⟩
        rw [hrow.blanks_eq]
        exact .inr ⟨rfl, .singleton _⟩
    · rcases text_cases hm indent hpn with h | ⟨t, ht, h⟩
      · exact .inl h
      · right
        rw [h]
        cases (p == .viewData && m.conformances.node) with
        | false => exact ⟨ht.last, ht.apart⟩
        | true =>
          have hlead : Text.blanks ('\n' :: t) = true :: Text.blanks t :=
            Text.blanks_append_newline [] t
          have hhead : ∀ b ∈ (Text.blanks t).head?, b = false := fun b hb => by
            rw [ht.head] at hb
            exact (Option.some.inj hb).symm
          rw [if_pos rfl, List.singleton_append, hlead, List.getLast?_cons, ht.last]
          exact ⟨rfl, List.isChain_cons.2 ⟨fun b hb => .inr (hhead b hb), ht.apart⟩⟩
  within hs p hp := by
    by_cases hpn : p = .modelName
    · rw [hpn, text_modelName (newline_not_mem_modelName hm)]
      exact Text.isInset_of_not_mem (newline_not_mem_modelName hm)
    · have hpv : p ≠ .viewData := by
        rintro rfl
        rw [hview (slot_mem_parts_iff.1 hp), slot_token] at hs
        cases hs
      rcases text_cases hm indent hpn with h | ⟨t, ht, h⟩
      · rw [h]
        exact .inl rfl
      · rw [h, beq_eq_false_iff_ne.2 hpv]
        exact .inr ht

/-- The only text that begins with a blank line is that of the second of two conformances. -/
theorem head_text_iff (hm : ∀ s ∈ m.strings, '\n' ∉ s)
    (hname : p = .modelName → m.name = [] ∨ Text.isBlank m.name = false) :
    (m.fillings indent).text p ≠ [] ∧
        (Text.blanks ((m.fillings indent).text p)).head? = some true ↔
      p = .viewData ∧ m.conformances.node = true ∧ m.conformances.viewData = true := by
  constructor
  · rintro ⟨hne, hhead⟩
    have hpn : p ≠ .modelName := by
      rintro rfl
      rw [text_modelName (newline_not_mem_modelName hm)] at hne hhead
      have hrow : Text.IsRow m.name :=
        ⟨newline_not_mem_modelName hm, (hname rfl).resolve_left hne⟩
      rw [hrow.blanks_eq] at hhead
      cases hhead
    obtain ⟨t, ht, h⟩ := (text_cases hm indent hpn).resolve_left hne
    cases hlead : (p == .viewData && m.conformances.node) with
    | false =>
      rw [h, hlead, if_neg Bool.false_ne_true, List.nil_append, ht.head] at hhead
      cases hhead
    | true =>
      obtain ⟨hp, hnode⟩ := Bool.and_eq_true_iff.1 hlead
      obtain rfl := eq_of_beq hp
      refine ⟨rfl, hnode, ?_⟩
      by_contra hview
      exact hne ((text_eq_nil_iff hm hpn rfl).2 (if_neg hview))
  · rintro ⟨rfl, hnode, hview⟩
    have hc : m.contributions indent .viewData = some [viewDataConformance indent m.name] := by
      rw [contributions, if_pos hview]
    have hne : (m.fillings indent).text .viewData ≠ [] := fun h =>
      List.cons_ne_nil _ _ ((text_eq_nil_iff hm (by decide) hc).1 h)
    have hpn : Placeholder.viewData ≠ .modelName := by decide
    obtain ⟨t, -, h⟩ := (text_cases hm indent hpn).resolve_left hne
    refine ⟨hne, ?_⟩
    rw [h, hnode]
    exact congrArg List.head? (Text.blanks_append_newline [] t)

/-- A template that the texts of a model can be put in without two blank lines next to each other,
where it is not crowded. -/
theorem accepts_fillings (indent : Indent) (hsp : Text.SingleBlanks (Text.lines t.source))
    (hend : Text.EndsShown (Text.lines t.source))
    (htidy : ∀ l ∈ Text.lines t.source, isTidy l = true) (hm : ∀ s ∈ m.strings, '\n' ∉ s)
    (hview : ∀ l ∈ Text.lines t.source, Placeholder.viewData.token <:+: l →
      l = Placeholder.viewData.token)
    (hname : m.name = [] ∨ Text.isBlank m.name = false ∨
      ∀ l ∈ Text.lines t.source, slot? l ≠ some .modelName) :
    t.Accepts (m.fillings indent) :=
  ⟨hsp, hend, htidy, fun l hl => takes_fillings hm (hview l hl) fun hs => by
    rcases hname with h | h | h
    · exact .inl h
    · exact .inr h
    · exact absurd hs (h l hl)⟩

theorem doubles_fillings_iff (ha : t.Accepts (m.fillings indent)) (hm : ∀ s ∈ m.strings, '\n' ∉ s)
    (hview : ∀ l ∈ Text.lines t.source, Placeholder.viewData.token <:+: l →
      l = Placeholder.viewData.token)
    (hname : m.name = [] ∨ Text.isBlank m.name = false ∨
      ∀ l ∈ Text.lines t.source, slot? l ≠ some .modelName) :
    Template.Doubles (m.fillings indent) t.source.ending (Text.lines t.source) ↔
      m.conformances.node = true ∧ m.conformances.viewData = true ∧
        Crowds (m.fillings indent) t := by
  rw [ha.doubles_iff]
  constructor
  · rintro ⟨above, b, gone, l, below, p, hls, hb, hgone, hp, htext⟩
    have hl : l ∈ Text.lines t.source := by simp [hls]
    have hpn : p = .modelName → m.name = [] ∨ Text.isBlank m.name = false := by
      rintro rfl
      rcases hname with h | h | h
      · exact .inl h
      · exact .inr h
      · exact absurd hp (h l hl)
    obtain ⟨rfl, hnode, hviewData⟩ := (head_text_iff hm hpn).1 htext
    obtain rfl := hview l hl (infix_of_slot hp)
    exact ⟨hnode, hviewData, above, b, gone, below, hls, hb, hgone⟩
  · rintro ⟨hnode, hviewData, above, b, gone, below, hls, hb, hgone⟩
    have hpn : Placeholder.viewData = .modelName → m.name = [] ∨ Text.isBlank m.name = false := by
      intro h
      cases h
    exact ⟨above, b, gone, _, below, .viewData, hls, hb, hgone, slot_token _,
      (head_text_iff hm hpn).2 ⟨rfl, hnode, hviewData⟩⟩

/-- In a template with single blank lines, tidy lines and a line of its own for the mark of the
second conformance, a model without line feeds in its strings makes two blank lines adjoin exactly
if it has both conformances and the template has a blank line above that mark. A name of blanks must
not have a line of its own, for it would be a blank line. -/
theorem conformances_spaced_iff (t : Template) (m : Model) (indent : Indent)
    (hsp : Text.SingleBlanks (Text.lines t.source)) (hend : Text.EndsShown (Text.lines t.source))
    (htidy : ∀ l ∈ Text.lines t.source, isTidy l = true) (hm : ∀ s ∈ m.strings, '\n' ∉ s)
    (hview : ∀ l ∈ Text.lines t.source, Placeholder.viewData.token <:+: l →
      l = Placeholder.viewData.token)
    (hname : m.name = [] ∨ Text.isBlank m.name = false ∨
      ∀ l ∈ Text.lines t.source, slot? l ≠ some .modelName) :
    Text.SingleBlanks (Text.lines (t.render (m.fillings indent))) ↔
      ¬(m.conformances.node = true ∧ m.conformances.viewData = true ∧
        Crowds (m.fillings indent) t) := by
  have ha := accepts_fillings indent hsp hend htidy hm hview hname
  rw [ha.singleBlanks_render_iff, doubles_fillings_iff ha hm hview hname]

/-- A source with a blank line between the marks of the conformances. -/
def partedTemplate : Template :=
  ⟨Text.ofLines .lf true (List.map String.toList ["VAR_NODE", "", "VAR_VIEW_DATA"]), .inline⟩

def userModel : Model :=
  ⟨"User", none, [⟨"name", .scalar .string, false⟩], ⟨true, true⟩⟩

theorem conformances_doubled :
    Text.SingleBlanks (Text.lines partedTemplate.source) ∧
    Text.EndsShown (Text.lines partedTemplate.source) ∧
    (∀ l ∈ Text.lines partedTemplate.source, isTidy l = true) ∧
    (∀ s ∈ userModel.strings, '\n' ∉ s) ∧
    (∀ l ∈ Text.lines partedTemplate.source, Placeholder.viewData.token <:+: l →
      l = Placeholder.viewData.token) ∧
    Text.isBlank userModel.name = false ∧
    ¬Text.SingleBlanks (Text.lines (partedTemplate.render (userModel.fillings .standard))) := by
  have hsp : Text.SingleBlanks (Text.lines partedTemplate.source) := by decide +kernel
  have hend : Text.EndsShown (Text.lines partedTemplate.source) := by decide +kernel
  have htidy : ∀ l ∈ Text.lines partedTemplate.source, isTidy l = true := by decide +kernel
  have hm : ∀ s ∈ userModel.strings, '\n' ∉ s := by decide +kernel
  have hview : ∀ l ∈ Text.lines partedTemplate.source, Placeholder.viewData.token <:+: l →
      l = Placeholder.viewData.token := by
    decide +kernel
  have hname : Text.isBlank userModel.name = false := by decide +kernel
  have hcrowds : Crowds (userModel.fillings .standard) partedTemplate :=
    ⟨["VAR_NODE"], [], [], [], by decide +kernel, rfl, by simp⟩
  refine ⟨hsp, hend, htidy, hm, hview, hname, fun hspaced => ?_⟩
  exact (conformances_spaced_iff _ _ _ hsp hend htidy hm hview (.inr (.inl hname))).1 hspaced
    ⟨rfl, rfl, hcrowds⟩

end Scaffold.Model
