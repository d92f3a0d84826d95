import Mathlib.Data.List.DropRight
import Scaffold.Model.Assembly
import Scaffold.Proofs.Layout.Code
import Scaffold.Proofs.Text.Blanks
import Scaffold.Proofs.Text.Words

/-! The texts of a model, for any indentation and any strings within one line. What a field or a
table contributes is one line that is not blank, and a block has no blank lines; so the texts are
framed by lines that are not blank, and only that of the second conformance may have a blank line in
front (`text_cases`). -/

namespace Scaffold

/-- The strings in a field. -/
def Field.strings (f : Field) : List Text :=
  match f.type with
  | .scalar _ => [f.name]
  | .relation r => [f.name, r]

namespace Model

/-- The strings in a model. -/
def strings (m : Model) : List Text :=
  m.name :: m.entity.toList ++ m.fields.flatMap Field.strings

variable {m : Model} {f : Field} {model t : Text} {p : Placeholder} {ts ls : List Text}
  {indent : Indent}

/-! ### Contributions -/

theorem contribution_of_not_mem (h : '\n' ∉ t) : Filling.contribution t = t := by
  refine List.rdropWhile_eq_self_iff.2 fun hne hc => h ?_
  rw [← of_decide_eq_true hc]
  exact List.getLast_mem hne

/-- A text that ends with one line feed loses it and nothing else. -/
theorem contribution_append {c : Char} (s : Text) (hc : c ≠ '\n') :
    Filling.contribution (s ++ [c, '\n']) = s ++ [c] := by
  have htwo : s ++ [c, '\n'] = (s ++ [c]) ++ ['\n'] := by simp
  rw [htwo, Filling.contribution, Text.dropEndWhile_eq,
    List.rdropWhile_concat_pos _ _ _ (by decide),
    List.rdropWhile_concat_neg _ _ _ (by simpa using hc)]

theorem text_fillings (h : m.contributions indent p = some ts) :
    (m.fillings indent).text p = if ts = [] then [] else
      (if p == .viewData && m.conformances.node then ['\n'] else []) ++
        Text.join (layout indent p).separator (ts.map Filling.contribution) := by
  simp [Fillings.text, fillings, h, Filling.text, Filling.ofList]

/-- A contribution that is not blank shows in the text. -/
theorem isBlank_text (h : m.contributions indent p = some (t :: ts))
    (ht : Text.isBlank (Filling.contribution t) = false) :
    Text.isBlank ((m.fillings indent).text p) = false := by
  rw [text_fillings h, if_neg (List.cons_ne_nil t ts), Text.isBlank_append, List.map_cons,
    Text.isBlank_join ht, Bool.and_false]

/-- The name stands in the file as it is. -/
theorem text_modelName (hm : '\n' ∉ m.name) : (m.fillings indent).text .modelName = m.name := by
  rw [text_fillings rfl, if_neg (List.cons_ne_nil _ _), List.map_singleton,
    contribution_of_not_mem hm]
  simp [Text.join]

/-! ### Lines -/

theorem newline_not_mem_declaredType (f : Field) : '\n' ∉ f.declaredType := by
  have hmark : '\n' ∉ (if f.isOptional then ['?'] else [] : Text) := by
    cases f.isOptional <;> decide
  have htype : '\n' ∉ f.type.swiftType := by
    cases f.type with
    | scalar s => cases s <;> decide
    | relation r => exact (by decide : '\n' ∉ ("Identifier" : Text))
  exact fun hm => (List.mem_append.1 hm).elim htype hmark

theorem newline_not_mem_name (hf : ∀ s ∈ f.strings, '\n' ∉ s) : '\n' ∉ f.name := by
  refine hf _ ?_
  unfold Field.strings
  split <;> exact List.mem_cons_self

theorem newline_not_mem_columnKey (hm : '\n' ∉ model) (hf : ∀ s ∈ f.strings, '\n' ∉ s) :
    '\n' ∉ columnKey model f.name := by
  have hname := newline_not_mem_name hf
  simp only [columnKey, List.mem_append, not_or]
  and_intros <;> first | assumption | decide

theorem isRow_schemaCall (hm : '\n' ∉ model) (hf : ∀ s ∈ f.strings, '\n' ∉ s) :
    Text.IsRow (schemaCall model f) := by
  have hkey := newline_not_mem_columnKey hm hf
  have hmark : '\n' ∉ (if f.isOptional then ", optional: true" else [] : Text) := by
    cases f.isOptional <;> decide
  have hbuilder : Text.IsRow "builder." := by decide
  have hparent : Text.IsRow "builder.parent(" := by decide
  rw [schemaCall]
  cases ht : f.type with
  | scalar s =>
    have hcolumn : '\n' ∉ s.column := by cases s <;> decide
    exact ((((hbuilder.append hcolumn).append (by decide)).append hkey).append hmark).append
      (by decide)
  | relation r =>
    have hr : '\n' ∉ Text.capitalize r := by
      refine Text.newline_not_mem_capitalize (hf r ?_)
      rw [Field.strings, ht]
      simp
    exact (((((hparent.append hr).append (by decide)).append hmark).append (by decide)).append
      hkey).append (by decide)

theorem isRow_fieldLine (hm : '\n' ∉ model) (hf : ∀ s ∈ f.strings, '\n' ∉ s)
    (h : fieldLine model f p = some t) : Text.IsRow t := by
  have hname := newline_not_mem_name hf
  have htype := newline_not_mem_declaredType f
  have hkey := newline_not_mem_columnKey hm hf
  have hcall := isRow_schemaCall hm hf
  have hsep : Text.IsRow ": " := by decide
  have hget : Text.IsRow " = try row.get(" := by decide
  have hjson : Text.IsRow " = try json.get(" := by decide
  cases p <;> cases h
  case properties =>
    exact (((by decide : Text.IsRow "var ").append hname).append (by decide)).append htype
  case initParams => exact (hsep.prepend hname).append htype
  case initBody =>
    exact (((by decide : Text.IsRow "self.").append hname).append (by decide)).append hname
  case rowInit => exact ((hget.prepend hname).append hkey).append (by decide)
  case jsonInit => exact ((hjson.prepend hname).append hkey).append (by decide)
  case makeRow =>
    exact ((((by decide : Text.IsRow "try row.set(").append hkey).append (by decide)).append
      hname).append (by decide)
  case makeJson =>
    exact ((((by decide : Text.IsRow "try json.set(").append hkey).append (by decide)).append
      hname).append (by decide)
  case builder => exact hcall
  case keys => exact (by decide : Text.IsRow "case ").append hname

/-! ### Blocks -/

/-- A text of lines that are not blank, below a header. -/
def IsBlock (header t : Text) : Prop :=
  ∃ ls, t = Text.unlines (header :: ls) ∧ ∀ l ∈ header :: ls, Text.IsRow l

/-- A text that ends with a closing brace on a line. -/
def IsClosed (t : Text) : Prop :=
  ∃ s, t = s ++ ['\x7d', '\n']

/-- Its line feed is dropped from a contribution, and is written again behind it. -/
theorem IsClosed.contribution (h : IsClosed t) : Filling.contribution t ++ ['\n'] = t := by
  obtain ⟨s, rfl⟩ := h
  rw [contribution_append s (by decide)]
  simp

theorem IsClosed.isBlank (h : IsClosed t) : Text.isBlank (Filling.contribution t) = false := by
  obtain ⟨s, rfl⟩ := h
  rw [contribution_append s (by decide), Text.isBlank_append]
  exact Bool.and_false _

theorem isClosed_write (indent : Indent) (header : Text) (body : List Code.Step) :
    IsClosed (Code.write indent [braced header body]) := by
  obtain ⟨ls, hls, ht⟩ := Code.write_block indent (opening header) ['\x7d'] body
  have hrev := List.forall₂_reverse_iff.2 hls
  rw [List.reverse_append] at hrev
  obtain ⟨l, above, ⟨level, rfl⟩, -, hl⟩ := List.forall₂_cons_left_iff.1 hrev
  refine ⟨Text.unlines (opening header :: above.reverse) ++ indent.ofLevel level, ?_⟩
  rw [braced, ht, ← List.reverse_reverse ls, hl]
  simp

theorem IsBlock.framed {header : Text} (h : IsBlock header t) (ht : IsClosed t) :
    Text.Framed (Text.blanks (Filling.contribution t)) := by
  have hself := ht.contribution
  obtain ⟨ls, rfl, hls⟩ := h
  have hblanks := Text.blanks_unlines hls
  rw [← hself, Text.blanks_append_newline] at hblanks
  have hall := List.append_cancel_right hblanks
  refine Text.framed_of_forall (Text.blanks_ne_nil _) fun b hb => ?_
  rw [hall] at hb
  exact List.eq_of_mem_replicate hb

theorem newline_not_mem_ofLevel (indent : Indent) (level : Nat) : '\n' ∉ indent.ofLevel level := by
  intro hm
  have hc := List.eq_of_mem_replicate hm
  cases indent <;> cases hc

/-- White space in front of a line does not make it blank. -/
theorem isRow_of_behind (h : List.Forall₂ (Code.Behind indent) ts ls)
    (hts : ∀ t ∈ ts, Text.IsRow t) : ∀ l ∈ ls, Text.IsRow l := by
  induction h with
  | nil => exact hts
  | cons hl _ ih =>
    obtain ⟨level, rfl⟩ := hl
    obtain ⟨ht, hts⟩ := List.forall_mem_cons.1 hts
    exact List.forall_mem_cons.2 ⟨ht.prepend (newline_not_mem_ofLevel indent level), ih hts⟩

/-- Code within braces is a block if the texts in it are lines that are not blank. -/
theorem isBlock_write (indent : Indent) {header : Text} {body : List Code.Step}
    (hheader : '\n' ∉ header) (hbody : ∀ t ∈ Code.allTexts body, Text.IsRow t) :
    IsBlock (opening header) (Code.write indent [braced header body]) := by
  obtain ⟨ls, hls, ht⟩ := Code.write_block indent (opening header) ['\x7d'] body
  have hclose : ∀ t ∈ Code.allTexts body ++ [['\x7d']], Text.IsRow t :=
    List.forall_mem_append.2 ⟨hbody, List.forall_mem_singleton.2 (by decide)⟩
  have hopen : Text.IsRow (opening header) := (by decide : Text.IsRow " \x7b").prepend hheader
  exact ⟨ls, ht, List.forall_mem_cons.2 ⟨hopen, isRow_of_behind hls hclose⟩⟩

/-- The first line of the extension with a conformance. -/
def conformanceHeader (model protocol : Text) : Text :=
  opening ("extension " ++ model ++ ": " ++ protocol)

theorem isBlock_conformance (indent : Indent) (hm : '\n' ∉ model) {protocol signature body : Text}
    (hp : '\n' ∉ protocol) (hs : '\n' ∉ signature) (hb : Text.IsRow body) :
    IsBlock (conformanceHeader model protocol)
      (conformance indent model protocol signature body) := by
  refine isBlock_write indent ?_ ?_
  · simp only [List.mem_append, not_or]
    and_intros <;> first | assumption | decide
  · have hopen : Text.IsRow (opening signature) := (by decide : Text.IsRow " \x7b").prepend hs
    have hclose : Text.IsRow ['\x7d'] := by decide
    refine Code.forall_mem_allTexts_cons.2 ⟨Code.forall_mem_texts_block.2 ⟨hopen, ?_, hclose⟩,
      Code.forall_mem_allTexts_nil⟩
    exact Code.forall_mem_allTexts_cons.2 ⟨Code.forall_mem_texts_line.2 hb,
      Code.forall_mem_allTexts_nil⟩

theorem isBlock_parentAccessor (indent : Indent) (hm : '\n' ∉ model)
    (hf : ∀ s ∈ f.strings, '\n' ∉ s) :
    IsBlock (opening ("extension " ++ model)) (parentAccessor indent model f) := by
  have hname := newline_not_mem_name hf
  have htarget : '\n' ∉ f.type.target?.getD [] := by
    cases ht : f.type with
    | scalar s => exact List.not_mem_nil
    | relation r =>
      refine Text.newline_not_mem_capitalize (hf r ?_)
      rw [Field.strings, ht]
      simp
  have hmark : '\n' ∉ (if f.isOptional then ['?'] else [] : Text) := by
    cases f.isOptional <;> decide
  have hhead : Text.IsRow (opening ("var " ++ f.name ++ "Parent: Parent<" ++ model ++ ", " ++
      f.type.target?.getD [] ++ ">" ++ if f.isOptional then ['?'] else [])) := by
    refine (by decide : Text.IsRow " \x7b").prepend ?_
    simp only [List.mem_append, not_or]
    and_intros <;> first | assumption | decide
  have hguard : Text.IsRow (opening ("guard let " ++ f.name ++ " = " ++ f.name ++ " else") ++
      " return nil \x7d") := by
    refine (by decide : Text.IsRow " return nil \x7d").prepend ?_
    simp only [opening, List.mem_append, not_or]
    and_intros <;> first | assumption | decide
  have hreturn : Text.IsRow ("return parent(id: " ++ f.name ++ ")") :=
    ((by decide : Text.IsRow "return parent(id: ").append hname).append (by decide)
  have hclose : Text.IsRow ['\x7d'] := by decide
  refine isBlock_write indent (fun h => (List.mem_append.1 h).elim (by decide) hm) ?_
  refine Code.forall_mem_allTexts_cons.2 ⟨Code.forall_mem_texts_block.2 ⟨hhead, ?_, hclose⟩,
    Code.forall_mem_allTexts_nil⟩
  refine Code.forall_mem_allTexts_cons.2 ⟨Code.forall_mem_texts_when.2 fun _ => ?_, ?_⟩
  · exact Code.forall_mem_allTexts_cons.2 ⟨Code.forall_mem_texts_line.2 hguard,
      Code.forall_mem_allTexts_nil⟩
  · exact Code.forall_mem_allTexts_cons.2 ⟨Code.forall_mem_texts_line.2 hreturn,
      Code.forall_mem_allTexts_nil⟩

theorem isBlock_nodeConformance (indent : Indent) (hm : '\n' ∉ model) :
    IsBlock (conformanceHeader model "NodeRepresentable") (nodeConformance indent model) :=
  isBlock_conformance indent hm (by decide) (by decide) (by decide)

theorem isBlock_viewDataConformance (indent : Indent) (hm : '\n' ∉ model) :
    IsBlock (conformanceHeader model "ViewDataRepresentable") (viewDataConformance indent model) :=
  isBlock_conformance indent hm (by decide) (by decide) (by decide)

/-! ### The texts for the places of a template -/

section

variable (hm : ∀ s ∈ m.strings, '\n' ∉ s)
include hm

theorem newline_not_mem_modelName : '\n' ∉ m.name :=
  hm _ (by simp [strings])

theorem newline_not_mem_fieldStrings (hf : f ∈ m.fields) : ∀ s ∈ f.strings, '\n' ∉ s := by
  intro s hs
  refine hm s ?_
  rw [strings, List.mem_append]
  exact .inr (List.mem_flatMap.2 ⟨f, hf, hs⟩)

/-- All contributions but the name are framed by lines that are not blank. -/
theorem framed_contribution (hp : p ≠ .modelName) (hc : m.contributions indent p = some ts) :
    ∀ t ∈ ts, Text.Framed (Text.blanks (Filling.contribution t)) := by
  have hname := newline_not_mem_modelName hm
  have hrow : ∀ t, Text.IsRow t → Text.Framed (Text.blanks (Filling.contribution t)) := by
    intro t ht
    rw [contribution_of_not_mem ht.oneLine, ht.blanks_eq]
    exact Text.framed_singleton
  have hfields : ∀ q, ∀ t ∈ m.fields.filterMap fun f => fieldLine m.name f q,
      Text.Framed (Text.blanks (Filling.contribution t)) := by
    intro q t ht
    obtain ⟨f, hf, h⟩ := List.mem_filterMap.1 ht
    exact hrow t (isRow_fieldLine hname (newline_not_mem_fieldStrings hm hf) h)
  intro t ht
  cases p <;> cases hc
  case modelName => exact absurd rfl hp
  case entity =>
    obtain ⟨e, he, rfl⟩ := List.mem_map.1 ht
    have hentity : '\n' ∉ e := hm e (by simp [strings, he])
    exact hrow _ (((by decide : Text.IsRow "static let entity = \"").append hentity).append
      (by decide))
  case parents =>
    obtain ⟨f, hf, rfl⟩ := List.mem_map.1 ht
    have hstrings := newline_not_mem_fieldStrings hm (List.mem_filter.1 hf).1
    exact (isBlock_parentAccessor indent hname hstrings).framed (isClosed_write _ _ _)
  case node =>
    split at ht
    · rw [List.mem_singleton.1 ht]
      exact (isBlock_nodeConformance indent hname).framed (isClosed_write _ _ _)
    · cases ht
  case viewData =>
    split at ht
    · rw [List.mem_singleton.1 ht]
      exact (isBlock_viewDataConformance indent hname).framed (isClosed_write _ _ _)
    · cases ht
  all_goals exact hfields _ t ht

omit hm in
/-- In every layout contributions stay apart. -/
theorem framed_separator (indent : Indent) (p : Placeholder) (s t : Text)
    (hs : Text.Framed (Text.blanks s)) (ht : Text.Framed (Text.blanks t)) :
    Text.Framed (Text.blanks (s ++ (layout indent p).separator ++ t)) := by
  have hlines : ∀ n, Text.Framed (Text.blanks (s ++ ('\n' :: indent.ofLevel n) ++ t)) := by
    intro n
    have hblank : Text.isBlank (indent.ofLevel n) = true := by
      refine List.all_eq_true.2 fun c hc => ?_
      rw [List.eq_of_mem_replicate hc]
      cases indent <;> rfl
    rw [List.append_assoc, List.cons_append, Text.blanks_append_newline,
      Text.blanks_blank_append (newline_not_mem_ofLevel indent n) hblank]
    exact hs.append ht
  have hblocks : Text.Framed (Text.blanks (s ++ ['\n', '\n'] ++ t)) := by
    have htwo : Text.blanks ('\n' :: t) = true :: Text.blanks t := Text.blanks_append_newline [] t
    rw [List.append_assoc, List.cons_append, Text.blanks_append_newline, List.singleton_append, htwo]
    exact hs.append_blank ht
  have hinline : ∀ sep, '\n' ∉ sep → Text.Framed (Text.blanks (s ++ sep ++ t)) := by
    intro sep hsep
    have hinset : Text.IsInset (s ++ sep ++ t) :=
      (Text.IsInset.append (.inr hs) (Text.isInset_of_not_mem hsep)).append (.inr ht)
    refine hinset.framed ?_
    rw [Text.isBlank_append, Text.isBlank_append, hs.isBlank, Bool.false_and, Bool.false_and]
  cases p
  case modelName | controllerName | title => exact hinline [] List.not_mem_nil
  case initParams => exact hinline ", " (by decide)
  case parents | node | viewData => exact hblocks
  all_goals exact hlines _

/-- The text for a place other than that of the name is framed by lines that are not blank, but for
an empty line in front if it is the second of two conformances. -/
theorem exists_framed_text (indent : Indent) (hp : p ≠ .modelName)
    (hc : m.contributions indent p = some ts) (hts : ts ≠ []) :
    ∃ t, Text.Framed (Text.blanks t) ∧ (m.fillings indent).text p =
      (if p == .viewData && m.conformances.node then ['\n'] else []) ++ t := by
  have hne : ts.map Filling.contribution ≠ [] := fun h => hts (List.map_eq_nil_iff.1 h)
  rw [text_fillings hc, if_neg hts]
  refine ⟨_, Text.framed_join (framed_separator indent p) ?_ hne, rfl⟩
  exact List.forall_mem_map.2 (framed_contribution hm hp hc)

theorem text_cases (indent : Indent) (hp : p ≠ .modelName) : (m.fillings indent).text p = [] ∨
    ∃ t, Text.Framed (Text.blanks t) ∧ (m.fillings indent).text p =
      (if p == .viewData && m.conformances.node then ['\n'] else []) ++ t := by
  cases hc : m.contributions indent p with
  | none =>
    left
    simp [Fillings.text, fillings, hc]
  | some ts =>
    by_cases hts : ts = []
    · exact .inl ((text_fillings hc).trans (if_pos hts))
    · exact .inr (exists_framed_text hm indent hp hc hts)

/-- There is a text for a conformance exactly if it is asked for. -/
theorem text_eq_nil_iff (hp : p ≠ .modelName) (hc : m.contributions indent p = some ts) :
    (m.fillings indent).text p = [] ↔ ts = [] := by
  refine ⟨fun h => ?_, fun hts => (text_fillings hc).trans (if_pos hts)⟩
  by_contra hts
  obtain ⟨t, ht, heq⟩ := exists_framed_text hm indent hp hc hts
  rw [h] at heq
  obtain ⟨-, rfl⟩ := List.append_eq_nil_iff.1 heq.symm
  cases ht.head

end

end Model
end Scaffold
