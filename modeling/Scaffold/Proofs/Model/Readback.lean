import Scaffold.Model.Parse
import Scaffold.Proofs.Model.Generated
import Scaffold.Proofs.Model.Grammar
import Scaffold.Proofs.Text.Upper

/-! Reading a model back from its text. The text is read as an outline first, and then the parts of
the model are found in the outline: the name and the fields in the class, the targets of relations
in the schema, and the conformances at the end. Main statement: `generated_eq_iff`. -/

namespace Scaffold

/-- A type as far as it shows: a relation by the name of its target. -/
def FieldType.shown : FieldType → FieldType
  | .scalar s => .scalar s
  | .relation r => .relation (Text.capitalize r)

def Field.shown (f : Field) : Field :=
  { f with type := f.type.shown }

/-- What shows of a model: everything but the case of the first letters of relations. -/
def Model.shown (m : Model) : Model :=
  { m with fields := m.fields.map Field.shown }

namespace Model

variable {m m' : Model} {f f' : Field} {model : Text} {p : Placeholder}

/-! ### What shows is enough -/

theorem schemaCall_shown (model : Text) (f : Field) :
    schemaCall model f.shown = schemaCall model f := by
  obtain ⟨name, s | r, optional⟩ := f
  · rfl
  · simp only [schemaCall, Field.shown, FieldType.shown, Text.capitalize_capitalize]
    rfl

theorem fieldLine_shown (model : Text) (f : Field) (p : Placeholder) :
    fieldLine model f.shown p = fieldLine model f p := by
  have hcall := schemaCall_shown model f
  have htype : f.shown.declaredType = f.declaredType := by
    obtain ⟨name, s | r, optional⟩ := f <;> rfl
  cases p
  case builder => exact congrArg some hcall
  case properties => exact congrArg (fun t => some ("var " ++ f.name ++ ": " ++ t)) htype
  case initParams => exact congrArg (fun t => some (f.name ++ ": " ++ t)) htype
  all_goals rfl

theorem parentAccessor_shown (indent : Indent) (model : Text) (f : Field) :
    parentAccessor indent model f.shown = parentAccessor indent model f := by
  obtain ⟨name, s | r, optional⟩ := f
  · rfl
  · simp only [parentAccessor, Field.shown, FieldType.shown, FieldType.target?,
      Text.capitalize_capitalize]
    rfl

theorem isRelation_shown (f : Field) : f.shown.isRelation = f.isRelation := by
  obtain ⟨name, s | r, optional⟩ := f <;> rfl

theorem accessors_shown (indent : Indent) (m : Model) :
    m.shown.relations.map (parentAccessor indent m.name) =
      m.relations.map (parentAccessor indent m.name) := by
  have hfilter : (Field.isRelation ∘ Field.shown) = Field.isRelation := funext isRelation_shown
  rw [relations, relations, shown]
  simp only [List.filter_map, hfilter, List.map_map]
  exact List.map_congr_left fun f _ => parentAccessor_shown indent m.name f

/-- Models that show the same are generated from the same texts. -/
theorem contributions_shown (indent : Indent) (m : Model) (p : Placeholder) :
    m.shown.contributions indent p = m.contributions indent p := by
  have hlines : m.shown.fields.filterMap (fun f => fieldLine m.name f p) =
      m.fields.filterMap (fun f => fieldLine m.name f p) := by
    rw [shown, List.filterMap_map]
    exact List.filterMap_congr fun f _ => fieldLine_shown m.name f p
  cases p
  case parents => exact congrArg some (accessors_shown indent m)
  case modelName | entity | node | viewData | controllerName | title => rfl
  all_goals exact congrArg some hlines

theorem fillings_shown (indent : Indent) (m : Model) :
    m.shown.fillings indent = m.fillings indent := by
  have hget : m.shown.contributions indent = m.contributions indent :=
    funext (contributions_shown indent m)
  rw [fillings, fillings, hget]
  rfl

/-! ### Lines of fields -/

theorem swiftType_injective : Function.Injective Scalar.swiftType := by
  intro s s' h
  cases s <;> cases s' <;> first | rfl | exact absurd h (by decide)

theorem swiftType_ne_identifier (s : Scalar) : s.swiftType ≠ "Identifier" := by
  cases s <;> decide

theorem question_not_mem_swiftType (t : FieldType) : '?' ∉ t.swiftType := by
  rcases t with s | r
  · cases s <;> decide
  · show '?' ∉ String.toList "Identifier"
    decide

/-- The type of a property tells the type of the field, and whether it is optional. -/
theorem declaredType_inj (h : f.declaredType = f'.declaredType) :
    f.type.swiftType = f'.type.swiftType ∧ f.isOptional = f'.isOptional := by
  have hf := question_not_mem_swiftType f.type
  have hf' := question_not_mem_swiftType f'.type
  unfold Field.declaredType at h
  cases ho : f.isOptional <;> cases ho' : f'.isOptional <;> rw [ho, ho'] at h
  · simpa using h
  · have : f.type.swiftType = f'.type.swiftType ++ ['?'] := by simpa using h
    exact absurd (this ▸ by simp) hf
  · have : f'.type.swiftType = f.type.swiftType ++ ['?'] := by simpa using h.symm
    exact absurd (this ▸ by simp) hf'
  · exact ⟨List.append_cancel_right h, rfl⟩

theorem isRelation_inj (h : f.type.swiftType = f'.type.swiftType) :
    f.isRelation = f'.isRelation := by
  obtain ⟨name, s | r, optional⟩ := f <;> obtain ⟨name', s' | r', optional'⟩ := f'
  · rfl
  · exact absurd h (swiftType_ne_identifier s)
  · exact absurd h.symm (swiftType_ne_identifier s')
  · rfl

/-- The line of a property tells the name of the field and its declared type. -/
theorem propertyLine_inj (hf : f.Spelled) (hf' : f'.Spelled)
    (h : fieldLine model f .properties = fieldLine model f' .properties) :
    f.name = f'.name ∧ f.declaredType = f'.declaredType := by
  have hline : "var " ++ f.name ++ ": " ++ f.declaredType =
      "var " ++ f'.name ++ ": " ++ f'.declaredType := Option.some.inj h
  simp only [List.append_assoc] at hline
  have hrest : f.name ++ ':' :: ' ' :: f.declaredType = f'.name ++ ':' :: ' ' :: f'.declaredType :=
    List.append_cancel_left hline
  obtain ⟨hn, ht⟩ := hf.name.append_cons_inj hf'.name rfl hrest
  exact ⟨hn, (List.cons.inj ht).2⟩

/-- The schema call of a relation tells its target. -/
theorem schemaCall_inj {r r' : Text} (ht : f.type = .relation r) (ht' : f'.type = .relation r')
    (hr : r.IsWord) (hr' : r'.IsWord) (h : schemaCall model f = schemaCall model f') :
    Text.capitalize r = Text.capitalize r' := by
  simp only [schemaCall, ht, ht', List.append_assoc] at h
  have hrest : Text.capitalize r ++ '.' :: _ = Text.capitalize r' ++ '.' :: _ :=
    List.append_cancel_left h
  exact (hr.capitalize.append_cons_inj hr'.capitalize rfl hrest).1

/-- Both lines of a field together tell what shows of it. -/
theorem shown_eq_of_lines (hf : f.Spelled) (hf' : f'.Spelled)
    (hp : fieldLine model f .properties = fieldLine model f' .properties)
    (hb : fieldLine model f .builder = fieldLine model f' .builder) : f.shown = f'.shown := by
  obtain ⟨hname, hdeclared⟩ := propertyLine_inj hf hf' hp
  obtain ⟨hswift, hoptional⟩ := declaredType_inj hdeclared
  have hcall : schemaCall model f = schemaCall model f' := Option.some.inj hb
  have htype : f.type.shown = f'.type.shown := by
    cases ht : f.type with
    | scalar s =>
      cases ht' : f'.type with
      | scalar s' =>
        rw [ht, ht'] at hswift
        exact congrArg FieldType.scalar (swiftType_injective hswift)
      | relation r' =>
        rw [ht, ht'] at hswift
        exact absurd hswift (swiftType_ne_identifier s)
    | relation r =>
      cases ht' : f'.type with
      | scalar s' =>
        rw [ht, ht'] at hswift
        exact absurd hswift.symm (swiftType_ne_identifier s')
      | relation r' =>
        exact congrArg FieldType.relation
          (schemaCall_inj ht ht' (hf.reference r ht) (hf'.reference r' ht') hcall)
  simp only [Field.shown, hname, htype, hoptional]

/-! ### Lists of lines -/

/-- The lines of a place tell the line of each field. -/
theorem map_fieldLine_eq (hp : p ∈ Placeholder.fieldIndexed) (hn : m.name = m'.name)
    (h : m.rows p = m'.rows p) :
    m.fields.map (fieldLine m.name · p) = m'.fields.map (fieldLine m.name · p) := by
  rw [rows, rows, contributions_eq hp, contributions_eq hp, ← hn] at h
  have hlines := List.map_injective_iff.2 (fun _ _ => Outline.line.inj) h
  rw [Option.getD_some, Option.getD_some] at hlines
  rw [← map_some_fieldLines hp, ← map_some_fieldLines hp, hlines]

/-- Elements that agree in two respects, pair by pair, agree in whatever these determine. -/
theorem map_eq_of_map_eq {α β γ δ : Type} {g : α → β} {k : α → γ} {q : α → δ} {l l' : List α}
    (hq : ∀ a ∈ l, ∀ b ∈ l', g a = g b → k a = k b → q a = q b)
    (hg : l.map g = l'.map g) (hk : l.map k = l'.map k) : l.map q = l'.map q := by
  induction l generalizing l' with
  | nil =>
    cases l' with
    | nil => rfl
    | cons b l' => cases hg
  | cons a l ih =>
    cases l' with
    | nil => cases hg
    | cons b l' =>
      obtain ⟨hga, hg⟩ := List.cons.inj hg
      obtain ⟨hka, hk⟩ := List.cons.inj hk
      rw [List.map_cons, List.map_cons, hq a List.mem_cons_self b List.mem_cons_self hga hka,
        ih (fun a ha b hb => hq a (List.mem_cons_of_mem _ ha) b (List.mem_cons_of_mem _ hb)) hg hk]

/-! ### Parts of the outline -/

theorem blank_not_mem_rows (m : Model) (p : Placeholder) : Outline.blank ∉ m.rows p := by
  intro h
  obtain ⟨t, -, ht⟩ := List.mem_map.1 h
  cases ht

theorem rows_entity_inj (h : m.rows .entity = m'.rows .entity) : m.entity = m'.entity := by
  simp only [rows, contributions, Option.getD_some, List.map_map] at h
  cases he : m.entity with
  | none =>
    cases he' : m'.entity with
    | none => rfl
    | some e' =>
      rw [he, he'] at h
      cases h
  | some e =>
    cases he' : m'.entity with
    | none =>
      rw [he, he'] at h
      cases h
    | some e' =>
      rw [he, he'] at h
      have hline := Outline.line.inj (List.cons.inj h).1
      exact congrArg some (List.append_cancel_left (List.append_cancel_right hline))

/-- The class of a model tells its name and its table, and has a line for each property. -/
theorem declaration_inj (hm : m.Spelled) (hm' : m'.Spelled) (hf : m.fields ≠ [])
    (hf' : m'.fields ≠ []) (h : m.declaration = m'.declaration) :
    m.name = m'.name ∧ m.entity = m'.entity ∧ m.rows .properties = m'.rows .properties := by
  have hset : ∀ {m : Model}, m.fields ≠ [] →
      Outline.setOff (m.rows .properties) = .blank :: m.rows .properties := by
    intro m hne
    obtain ⟨f, fs, hfs⟩ := List.exists_cons_of_ne_nil hne
    rw [rows, contributions_eq (by decide), hfs]
    rfl
  obtain ⟨hheader, hbody⟩ := Outline.block.inj h
  simp only [List.append_assoc, hset hf, hset hf'] at hheader hbody
  have hname : m.name ++ ':' :: _ = m'.name ++ ':' :: _ := List.append_cancel_left hheader
  obtain ⟨hentity, hrest⟩ := Text.cons_inj_of_not_mem (blank_not_mem_rows m .entity)
    (blank_not_mem_rows m' .entity) (List.cons.inj hbody).2
  obtain ⟨hproperties, -⟩ := Text.cons_inj_of_not_mem (blank_not_mem_rows m .properties)
    (blank_not_mem_rows m' .properties) hrest
  exact ⟨(hm.name.append_cons_inj hm'.name rfl hname).1, rows_entity_inj hentity, hproperties⟩

/-- The schema of a model has a line for each column. -/
theorem preparation_inj (h : m.preparation = m'.preparation) :
    m.rows .builder = m'.rows .builder := by
  obtain ⟨-, hextension⟩ := Outline.block.inj h
  obtain ⟨-, hprepare⟩ := Outline.block.inj (List.cons.inj hextension).1
  obtain ⟨-, hcreate⟩ := Outline.block.inj (List.cons.inj hprepare).1
  exact (List.cons.inj hcreate).2

theorem conforming_ne {model protocol protocol' signature signature' body body' : Text}
    (h : protocol ≠ protocol') :
    conforming model protocol signature body ≠ conforming model protocol' signature' body' := by
  intro heq
  have hheader := List.append_cancel_right (Outline.block.inj heq).1
  exact h (List.append_cancel_left hheader)

/-- Two different outlines, each there or not, are told apart. -/
theorem present_inj {o o' : Outline} (hne : o ≠ o') {a b a' b' : Bool}
    (h : Outline.setOff (((if a then [o] else []) ++ if b then [o'] else []).intersperse .blank) =
      Outline.setOff (((if a' then [o] else []) ++ if b' then [o'] else []).intersperse .blank)) :
    a = a' ∧ b = b' := by
  revert h
  cases a <;> cases b <;> cases a' <;> cases b' <;> simp [Outline.setOff, hne, hne.symm]

theorem conformances_inj (hn : m.name = m'.name)
    (h : Outline.setOff ((m.blocks .node ++ m.blocks .viewData).intersperse .blank) =
      Outline.setOff ((m'.blocks .node ++ m'.blocks .viewData).intersperse .blank)) :
    m.conformances = m'.conformances := by
  simp only [blocks, ← hn] at h
  obtain ⟨hnode, hview⟩ := present_inj (conforming_ne (by decide)) h
  rw [Conformances.mk.injEq]
  exact ⟨hnode, hview⟩

/-- Models with the same properties have equally many accessors. -/
theorem length_accessors (h : m.fields.map (fieldLine model · .properties) =
    m'.fields.map (fieldLine model · .properties)) (hm : m.Spelled) (hm' : m'.Spelled) :
    (Outline.setOff ((m.blocks .parents).intersperse .blank)).length =
      (Outline.setOff ((m'.blocks .parents).intersperse .blank)).length := by
  have hmap : m.fields.map Field.isRelation = m'.fields.map Field.isRelation :=
    map_eq_of_map_eq (fun f hf f' hf' hp _ => isRelation_inj
      (declaredType_inj (propertyLine_inj (hm.fields f hf) (hm'.fields f' hf') hp).2).1) h h
  have hblocks : ∀ m : Model,
      (m.blocks .parents).length = (m.fields.map Field.isRelation).countP id := by
    intro m
    rw [blocks, List.length_map, relations, List.countP_map, List.countP_eq_length_filter]
    rfl
  have hcount : (m.blocks .parents).length = (m'.blocks .parents).length := by
    rw [hblocks, hblocks, hmap]
  have hset : ∀ os : List Outline,
      (Outline.setOff (os.intersperse .blank)).length = 2 * os.length := by
    intro os
    rcases os with _ | ⟨o, os⟩
    · rfl
    · have hne : ((o :: os).intersperse .blank).isEmpty = false := by cases os <;> rfl
      rw [Outline.setOff, hne, if_neg Bool.false_ne_true, List.length_cons, List.length_intersperse]
      simp
      omega
  rw [hset, hset, hcount]

/-- The outline of a model tells everything that shows of it. -/
theorem shown_eq_of_outline (hm : m.Spelled) (hm' : m'.Spelled) (hf : m.fields ≠ [])
    (hf' : m'.fields ≠ []) (h : m.outline = m'.outline) : m.shown = m'.shown := by
  simp only [outline, List.append_assoc] at h
  obtain ⟨htop, h⟩ := List.append_inj h rfl
  have hdeclaration : m.declaration = m'.declaration := Option.some.inj (congrArg (·[4]?) htop)
  obtain ⟨hname, hentity, hproperties⟩ := declaration_inj hm hm' hf hf' hdeclaration
  have hp := map_fieldLine_eq (by decide) hname hproperties
  -- Empty lines stand between the accessors too, so their end is found by their number.
  obtain ⟨-, h⟩ := List.append_inj h (length_accessors hp hm hm')
  obtain ⟨hmiddle, hend⟩ := List.append_inj h rfl
  have hpreparation : m.preparation = m'.preparation := Option.some.inj (congrArg (·[1]?) hmiddle)
  have hb := map_fieldLine_eq (by decide) hname (preparation_inj hpreparation)
  have hfields := map_eq_of_map_eq (fun f hf f' hf' =>
    shown_eq_of_lines (hm.fields f hf) (hm'.fields f' hf')) hp hb
  rw [shown, shown, Model.mk.injEq]
  exact ⟨hname, hentity, hfields, conformances_inj hname hend⟩

end Model

open Model

/-- Two requests give the same text exactly if everything that shows of their models is the same:
only the case of the first letter of a relation is lost. -/
theorem generated_eq_iff {naming naming' : Naming} {tokens tokens' : List Text} {m m' : Model}
    (h : Model.parse naming tokens = .ok m) (h' : Model.parse naming' tokens' = .ok m')
    (hm : m.Spelled) (hm' : m'.Spelled) :
    (Template.builtin .model).render (m.fillings .standard) =
      (Template.builtin .model).render (m'.fillings .standard) ↔ m.shown = m'.shown := by
  obtain ⟨hf, hread⟩ := parse_eq_ok_iff.1 h
  obtain ⟨hf', hread'⟩ := parse_eq_ok_iff.1 h'
  constructor
  · intro htext
    rw [render_eq_outline hm ⟨_, hread.entity⟩, render_eq_outline hm' ⟨_, hread'.entity⟩] at htext
    have hsound := sound_outline hm ⟨_, hread.entity⟩
    have hsound' := sound_outline hm' ⟨_, hread'.entity⟩
    have hlines := congrArg Text.lines htext
    rw [Text.lines_unlines (Outline.nests_allLines hsound 0).oneLine,
      Text.lines_unlines (Outline.nests_allLines hsound' 0).oneLine] at hlines
    exact shown_eq_of_outline hm hm' hf hf' (Outline.allLines_injective hsound hsound' hlines)
  · intro hshown
    rw [← fillings_shown, ← fillings_shown _ m', hshown]

/-- A model with one optional relation. -/
def authored (reference : Text) : Model where
  name := "Post"
  entity := none
  fields := [{ name := "author", type := .relation reference, isOptional := true }]
  conformances := {}

theorem generated_eq_of_relation_case :
    (Template.builtin .model).render ((authored "user").fillings .standard) =
      (Template.builtin .model).render ((authored "User").fillings .standard) :=
  (@generated_eq_iff {} {} ["Post", "author:user!"] ["Post", "author:User!"] (authored "user")
    (authored "User") (by rfl) (by rfl) (by decide) (by decide)).2 (by decide +kernel)

end Scaffold
