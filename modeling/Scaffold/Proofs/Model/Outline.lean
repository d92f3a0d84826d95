import Scaffold.Model.Assembly
import Scaffold.Proofs.Layout.Outline
import Scaffold.Proofs.Text.Words

/-! What is generated for a model, as an outline: a class with the properties and initializers, and
extensions with the column keys, the accessors of relations, the schema and the conformances. If
the names in the model are words, every line of it fits on its level: `sound_outline`. -/

namespace Scaffold

/-- The names in a field are words. -/
structure Field.Spelled (f : Field) : Prop where
  name : f.name.IsWord
  reference : ∀ r, f.type = .relation r → r.IsWord

/-- The keyword of a relation is its reference, and the other keywords are words anyway. -/
theorem Field.spelled_iff {f : Field} :
    f.Spelled ↔ f.name.IsWord ∧ f.type.keyword.IsWord := by
  constructor
  · rintro ⟨hn, hr⟩
    refine ⟨hn, ?_⟩
    cases h : f.type with
    | scalar s => cases s <;> decide
    | relation r => exact hr r h
  · rintro ⟨hn, hk⟩
    refine ⟨hn, fun r h => ?_⟩
    rwa [h] at hk

instance (f : Field) : Decidable f.Spelled :=
  decidable_of_iff _ Field.spelled_iff.symm

/-- The names in a model are words. -/
structure Model.Spelled (m : Model) : Prop where
  name : m.name.IsWord
  fields : ∀ f ∈ m.fields, f.Spelled

instance (m : Model) : Decidable m.Spelled :=
  decidable_of_iff (m.name.IsWord ∧ ∀ f ∈ m.fields, f.Spelled)
    ⟨fun h => ⟨h.1, h.2⟩, fun h => ⟨h.1, h.2⟩⟩

namespace Model

/-- The lines of a model for a place with lines of its own. -/
def rows (m : Model) (p : Placeholder) : List Outline :=
  ((m.contributions .standard p).getD []).map .line

/-- The parameters of the first initializer. -/
def params (m : Model) : Text :=
  Text.join ", " ((m.contributions .standard .initParams).getD [])

/-- The accessor of a relation. -/
def accessor (model : Text) (f : Field) : Outline :=
  .block (opening ("extension " ++ model)) [
    .block (opening ("var " ++ f.name ++ "Parent: Parent<" ++ model ++ ", " ++
        f.type.target?.getD [] ++ ">" ++ if f.isOptional then ['?'] else [])) (
      (if f.isOptional then
        [.line (opening ("guard let " ++ f.name ++ " = " ++ f.name ++ " else") ++ " return nil \x7d")]
      else []) ++
      [.line ("return parent(id: " ++ f.name ++ ")")])]

/-- A conformance with one function of one line. -/
def conforming (model protocol signature body : Text) : Outline :=
  .block (opening ("extension " ++ model ++ ": " ++ protocol)) [
    .block (opening signature) [.line body]]

/-- The blocks of a model for a place with blocks of its own. -/
def blocks (m : Model) : Placeholder → List Outline
  | .parents => m.relations.map (accessor m.name)
  | .node =>
    if m.conformances.node then [conforming m.name "NodeRepresentable"
      "func makeNode(in context: Context?) throws -> Node"
      "return try makeJSON().makeNode(in: context)"] else []
  | .viewData =>
    if m.conformances.viewData then [conforming m.name "ViewDataRepresentable"
      "func makeViewData() throws -> ViewData"
      "return try makeJSON().makeViewData()"] else []
  | _ => []

/-- The class of a model. -/
def declaration (m : Model) : Outline :=
  .block ("final class " ++ m.name ++ ": Model \x7b") (
    .line "let storage = Storage()" :: m.rows .entity ++ Outline.setOff (m.rows .properties) ++ [
      .blank, .block ("init(" ++ m.params ++ ") \x7b") (m.rows .initBody), .blank,
      .block "init(row: Row) throws \x7b" (m.rows .rowInit), .blank,
      .block "func makeRow() throws -> Row \x7b"
        (.line "var row = Row()" :: m.rows .makeRow ++ [.line "return row"]), .blank,
      .block "init(json: JSON) throws \x7b" (m.rows .jsonInit)])

/-- The column keys of a model. -/
def columnKeys (m : Model) : Outline :=
  .block ("extension " ++ m.name ++ " \x7b") [.block "enum Field: String \x7b" (m.rows .keys)]

/-- How the table of a model is made and removed. -/
def preparation (m : Model) : Outline :=
  .block ("extension " ++ m.name ++ ": Preparation \x7b") [
    .block "static func prepare(_ database: Database) throws \x7b" [
      .block "try database.create(self) \x7b builder in"
        (.line "builder.id()" :: m.rows .builder)], .blank,
    .block "static func revert(_ database: Database) throws \x7b" [
      .line "try database.delete(self)"]]

/-- How a model is written as JSON. -/
def conversion (m : Model) : Outline :=
  .block ("extension " ++ m.name ++ ": JSONConvertible \x7b") [
    .block "func makeJSON() throws -> JSON \x7b" (
      .line "var json = JSON()" :: .line ("try json.set(" ++ m.name ++ ".idKey, id)") ::
        m.rows .makeJson ++ [.line "return json"])]

/-- Everything that is generated for a model. -/
def outline (m : Model) : List Outline :=
  [.line "import Vapor", .line "import FluentProvider", .line "import HTTP", .blank,
    m.declaration, .blank, m.columnKeys] ++
  Outline.setOff ((m.blocks .parents).intersperse .blank) ++
  [.blank, m.preparation, .blank, m.conversion, .blank,
    .line ("extension " ++ m.name ++ ": ResponseRepresentable \x7b \x7d")] ++
  Outline.setOff ((m.blocks .node ++ m.blocks .viewData).intersperse .blank)

/-! ### Texts of words -/

theorem isPlain_of_chars {t : Text} (h : ∀ c ∈ t, Text.isWordChar c = true) : t.IsPlain := by
  intro c hc
  have hw := h c hc
  simp only [Text.isPlainChar, Bool.and_eq_true, bne_iff_ne]
  refine ⟨⟨⟨?_, ?_⟩, ?_⟩, ?_⟩ <;> (rintro rfl; cases hw)

theorem startsShown_of_isWord {t : Text} (h : t.IsWord) : t.startsShown = true := by
  obtain ⟨c, s, rfl⟩ := List.exists_cons_of_ne_nil h.ne_nil
  simp [Text.startsShown, Text.isBlankChar_of_isWordChar (h.chars c List.mem_cons_self)]

theorem isPlain_join {sep : Text} (hsep : sep.IsPlain) {ts : List Text} (h : ∀ t ∈ ts, t.IsPlain) :
    (Text.join sep ts).IsPlain := by
  induction ts with
  | nil => exact fun c hc => by cases hc
  | cons t ts ih =>
    obtain ⟨ht, hts⟩ := List.forall_mem_cons.1 h
    rcases ts with _ | ⟨t', ts⟩
    · simpa [Text.join] using ht
    · rw [Text.join_cons_cons, Text.isPlain_append, Text.isPlain_append]
      exact ⟨⟨ht, hsep⟩, ih hts⟩

variable {m : Model} {f : Field} {model t : Text} {p : Placeholder} {indent : Indent}

theorem isPlain_mark (b : Bool) {t : Text} (h : t.IsPlain) : (if b then t else []).IsPlain := by
  split
  · exact h
  · exact fun c hc => by cases hc

theorem isPlain_declaredType (f : Field) : f.declaredType.IsPlain := by
  rw [Field.declaredType, Text.isPlain_append]
  refine ⟨?_, isPlain_mark _ (by decide)⟩
  rcases f.type with s | r
  · cases s <;> decide
  · exact (by decide : Text.IsPlain "Identifier")

theorem isPlain_target (hf : f.Spelled) : (f.type.target?.getD []).IsPlain := by
  obtain ⟨name, s | r, optional⟩ := f
  · exact fun c hc => by cases hc
  · exact isPlain_of_chars (hf.reference r rfl).capitalize.chars

theorem isPlain_columnKey (hm : model.IsWord) (hf : f.Spelled) :
    (columnKey model f.name).IsPlain := by
  have hmodel := isPlain_of_chars hm.chars
  have hname := isPlain_of_chars hf.name.chars
  simp only [columnKey, Text.isPlain_append]
  and_intros <;> first | assumption | decide

theorem isPlain_schemaCall (hm : model.IsWord) (hf : f.Spelled) : (schemaCall model f).IsPlain := by
  have hkey := isPlain_columnKey hm hf
  have hmark := isPlain_mark f.isOptional (by decide : Text.IsPlain ", optional: true")
  rw [schemaCall]
  cases ht : f.type with
  | scalar s =>
    have hcolumn : s.column.IsPlain := by cases s <;> decide
    simp only [Text.isPlain_append]
    and_intros <;> first | assumption | decide
  | relation r =>
    have hr := isPlain_of_chars (hf.reference r ht).capitalize.chars
    simp only [Text.isPlain_append]
    and_intros <;> first | assumption | decide

theorem isPlain_fieldLine (hm : model.IsWord) (hf : f.Spelled) (h : fieldLine model f p = some t) :
    t.IsPlain := by
  have hname := isPlain_of_chars hf.name.chars
  have htype := isPlain_declaredType f
  have hkey := isPlain_columnKey hm hf
  have hcall := isPlain_schemaCall hm hf
  cases p <;> cases h
  case builder => exact hcall
  all_goals
    simp only [Text.isPlain_append]
    and_intros <;> first | assumption | decide

theorem startsShown_fieldLine (hf : f.Spelled) (h : fieldLine model f p = some t) :
    t.startsShown = true := by
  have hname := startsShown_of_isWord hf.name
  have hcall : (schemaCall model f).startsShown = true := by
    rw [schemaCall]
    cases f.type <;> rfl
  cases p <;> cases h
  case initParams | rowInit | jsonInit =>
    simp only [List.append_assoc, Text.startsShown_append hname]
  case builder => exact hcall
  all_goals rfl

/-! ### Sound outlines -/

theorem contributions_eq (hp : p ∈ Placeholder.fieldIndexed) :
    m.contributions indent p = some (m.fields.filterMap fun f => fieldLine m.name f p) := by
  revert p
  unfold Placeholder.fieldIndexed
  simp [contributions]

theorem fieldLine_isSome (hp : p ∈ Placeholder.fieldIndexed) (model : Text) (f : Field) :
    (fieldLine model f p).isSome = true := by
  cases p <;> first | rfl | exact absurd hp (by decide)

/-- No field is left out. -/
theorem map_some_fieldLines (hp : p ∈ Placeholder.fieldIndexed) (model : Text) (fs : List Field) :
    (fs.filterMap fun f => fieldLine model f p).map some = fs.map (fieldLine model · p) := by
  induction fs with
  | nil => rfl
  | cons f fs ih =>
    obtain ⟨t, ht⟩ := Option.isSome_iff_exists.1 (fieldLine_isSome hp model f)
    simp [ht, ih]

/-- What the fields of a model contribute fits on any level. -/
theorem fits_contribution (hm : m.Spelled) (hp : p ∈ Placeholder.fieldIndexed) :
    ∀ t ∈ (m.contributions .standard p).getD [], Fits 0 t := by
  rw [contributions_eq hp, Option.getD_some]
  intro t ht
  obtain ⟨f, hf, h⟩ := List.mem_filterMap.1 ht
  exact .of_isPlain (isPlain_fieldLine hm.name (hm.fields f hf) h)
    (startsShown_fieldLine (hm.fields f hf) h)

theorem fits_entity (hm : m.Spelled) (he : ∃ naming : Naming, m.entity = naming.entityName m.name) :
    ∀ t ∈ (m.contributions .standard .entity).getD [], Fits 0 t := by
  obtain ⟨naming, he⟩ := he
  intro t ht
  obtain ⟨e, hm', rfl⟩ := List.mem_map.1 ht
  have hchars : ∀ c ∈ e, Text.isWordChar c = true :=
    Naming.entityName_chars hm.name (he.symm.trans (Option.mem_toList.1 hm'))
  refine .of_isPlain ?_ rfl
  simp only [Text.isPlain_append]
  exact ⟨⟨by decide, isPlain_of_chars hchars⟩, by decide⟩

theorem sound_rows (h : ∀ t ∈ (m.contributions .standard p).getD [], Fits 0 t) :
    ∀ o ∈ m.rows p, o.Sound := by
  intro o ho
  obtain ⟨t, ht, rfl⟩ := List.mem_map.1 ho
  exact .line (h t ht)

theorem isPlain_params (hm : m.Spelled) : m.params.IsPlain := by
  refine isPlain_join (by decide) fun t ht => ?_
  obtain ⟨f, hf, h⟩ := List.mem_filterMap.1 ht
  exact isPlain_fieldLine hm.name (hm.fields f hf) h

/-- A fixed start, a word of the model and a fixed end. -/
theorem fits_around {k : Nat} {front name back : Text} (hfront : front.IsPlain)
    (hstart : front.startsShown = true) (hname : name.IsPlain)
    (hback : ('\n' ∉ back ∧ '\r' ∉ back) ∧ Text.levelAfter 0 back = some k) :
    Fits k (front ++ name ++ back) :=
  .append (Text.isPlain_append.2 ⟨hfront, hname⟩) (Text.startsShown_append hstart name) hback

theorem sound_fieldRows (hm : m.Spelled) (hp : p ∈ Placeholder.fieldIndexed) :
    ∀ o ∈ m.rows p, o.Sound :=
  sound_rows (fits_contribution hm hp)

theorem sound_declaration (hm : m.Spelled)
    (he : ∃ naming : Naming, m.entity = naming.entityName m.name) : m.declaration.Sound := by
  have hname := isPlain_of_chars hm.name.chars
  refine .block (fits_around (by decide) (by decide) hname (by decide)) ?_
  simp only [List.forall_mem_cons, List.forall_mem_append]
  refine ⟨⟨⟨.line (by decide), sound_rows (fits_entity hm he)⟩,
    Outline.sound_setOff (sound_fieldRows hm (by decide))⟩, .blank, ?_, .blank, ?_, .blank, ?_,
    .blank, ?_, by simp⟩
  · exact .block (fits_around (by decide) (by decide) (isPlain_params hm) (by decide))
      (sound_fieldRows hm (by decide))
  · exact .block (by decide) (sound_fieldRows hm (by decide))
  · refine .block (by decide) ?_
    simp only [List.cons_append, List.forall_mem_cons, List.forall_mem_append]
    exact ⟨.line (by decide), sound_fieldRows hm (by decide), .line (by decide), by simp⟩
  · exact .block (by decide) (sound_fieldRows hm (by decide))

theorem sound_columnKeys (hm : m.Spelled) : m.columnKeys.Sound := by
  have hname := isPlain_of_chars hm.name.chars
  refine .block (fits_around (by decide) (by decide) hname (by decide)) ?_
  simp only [List.forall_mem_cons]
  exact ⟨.block (by decide) (sound_fieldRows hm (by decide)), by simp⟩

theorem sound_preparation (hm : m.Spelled) : m.preparation.Sound := by
  have hname := isPlain_of_chars hm.name.chars
  refine .block (fits_around (by decide) (by decide) hname (by decide)) ?_
  simp only [List.forall_mem_cons]
  refine ⟨.block (by decide) ?_, .blank, .block (by decide) ?_, by simp⟩
  · simp only [List.forall_mem_cons]
    refine ⟨.block (by decide) ?_, by simp⟩
    exact List.forall_mem_cons.2 ⟨.line (by decide), sound_fieldRows hm (by decide)⟩
  · exact List.forall_mem_singleton.2 (.line (by decide))

theorem sound_conversion (hm : m.Spelled) : m.conversion.Sound := by
  have hname := isPlain_of_chars hm.name.chars
  refine .block (fits_around (by decide) (by decide) hname (by decide)) ?_
  refine List.forall_mem_singleton.2 (.block (by decide) ?_)
  simp only [List.cons_append, List.forall_mem_cons, List.forall_mem_append]
  exact ⟨.line (by decide), .line (fits_around (by decide) (by decide) hname (by decide)),
    sound_fieldRows hm (by decide), .line (by decide), by simp⟩

theorem sound_accessor (hm : model.IsWord) (hf : f.Spelled) : (accessor model f).Sound := by
  have hmodel := isPlain_of_chars hm.chars
  have hname := isPlain_of_chars hf.name.chars
  have htarget := isPlain_target hf
  have hmark := isPlain_mark f.isOptional (by decide : Text.IsPlain ['?'])
  refine .block (fits_around (by decide) (by decide) hmodel (by decide)) ?_
  refine List.forall_mem_singleton.2 (.block (.append ?_ rfl (by decide)) ?_)
  · simp only [Text.isPlain_append]
    and_intros <;> first | assumption | decide
  · refine List.forall_mem_append.2 ⟨?_, List.forall_mem_singleton.2 (.line ?_)⟩
    · split
      · refine List.forall_mem_singleton.2 (.line ?_)
        rw [opening, List.append_assoc]
        refine .append ?_ rfl (by decide)
        simp only [Text.isPlain_append]
        and_intros <;> first | assumption | decide
      · simp
    · exact fits_around (by decide) (by decide) hname (by decide)

theorem sound_conforming (hm : model.IsWord) {protocol signature body : Text}
    (hp : protocol.IsPlain) (hs : Fits 1 (opening signature)) (hb : Fits 0 body) :
    (conforming model protocol signature body).Sound := by
  have hmodel := isPlain_of_chars hm.chars
  refine .block (.append ?_ rfl (by decide)) (List.forall_mem_singleton.2 (.block hs ?_))
  · simp only [Text.isPlain_append]
    and_intros <;> first | assumption | decide
  · exact List.forall_mem_singleton.2 (.line hb)

theorem sound_blocks (hm : m.Spelled) (p : Placeholder) : ∀ o ∈ m.blocks p, o.Sound := by
  unfold blocks
  split
  · intro o ho
    obtain ⟨f, hf, rfl⟩ := List.mem_map.1 ho
    exact sound_accessor hm.name (hm.fields f (List.mem_filter.1 hf).1)
  · split
    · exact List.forall_mem_singleton.2
        (sound_conforming hm.name (by decide) (by decide) (by decide))
    · simp
  · split
    · exact List.forall_mem_singleton.2
        (sound_conforming hm.name (by decide) (by decide) (by decide))
    · simp
  · simp

/-- Every line that is generated for a model fits on its level. -/
theorem sound_outline (hm : m.Spelled)
    (he : ∃ naming : Naming, m.entity = naming.entityName m.name) :
    ∀ o ∈ m.outline, o.Sound := by
  have hname := isPlain_of_chars hm.name.chars
  have hparents := Outline.sound_setOff (Outline.sound_intersperse (sound_blocks hm .parents))
  have hconformances := Outline.sound_setOff (Outline.sound_intersperse
    (List.forall_mem_append.2 ⟨sound_blocks hm .node, sound_blocks hm .viewData⟩))
  simp only [outline, List.forall_mem_append, List.forall_mem_cons]
  refine ⟨⟨⟨?_, hparents⟩, ?_⟩, hconformances⟩
  · exact ⟨.line (by decide), .line (by decide), .line (by decide), .blank, sound_declaration hm he,
      .blank, sound_columnKeys hm, by simp⟩
  · exact ⟨.blank, sound_preparation hm, .blank, sound_conversion hm, .blank,
      .line (fits_around (by decide) (by decide) hname (by decide)), by simp⟩

end Model
end Scaffold
