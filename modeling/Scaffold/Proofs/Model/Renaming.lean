import Scaffold.Model.Parse
import Scaffold.Proofs.Text.Upper

/-! Naming a model anew. A request is read before the naming rules of its project are known, and the
model is named by them later. Two namings in a row are one by the composed rules, since a name that
is capitalized stays so and the table is named after the last name. Main statement: `parse_rename`. -/

namespace Scaffold

namespace Naming

/-- The rules of a naming by `q` and then by `p`: either may capitalize the model, and the table is
left to `p`. -/
def andThen (q p : Naming) : Naming where
  model := if q.model = .capitalize ∨ p.model = .capitalize then .capitalize else .verbatim
  entity := p.entity

theorem modelName_andThen (q p : Naming) (raw : Text) :
    (q.andThen p).modelName raw = p.modelName (q.modelName raw) := by
  obtain ⟨_ | _, -⟩ := q <;> obtain ⟨_ | _, -⟩ := p
  case capitalize.capitalize => exact (Text.capitalize_capitalize raw).symm
  all_goals rfl

theorem entityName_andThen (q p : Naming) (model : Text) :
    (q.andThen p).entityName model = p.entityName model := rfl

theorem andThen_self (p : Naming) : p.andThen p = p := by
  obtain ⟨_ | _, -⟩ := p <;> rfl

end Naming

namespace Model

theorem rename_rename (q p : Naming) (m : Model) :
    (m.rename q).rename p = m.rename (q.andThen p) := by
  simp only [rename, Naming.modelName_andThen, Naming.entityName_andThen]

/-- Reading tokens by some rules is reading them as they are typed, and naming the model then. -/
theorem parse_eq_map_rename (naming : Naming) (tokens : List Text) :
    parse naming tokens = (parse {} tokens).map (rename naming) := by
  unfold parse
  split
  · next raw _ t ts _ => cases (t :: ts).mapM parseField <;> rfl
  · rfl

end Model

/-- The rules of naming may be applied while a model is read, later, or again: naming by `p` what was
read by `q` gives the model, or the error, of reading by the composed rules. -/
theorem parse_rename (q p : Naming) (tokens : List Text) :
    (Model.parse {} tokens).map (Model.rename p) = Model.parse p tokens ∧
    (Model.parse q tokens).map (Model.rename p) = Model.parse (q.andThen p) tokens ∧
    (Model.parse p tokens).map (Model.rename p) = Model.parse p tokens ∧
    ∀ m : Model, (m.rename p).rename p = m.rename p := by
  have hread : ∀ q : Naming,
      (Model.parse q tokens).map (Model.rename p) = Model.parse (q.andThen p) tokens := by
    intro q
    have htwice : Model.rename p ∘ Model.rename q = Model.rename (q.andThen p) :=
      funext (Model.rename_rename q p)
    rw [Model.parse_eq_map_rename q, Model.parse_eq_map_rename (q.andThen p), ← htwice]
    cases Model.parse {} tokens <;> rfl
  refine ⟨(Model.parse_eq_map_rename p tokens).symm, hread q, ?_, fun m => ?_⟩
  · rw [hread p, Naming.andThen_self]
  · rw [Model.rename_rename, Naming.andThen_self]

end Scaffold
