import Scaffold.Proofs.Model.Generated

/-! The indentation of generated models. The first line of a slot is indented by the template, the
further ones by the table of depths, and blocks by the writer of nested code. Together they agree
with the braces, whatever the fields and conformances of the model are. -/

namespace Scaffold

/-- In the text of a model each line is indented by four blanks for each brace that is open. The
entity of a model is made from its name, by parsing and by renaming alike, so it has no braces. -/
theorem generated_indented (m : Model) (hm : m.Spelled)
    (he : ∃ naming : Naming, m.entity = naming.entityName m.name) :
    ((Template.builtin .model).render (m.fillings .standard)).Indented := by
  rw [Model.render_eq_outline hm he]
  exact (Outline.nests_allLines (Model.sound_outline hm he) 0).indented

/-- A model with two scalar fields, two relations and both conformances. -/
def postModel : Model where
  name := "Post"
  entity := some "posts"
  fields := [
    { name := "title", type := .scalar .string, isOptional := false },
    { name := "score", type := .scalar .double, isOptional := true },
    { name := "author", type := .relation "user", isOptional := false },
    { name := "parent", type := .relation "Post", isOptional := true }]
  conformances := { node := true, viewData := true }

theorem generated_postModel_indented :
    ((Template.builtin .model).render (postModel.fillings .standard)).Indented :=
  generated_indented postModel (by decide) ⟨{ entity := .plural }, by decide⟩

end Scaffold
