import Mathlib.Data.List.Forall2
import Scaffold.Proofs.Model.Outline

/-! Models are put together field by field. What a field contributes to a place depends on the field
and on the name of the model, and on no other field: nine places have one contribution of each
field, and the accessors have one of each relation. All other places are the same whatever the
fields are. Main statement: `fillings_append`. -/

namespace Scaffold.Model

variable {indent : Indent} {m : Model} {p : Placeholder}

/-- The filling of a place for a model with these fields instead of its own. -/
def filled (indent : Indent) (m : Model) (xs : List Field) (p : Placeholder) : Option Filling :=
  (fillings indent { m with fields := xs }).get? p

theorem filled_eq {xs : List Field} {ts : List Text}
    (h : contributions indent { m with fields := xs } p = some ts) :
    filled indent m xs p = some ⟨layout indent p, ts.map Filling.contribution,
      p == .viewData && m.conformances.node⟩ := by
  simp [filled, fillings, h, Filling.ofList]

/-- What fields contribute to a place, each on its own. -/
def contributed (indent : Indent) (m : Model) (p : Placeholder) (xs : List Field) : List Text :=
  if p = .parents then (xs.filter (·.isRelation)).map (parentAccessor indent m.name)
  else xs.filterMap fun x => fieldLine m.name x p

theorem contributed_append (xs ys : List Field) : contributed indent m p (xs ++ ys) =
    contributed indent m p xs ++ contributed indent m p ys := by
  unfold contributed
  split
  · rw [List.filter_append, List.map_append]
  · exact List.filterMap_append

theorem contributions_eq_contributed (hp : p ∈ Placeholder.fieldIndexed ∨ p = .parents)
    (xs : List Field) :
    contributions indent { m with fields := xs } p = some (contributed indent m p xs) := by
  rcases hp with hp | rfl
  · have hne : p ≠ .parents := by
      rintro rfl
      exact absurd hp (by decide)
    rw [contributions_eq hp, contributed, if_neg hne]
  · rfl

/-- The contributions for a place with a line of every field come one from each field, in order. -/
theorem forall₂_contributed (hp : p ∈ Placeholder.fieldIndexed) (xs : List Field) :
    List.Forall₂ (fun x t => fieldLine m.name x p = some t) xs (contributed indent m p xs) := by
  have hne : p ≠ .parents := by
    rintro rfl
    exact absurd hp (by decide)
  have hlines := map_some_fieldLines hp m.name xs
  rw [contributed, if_neg hne]
  generalize (xs.filterMap fun x => fieldLine m.name x p) = ts at hlines
  rw [← List.forall₂_eq_eq_eq, List.forall₂_map_left_iff, List.forall₂_map_right_iff] at hlines
  exact hlines.flip.imp fun _ _ h => h.symm

theorem filled_other (hp : p ∉ Placeholder.fieldIndexed) (hne : p ≠ .parents)
    (xs ys : List Field) : filled indent m xs p = filled indent m ys p := by
  cases p <;> first | rfl | contradiction

/-- The texts for a model with the fields `xs` and then `ys` are, in each place that depends on the
fields, those for `xs` and then those for `ys`: one for each field, or one for each relation. In any
other place they are the same for all fields. -/
theorem fillings_append (indent : Indent) (m : Model) (xs ys : List Field) :
    (∀ p, p ∈ Placeholder.fieldIndexed ∨ p = .parents → ∃ f g : Filling,
      filled indent m xs p = some f ∧ filled indent m ys p = some g ∧
      filled indent m (xs ++ ys) p =
        some { f with contributions := f.contributions ++ g.contributions }) ∧
    (∀ p ∈ Placeholder.fieldIndexed, ∃ f, filled indent m xs p = some f ∧
      List.Forall₂ (fun x t => (fieldLine m.name x p).map Filling.contribution = some t)
        xs f.contributions) ∧
    (∃ f, filled indent m xs .parents = some f ∧
      List.Forall₂ (fun x t => Filling.contribution (parentAccessor indent m.name x) = t)
        (xs.filter (·.isRelation)) f.contributions) ∧
    ∀ p ∉ Placeholder.fieldIndexed, p ≠ .parents →
      filled indent m xs p = filled indent m ys p ∧
      filled indent m (xs ++ ys) p = filled indent m xs p := by
  refine ⟨fun p hp => ?_, fun p hp => ?_, ?_, fun p hp hne => ?_⟩
  · refine ⟨_, _, filled_eq (contributions_eq_contributed hp xs),
      filled_eq (contributions_eq_contributed hp ys), ?_⟩
    rw [filled_eq (contributions_eq_contributed hp (xs ++ ys)), contributed_append,
      List.map_append]
  · refine ⟨_, filled_eq (contributions_eq_contributed (.inl hp) xs), ?_⟩
    rw [List.forall₂_map_right_iff]
    exact (forall₂_contributed hp xs).imp fun x t h => by rw [h]; rfl
  · refine ⟨_, filled_eq (contributions_eq_contributed (.inr rfl) xs), ?_⟩
    rw [contributed, if_pos rfl, List.map_map, List.forall₂_map_right_iff, List.forall₂_same]
    exact fun x _ => rfl
  · exact ⟨filled_other hp hne xs ys, filled_other hp hne (xs ++ ys) xs⟩

end Scaffold.Model
