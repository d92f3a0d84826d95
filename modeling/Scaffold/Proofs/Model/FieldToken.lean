import Scaffold.Proofs.Model.Grammar

/-! Field tokens read and written. A token that is read is the token of its field, so nothing of it
is lost; a field is read back from its token unless the token says something else, as it does for
a reference that is the keyword of a scalar or for a reference with a mark of its own. Main
statement: `Field.token_roundtrip`. -/

namespace Scaffold

/-- A type is understood from its keyword alone, and a relation only if its reference is not the
keyword of a scalar. -/
theorem FieldType.named_iff_keyword {text : Text} {type : FieldType} :
    type.Named text ↔
      text = type.keyword ∧ ∀ r, type = .relation r → ∀ s : Scalar, r ≠ s.keyword := by
  constructor
  · rintro (s | other)
    · exact ⟨rfl, by simp⟩
    · exact ⟨rfl, by rintro r ⟨rfl⟩; exact other⟩
  · rintro ⟨rfl, href⟩
    cases type with
    | scalar s => exact .scalar s
    | relation r => exact .relation (href r rfl)

namespace Field

/-- The fields that a token can describe. -/
structure IsReadable (f : Field) : Prop where
  name : ':' ∉ f.name
  type_ne_nil : f.type.keyword ≠ []
  type : ':' ∉ f.type.keyword
  /-- Such a reference would be read as the scalar. -/
  reference : ∀ r, f.type = .relation r → ∀ s : Scalar, r ≠ s.keyword
  /-- Such a mark would be read as that of an optional field. -/
  mark : f.isOptional = false → f.type.keyword.getLast? ≠ some '!'

variable {t : Text} {f : Field}

theorem token_of_isOptional (h : f.isOptional = true) :
    f.token = f.name ++ ':' :: (f.type.keyword ++ ['!']) := by
  simp [token, h]

theorem token_of_not_isOptional (h : f.isOptional = false) :
    f.token = f.name ++ ':' :: f.type.keyword := by
  simp [token, h]

/-- A token describes a field exactly if it is the token of the field, and the field is readable. -/
theorem describedBy_iff_token : f.DescribedBy t ↔ t = f.token ∧ f.IsReadable := by
  constructor
  · rintro ⟨type, rfl, hn, hc, ⟨ho, text, rfl, hne, hnamed⟩ | ⟨ho, hl, hne, hnamed⟩⟩
    · obtain ⟨rfl, href⟩ := FieldType.named_iff_keyword.1 hnamed
      have hc' : ':' ∉ f.type.keyword := fun hm => hc (List.mem_append_left _ hm)
      exact ⟨(token_of_isOptional ho).symm, hn, hne, hc', href, by simp [ho]⟩
    · obtain ⟨rfl, href⟩ := FieldType.named_iff_keyword.1 hnamed
      exact ⟨(token_of_not_isOptional ho).symm, hn, hne, hc, href, fun _ => hl⟩
  · rintro ⟨rfl, hf⟩
    have hnamed : f.type.Named f.type.keyword := FieldType.named_iff_keyword.2 ⟨rfl, hf.reference⟩
    cases ho : f.isOptional with
    | true =>
      have hc : ':' ∉ f.type.keyword ++ ['!'] := by simp [hf.type]
      exact ⟨_, token_of_isOptional ho, hf.name, hc,
        .inl ⟨ho, _, rfl, hf.type_ne_nil, hnamed⟩⟩
    | false =>
      exact ⟨_, token_of_not_isOptional ho, hf.name, hf.type,
        .inr ⟨ho, hf.mark ho, hf.type_ne_nil, hnamed⟩⟩

/-- What is read from a token is written as that token again, and a field is read from the token
that is written for it exactly if it is readable. -/
theorem token_roundtrip (t : Text) (f : Field) :
    (ofToken t = .ok f → f.token = t) ∧ (ofToken f.token = .ok f ↔ f.IsReadable) := by
  constructor
  · intro h
    exact (describedBy_iff_token.1 (ofToken_eq_ok_iff.1 h)).1.symm
  · rw [ofToken_eq_ok_iff, describedBy_iff_token]
    exact ⟨And.right, fun hf => ⟨rfl, hf⟩⟩

/-- The second mark of a token stays with the reference. -/
example : ofToken "editor:user!!" = .ok ⟨"editor", .relation "user!", true⟩ := by
  decide

end Field
end Scaffold
