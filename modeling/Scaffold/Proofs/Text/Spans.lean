import Scaffold.Diagnostic
import Scaffold.Text.Utf8

/-! Stretches of a text. A span counts bytes of the UTF-8 form; that its ends lie between characters
is said by naming the texts in front of it and behind it. -/

namespace Scaffold

theorem Text.size_encode (t : Text) : (Text.encode t).size = t.byteSize := by
  have htext : Text.encode t = t.utf8Encode := String.toByteArray_ofList
  rw [htext]
  induction t with
  | nil => rfl
  | cons c t ih =>
    rw [List.utf8Encode_cons, ByteArray.size_append, ih rfl, Text.byteSize, List.utf8Encode_singleton]
    simp

/-- `span` is the stretch of a text that holds `part`, behind `before` and in front of `after`. -/
structure Span.Covers (span : Span) (text before part after : Text) : Prop where
  text : text = before ++ part ++ after
  offset : span.offset = (Text.encode before).size
  length : span.length = (Text.encode part).size

/-- A text has one stretch for each way to cut it into three. -/
theorem Span.covers_iff {span : Span} {text before part after : Text} :
    span.Covers text before part after ↔
      text = before ++ part ++ after ∧ span = ⟨before.byteSize, part.byteSize⟩ := by
  constructor
  · rintro ⟨rfl, ho, hl⟩
    rw [Text.size_encode] at ho hl
    rw [← ho, ← hl]
    exact ⟨rfl, rfl⟩
  · rintro ⟨rfl, rfl⟩
    exact ⟨rfl, (Text.size_encode before).symm, (Text.size_encode part).symm⟩

end Scaffold
