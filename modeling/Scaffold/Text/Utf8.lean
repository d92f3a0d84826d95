import Scaffold.Text.Basic

/-! Texts as bytes. What a text is written as reads back as the text. -/

namespace Scaffold.Text

/-- The UTF-8 form of a text. -/
def encode (t : Text) : ByteArray :=
  (String.ofList t).toUTF8

/-- The text of bytes, if they are well-formed UTF-8. -/
def decode? (b : ByteArray) : Option Text :=
  (String.fromUTF8? b).map String.toList

theorem fromUTF8?_toUTF8 (s : String) : String.fromUTF8? s.toUTF8 = some s := by
  have valid : s.toUTF8.IsValidUTF8 := s.isValidUTF8
  rw [String.fromUTF8?, dif_pos valid]
  rfl

@[simp] theorem decode?_encode (t : Text) : decode? (encode t) = some t := by
  rw [decode?, encode, fromUTF8?_toUTF8]
  simp

/-- Bytes that read as a text are what the text is written as. -/
theorem encode_of_decode? {b : ByteArray} {t : Text} (h : decode? b = some t) : encode t = b := by
  unfold decode? String.fromUTF8? at h
  split at h
  · next valid =>
    simp only [Option.map_some, Option.some.injEq] at h
    subst h
    simp only [encode, String.ofList_toList]
    rfl
  · simp at h

end Scaffold.Text
