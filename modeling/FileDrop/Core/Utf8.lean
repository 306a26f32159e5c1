import FileDrop.Core.Text

/-!
# Texts in bytes

Which text bytes are the UTF-8 encoding of.
-/
namespace FileDrop

open Unix (Bytes)

/-- The characters that bytes are the UTF-8 encoding of. -/
def fromUtf8 (bytes : Bytes) : Option (List Char) := (ByteArray.mk bytes.toArray).utf8Decode?.map Array.toList

/-- Bytes that are read as text are the bytes of that text. -/
theorem utf8Encode_of_fromUtf8 {bytes : Bytes} {chars : List Char} (read : fromUtf8 bytes = some chars) :
    chars.utf8Encode = ⟨bytes.toArray⟩ := by
  obtain ⟨decoded, whole, rfl⟩ := Option.map_eq_some_iff.mp read
  have there : (ByteArray.mk bytes.toArray).utf8Decode?.isSome := by
    rw [whole]
    rfl
  have same : (ByteArray.mk bytes.toArray).utf8Decode?.get there = decoded := by
    simp only [whole, Option.get_some]
  rw [← same]
  exact ByteArray.utf8Encode_get_utf8Decode?

/-- The bytes of a text are read as it. -/
theorem fromUtf8_asBytes (text : String) : fromUtf8 (asBytes text) = some text.toList := by
  have bytes : (ByteArray.mk (asBytes text).toArray) = text.toList.utf8Encode := by
    rw [String.utf8Encode_toList]
    exact ByteArray.ext (Array.toArray_toList)
  rw [fromUtf8, bytes, List.utf8Decode?_utf8Encode, Option.map_some]

end FileDrop
