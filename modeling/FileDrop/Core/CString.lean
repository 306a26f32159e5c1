import FileDrop.Core.Utf8

/-!
# C strings

The bytes before the NUL that ends a C string, and the texts that go through one. A text with a NUL inside
goes through none.
-/
namespace FileDrop

open Unix (Bytes)

/-- `CString`: the bytes before the end, none of which is zero. -/
structure CString where
  bytes : Bytes
  noNul : 0 ∉ bytes

namespace CString

/-- `CString::new`. -/
def new (text : String) : Option CString :=
  if noNul : 0 ∉ asBytes text then some ⟨asBytes text, noNul⟩ else none

/-- `CStr::to_str`, copied into a `String`. -/
def toStr (cstr : CString) : Option String := (fromUtf8 cstr.bytes).map String.ofList

/-- Only the character NUL has a byte that is zero. -/
theorem nul_byte {c : Char} (found : 0 ∈ String.utf8EncodeChar c) : c = '\x00' := by
  by_cases wide : 128 ≤ c.toNat
  · have high := (wide_bytes wide).2 _ found
    exact absurd high (by decide)
  · have small : c.val ≤ 127 := UInt32.le_iff_toNat_le.mpr (by show c.toNat ≤ 127; omega)
    have single : c.utf8Size = 1 := by simp [Char.utf8Size, small]
    rw [String.utf8EncodeChar_eq_singleton single, List.mem_singleton] at found
    have code := congrArg UInt8.toNat found
    rw [UInt32.toNat_toUInt8] at code
    have zero : c.toNat % 256 = 0 := code.symm
    exact Char.toNat_inj.mp (by show c.toNat = 0; omega)

/-- A text without NUL has a C string. -/
theorem new_isSome_iff (text : String) : (new text).isSome ↔ '\x00' ∉ text.toList := by
  unfold new
  split
  · rename_i noNul
    refine iff_of_true rfl fun member => noNul (mem_asBytes.mpr ⟨'\x00', member, ?_⟩)
    decide
  · rename_i nul
    refine iff_of_false nofun fun absent => nul fun zero => ?_
    obtain ⟨c, member, byte⟩ := mem_asBytes.mp zero
    exact absent (nul_byte byte ▸ member)

/-- It is read as that text. -/
theorem toStr_new {text : String} {cstr : CString} (made : new text = some cstr) : cstr.toStr = some text := by
  unfold new at made
  split at made
  · obtain rfl := Option.some.inj made
    rw [toStr, fromUtf8_asBytes, Option.map_some, String.ofList_toList]
  · cases made

end CString

end FileDrop
