import FileDrop.Core.Text
import FileDrop.Core.Uuid

/-!
# SHA-256 digests

The digest function is a parameter: of SHA-256 the code relies on nothing but that the digest is a
function of the concatenated input. A hasher is the input it has absorbed.
-/
namespace FileDrop

open Unix (Bytes)

/-- `sha2::Sha256`: the digest of an input. -/
abbrev Sha256 : Type := Bytes → Bytes

/-- `checksum::hex_encode`. -/
def hexEncode (bytes : Bytes) : String :=
  .ofList (bytes.flatMap fun byte => [hexDigit (byte.toNat / 16), hexDigit (byte.toNat % 16)])

/-- The digest of a file's bytes as `sha256_file` and `finalize_hex` give it. -/
def sha256Hex (sha256 : Sha256) (bytes : Bytes) : String := hexEncode (sha256 bytes)

/-- A digest has hexadecimal digits only. -/
theorem sha256Hex_chars {sha256 : Sha256} {bytes : Bytes} {c : Char}
    (member : c ∈ (sha256Hex sha256 bytes).toList) : c ∈ hexDigits := by
  rw [sha256Hex, hexEncode, String.toList_ofList] at member
  obtain ⟨byte, -, digit⟩ := List.mem_flatMap.mp member
  rcases List.mem_cons.mp digit with rfl | low
  · exact hexDigit_mem _
  · rw [List.mem_singleton.mp low]
    exact hexDigit_mem _

/-- So has every text that a header announces a digest with. -/
theorem sha256Hex_announced (sha256 : Sha256) (bytes : Bytes) :
    ∀ hash ∈ some (sha256Hex sha256 bytes), ∀ c ∈ hash.toList, c ∈ hexDigits := by
  rintro hash ⟨rfl⟩ c member
  exact sha256Hex_chars member

/-- `checksum::Sha256Hasher`. -/
structure Sha256Hasher where
  /-- Everything the hasher was updated with, in order. -/
  absorbed : Bytes
  deriving DecidableEq, Repr

namespace Sha256Hasher

/-- `Sha256Hasher::new`. -/
def new : Sha256Hasher := ⟨[]⟩

/-- `update`. -/
def update (hasher : Sha256Hasher) (chunk : Bytes) : Sha256Hasher := ⟨hasher.absorbed ++ chunk⟩

/-- `finalize_hex`. -/
def finalizeHex (hasher : Sha256Hasher) (sha256 : Sha256) : String :=
  sha256Hex sha256 hasher.absorbed

end Sha256Hasher

end FileDrop
