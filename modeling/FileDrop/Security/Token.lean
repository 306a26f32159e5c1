import FileDrop.Core.Error
import FileDrop.Core.Text

/-!
# Pairing tokens

The format check of a presented token and the comparison with the stored one. The comparison
ors the xor of every pair of bytes into one word; it is equality of the texts.
-/
namespace FileDrop

open Unix (Bytes)

/-- `security::TOKEN_BYTE_LEN`: random bytes behind a token. -/
def tokenByteLen : Nat := 32

/-- `token::EXPECTED_ENCODED_LEN`: length of their unpadded base64 text. -/
def expectedEncodedLen : Nat := 43

/-- `u8::is_ascii_alphanumeric`. -/
def isAsciiAlphanumeric (byte : UInt8) : Bool :=
  (48 ≤ byte && byte ≤ 57) || (65 ≤ byte && byte ≤ 90) || (97 ≤ byte && byte ≤ 122)

/-- `security::validate_token_format`. -/
def validateTokenFormat (token : String) : Except FileDropError Unit :=
  if (asBytes token).length ≠ expectedEncodedLen then .error .invalidPairingToken
  else if (asBytes token).all fun byte => isAsciiAlphanumeric byte || byte == 45 || byte == 95 then
    .ok ()
  else .error .invalidPairingToken

/-- One round of the comparison loop: differing bits stay set. -/
def diffStep (diff : UInt8) (pair : UInt8 × UInt8) : UInt8 := diff ||| (pair.1 ^^^ pair.2)

/-- `security::tokens_match`. -/
def tokensMatch (a b : String) : Bool :=
  if (asBytes a).length ≠ (asBytes b).length then false
  else ((asBytes a).zip (asBytes b)).foldl diffStep 0 == 0

/-- The accumulator ends at zero exactly when it starts there and no pair differs. -/
theorem foldl_diffStep_eq_zero (pairs : List (UInt8 × UInt8)) (diff : UInt8) :
    pairs.foldl diffStep diff = 0 ↔ diff = 0 ∧ ∀ pair ∈ pairs, pair.1 = pair.2 := by
  induction pairs generalizing diff with
  | nil => simp
  | cons pair pairs ih =>
    rw [List.foldl_cons, ih, diffStep, UInt8.or_eq_zero_iff, UInt8.xor_eq_zero_iff]
    simp only [List.forall_mem_cons, and_assoc]

/-- Lists of one length agree at every pair exactly when they are equal. -/
theorem zip_agrees_iff {left right : Bytes} (length : left.length = right.length) :
    (∀ pair ∈ left.zip right, pair.1 = pair.2) ↔ left = right := by
  induction left generalizing right with
  | nil => simpa using length.symm
  | cons x left ih =>
    cases right with
    | nil => simp at length
    | cons y right =>
      have tails := ih (Nat.succ.inj length)
      simp only [List.zip_cons_cons, List.forall_mem_cons, tails, List.cons.injEq]

/-- The comparison accepts exactly the stored token. -/
theorem tokensMatch_eq_true (a b : String) : tokensMatch a b = true ↔ a = b := by
  unfold tokensMatch
  by_cases length : (asBytes a).length = (asBytes b).length
  · rw [if_neg (not_not.mpr length), beq_iff_eq, foldl_diffStep_eq_zero, zip_agrees_iff length]
    constructor
    · intro agree
      exact asBytes_injective agree.2
    · rintro rfl
      exact ⟨rfl, rfl⟩
  · rw [if_pos length]
    constructor
    · intro accepted
      contradiction
    · rintro rfl
      exact absurd rfl length

end FileDrop
