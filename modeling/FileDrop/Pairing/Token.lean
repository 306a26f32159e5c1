import FileDrop.Foundation.Base64
import FileDrop.Security.Token

/-!
# Generated tokens

A token is the text of `TOKEN_BYTE_LEN` random bytes. The bytes are the environment's choice; the text is
made by an engine of another crate, which is a parameter here with what its documentation says of it.
-/
namespace FileDrop

open Unix (Bytes)

/-- What `URL_SAFE_NO_PAD.encode` is documented to be: unpadded base64 in the URL-safe alphabet. -/
def UrlSafeNoPad (encode : Bytes → String) : Prop :=
  ∀ bytes, Base64.Encodes Base64.urlSafe bytes (encode bytes)

/-- `generate_pairing_token`, with the array that `fill_bytes` leaves in `bytes`. -/
def generatePairingToken (encode : Bytes → String) (bytes : Vector UInt8 tokenByteLen) : String :=
  encode bytes.toList

end FileDrop
