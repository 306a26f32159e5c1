import FileDrop.Core.Uuid
import FileDrop.Foundation.FileOps

/-!
# The crate's error type

`FileDropError` with the text each variant is displayed with. Errors of the operating system
and of the JSON library are carried as their own texts.
-/
namespace FileDrop

open Unix (IoError)

/-- `error::FileDropError`. -/
inductive FileDropError where
  | io (error : IoError)
  | unsafePath (reason : String)
  | invalidFilename (reason : String)
  | invalidPairingToken
  | checksumMismatch (expected actual : String)
  | transferNotFound (id : Uuid)
  | deviceNotFound (id : Uuid)
  | storage (reason : String)
  | discovery (reason : String)
  | network (reason : String)
  | serde (reason : String)
  | unsupportedOnPlatform (reason : String)
  | invalidState (reason : String)
  deriving DecidableEq, Repr

/-- `Display` of the error type. -/
def FileDropError.toText : FileDropError → String
  | .io error => "io error: " ++ error.text
  | .unsafePath reason => "invalid or unsafe path: " ++ reason
  | .invalidFilename reason => "invalid filename: " ++ reason
  | .invalidPairingToken => "pairing token invalid or expired"
  | .checksumMismatch expected actual =>
    "checksum mismatch: expected " ++ expected ++ ", got " ++ actual
  | .transferNotFound id => "transfer not found: " ++ id.toText
  | .deviceNotFound id => "device not found: " ++ id.toText
  | .storage reason => "storage error: " ++ reason
  | .discovery reason => "discovery error: " ++ reason
  | .network reason => "network error: " ++ reason
  | .serde reason => "serialization error: " ++ reason
  | .unsupportedOnPlatform reason => "operation not supported on this platform: " ++ reason
  | .invalidState reason => "invalid state transition: " ++ reason

end FileDrop
