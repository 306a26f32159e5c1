import FileDrop.Core.Error
import FileDrop.Core.Path
import FileDrop.Foundation.Program
import FileDrop.Security.Checksum
import FileDrop.Transfer.Server

/-!
# The sending client

One attempt to send a file: the size, the digest and the body are three reads of the source, and
the response's status class decides. The network is one operation, which takes the request as the
client built it and returns the response or the library's error.
-/
namespace FileDrop

open Effects Unix

/-- `std::net::SocketAddr`, as it is displayed. -/
structure SocketAddr where
  text : String
  deriving DecidableEq, Repr

/-- `client::SendOptions`. -/
structure SendOptions where
  resumeFrom : UInt64
  verifyChecksum : Bool
  deriving DecidableEq, Repr

/-- `SendOptions::default`. -/
def SendOptions.default : SendOptions := ⟨0, true⟩

/-- An open source file: where it is, and where the next read starts. -/
structure SourceHandle where
  path : String
  position : Nat
  deriving DecidableEq, Repr

/-- A file that has been opened is read from its beginning. -/
def SourceHandle.opened (path : String) : SourceHandle := ⟨path, 0⟩

/-- A seek to a file offset, or the error that there is none. -/
def SourceHandle.seek (file : SourceHandle) (position : UInt64) : Except IoError SourceHandle :=
  if position.toNat < offsetLimit then .ok { file with position := position.toNat }
  else .error .invalidArgument

/-- The headers that a send sets. -/
structure SendHeaders where
  filename : String
  totalSize : String
  sha256 : Option String
  contentRange : Option String
  deriving DecidableEq, Repr

/-- A request on its way: its body is read from the open source file. -/
structure SendRequest where
  receiverAddr : SocketAddr
  transferId : Uuid
  headers : SendHeaders
  file : SourceHandle
  session : TransferSession
  deriving DecidableEq

/-- The operations of a send. -/
inductive ClientOp where
  | metadata (path : String)
  /-- Read a whole file in one pass. -/
  | readFile (path : String)
  | openFile (path : String)
  | seek (file : SourceHandle) (position : UInt64)
  | send (request : SendRequest)

/-- What each operation returns. -/
abbrev ClientOp.Result : ClientOp → Type
  | .metadata _ => Except IoError UInt64
  | .readFile _ => Except IoError Bytes
  | .openFile _ => Except IoError SourceHandle
  | .seek _ _ => Except IoError SourceHandle
  | .send _ => Except String Response

/-- The signature of a send. -/
abbrev clientSig : Signature := ⟨ClientOp, ClientOp.Result⟩

/-- Wait for an operation of a send. -/
def clientCall (op : ClientOp) : Program clientSig op.Result := .perform op .done

/-- `StatusCode::is_success`. -/
def isSuccess (status : Nat) : Bool := 200 ≤ status && status < 300

/-- `StatusCode::canonical_reason` of the statuses the server answers with. -/
def canonicalReason : Nat → String
  | 200 => "OK"
  | 206 => "Partial Content"
  | 400 => "Bad Request"
  | 404 => "Not Found"
  | 422 => "Unprocessable Entity"
  | 500 => "Internal Server Error"
  | _ => "<unknown status code>"

/-- The text of the `Content-Range` header. -/
def contentRangeText (resumeFrom totalSize : UInt64) : String :=
  "bytes " ++ decimal resumeFrom ++ "-" ++ decimal (.ofNat (totalSize.toNat - 1)) ++ "/" ++
    decimal totalSize

/-- The headers of a send. -/
def sendHeaders (fileName : String) (totalSize : UInt64) (checksum : Option String)
    (resumeFrom : UInt64) : SendHeaders where
  filename := fileName
  totalSize := decimal totalSize
  sha256 := checksum
  contentRange := if resumeFrom > 0 then some (contentRangeText resumeFrom totalSize) else none

/-- What a send returns. -/
abbrev SendResult : Type := Except FileDropError Unit

/-- What a send makes of its response: every status of the success class will do. -/
def readResponse : Except String Response → SendResult
  | .error text => .error (.network ("send failed: " ++ text))
  | .ok response =>
    if isSuccess response.status then .ok ()
    else .error (.network ("receiver rejected transfer (" ++ toString response.status ++ " " ++
      canonicalReason response.status ++ "): " ++ response.body))

section

variable {sig : Signature} (lift : (op : ClientOp) → Program sig op.Result)

/-- An I/O error ends the send. -/
def sendIo (error : IoError) : Program sig SendResult := .done (.error (.io error))

/-- `checksum::sha256_file`. -/
def sha256File (sha256 : Sha256) (path : String) : Program sig (Except IoError String) :=
  (lift (.readFile path)).bind fun content => .done (content.map (sha256Hex sha256))

/-- The request and the reading of its response. -/
def postFile (request : SendRequest) : Program sig SendResult :=
  (lift (.send request)).bind fun reply => .done (readResponse reply)

/-- `client::send_file`, once the digest is known. -/
def sendBody (receiverAddr : SocketAddr) (transferId : Uuid) (filePath : String)
    (session : TransferSession) (resumeFrom totalSize : UInt64) (checksum : Option String) :
    Program sig SendResult :=
  (lift (.openFile filePath)).attempt sendIo fun file =>
  let post (file : SourceHandle) := postFile lift {
    receiverAddr, transferId, file, session
    headers := sendHeaders ((pathFileName filePath).getD "unnamed_file") totalSize checksum resumeFrom }
  if resumeFrom > 0 then (lift (.seek file resumeFrom)).attempt sendIo post
  else post file

/-- `client::send_file`. -/
def sendFile (sha256 : Sha256) (receiverAddr : SocketAddr) (transferId : Uuid) (filePath : String)
    (session : TransferSession) (opts : SendOptions) : Program sig SendResult :=
  (lift (.metadata filePath)).attempt sendIo fun totalSize =>
    if opts.verifyChecksum then
      (sha256File lift sha256 filePath).attempt sendIo fun checksum =>
        sendBody lift receiverAddr transferId filePath session opts.resumeFrom totalSize
          (some checksum)
    else sendBody lift receiverAddr transferId filePath session opts.resumeFrom totalSize none

variable {lift} {kind : sig.Op → Bool}

/-- Hashing a file waits for client operations only. -/
theorem sha256File_only {path : String} (reads : (lift (.readFile path)).Only kind)
    (sha256 : Sha256) : (sha256File lift sha256 path).Only kind :=
  reads.bind fun _ => trivial

/-- A send waits for client operations only, and posts under the id it was given. -/
theorem sendFile_only {transferId : Uuid}
    (lifts : ∀ op, (∀ request, op = .send request → request.transferId = transferId) →
      (lift op).Only kind)
    (sha256 : Sha256) (receiverAddr : SocketAddr) (filePath : String) (session : TransferSession)
    (opts : SendOptions) :
    (sendFile lift sha256 receiverAddr transferId filePath session opts).Only kind := by
  have body (totalSize : UInt64) (checksum : Option String) :
      (sendBody lift receiverAddr transferId filePath session opts.resumeFrom totalSize
        checksum).Only kind := by
    have post : ∀ request, request.transferId = transferId → (postFile lift request).Only kind := by
      intro request mine
      refine (lifts (.send request) ?_).bind fun _ => trivial
      rintro other ⟨⟩
      exact mine
    refine (lifts (.openFile filePath) (by rintro _ ⟨⟩)).attempt (fun _ => trivial) fun file => ?_
    dsimp only
    split
    · exact (lifts (.seek file opts.resumeFrom) (by rintro _ ⟨⟩)).attempt (fun _ => trivial)
        fun _ => post _ rfl
    · exact post _ rfl
  refine (lifts (.metadata filePath) (by rintro _ ⟨⟩)).attempt (fun _ => trivial) fun totalSize => ?_
  split
  · exact (sha256File_only (lifts (.readFile filePath) (by rintro _ ⟨⟩)) sha256).attempt (fun _ => trivial)
      fun checksum => body totalSize (some checksum)
  · exact body totalSize none

end

end FileDrop
