import FileDrop.Transfer.Queue
import FileDrop.Transfer.Server

/-!
# What is known of a transfer

The progress of a session, and what the server tells a resuming sender. The server's answer comes
from the sessions' map and the session's counter; the staging file is not asked.
-/
namespace FileDrop

/-- `progress::TransferProgress`. -/
structure TransferProgress where
  transferId : Uuid
  fileName : String
  bytesTransferred : UInt64
  totalBytes : UInt64
  status : TransferStatus
  error : Option String
  deriving DecidableEq, Repr

/-- `TransferSession::progress`. -/
def TransferSession.progress (session : TransferSession) (cells : SessionCells)
    (status : TransferStatus) (error : Option String) : TransferProgress where
  transferId := session.id
  fileName := session.fileName
  bytesTransferred := (cells.content session.cell).bytesTransferred
  totalBytes := session.totalBytes
  status := status
  error := error

/-- `server::TransferStatusResponse`. -/
structure TransferStatusResponse where
  transferId : Uuid
  bytesReceived : UInt64
  totalBytes : UInt64
  status : TransferStatus
  deriving DecidableEq, Repr

/-- `server::transfer_status`, under the map's read lock: an answer, or a refusal. -/
def transferStatus (world : ServerWorld) (transferId : Uuid) :
    Except Response TransferStatusResponse :=
  match world.sessions transferId with
  | some session => .ok {
      transferId
      bytesReceived := (world.cells.content session.cell).bytesTransferred
      totalBytes := session.totalBytes
      status := if world.cells.isPaused session.cell then .paused else .inProgress }
  | none => .error ⟨404, "unknown transfer"⟩

end FileDrop
