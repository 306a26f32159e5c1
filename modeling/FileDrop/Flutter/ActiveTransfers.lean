import FileDrop.Ffi.Api
import FileDrop.Foundation.InsertionMap

/-!
# The active transfers of the app

What the app keeps of the engine's events: a map from transfer ids to their progress, written by
one handler, and the Home tab that is routed by whether the map is empty. Ids are texts here, and the
map is a Dart map, which keeps its keys in the order they came.
-/
namespace FileDrop.Flutter

/-- `Device`. -/
structure Device where
  deviceId : String
  name : String
  address : String
  port : Int
  platform : String
  paired : Bool
  deriving DecidableEq, Repr

/-- `TransferProgress`, as the app has it. -/
structure TransferProgress where
  transferId : String
  fileName : String
  bytesTransferred : Int
  totalBytes : Int
  status : TransferStatus
  bytesPerSec : Float
  error : Option String
  deriving Repr

/-- `TransferProgress.copyWith`: an argument that is left out keeps the old value. -/
def TransferProgress.copyWith (progress : TransferProgress) (bytesTransferred : Option Int)
    (status : Option TransferStatus) (bytesPerSec : Option Float) (error : Option String) :
    TransferProgress where
  transferId := progress.transferId
  fileName := progress.fileName
  bytesTransferred := bytesTransferred.getD progress.bytesTransferred
  totalBytes := progress.totalBytes
  status := status.getD progress.status
  bytesPerSec := bytesPerSec.getD progress.bytesPerSec
  error := error <|> progress.error

/-- The sealed class `FileDropEvent`. -/
inductive FileDropEvent where
  | deviceDiscovered (device : Device)
  | deviceConnected (deviceId : String)
  | pairingRequested (deviceId deviceName token : String)
  | transferStarted (transferId fileName : String) (totalBytes : Int)
  | transferProgress (progress : TransferProgress)
  | transferPaused (transferId : String)
  | transferCompleted (transferId sha256 : String)
  | transferFailed (transferId error : String)
  | deviceDisconnected (deviceId : String)

/-- The state of `ActiveTransfersNotifier`. -/
abbrev ActiveTransfers : Type := InsertionMap String TransferProgress

/-- `ActiveTransfersNotifier._handle`. -/
def handle (state : ActiveTransfers) : FileDropEvent → ActiveTransfers
  | .transferStarted transferId fileName totalBytes =>
    state.insert transferId
      { transferId, fileName, bytesTransferred := 0, totalBytes, status := .inProgress,
        bytesPerSec := 0, error := none }
  | .transferProgress progress => state.insert progress.transferId progress
  | .transferPaused transferId =>
    match state.get? transferId with
    | some existing => state.insert transferId (existing.copyWith none (some .paused) none none)
    | none => state
  | .transferCompleted transferId _ =>
    match state.get? transferId with
    | some existing => state.insert transferId (existing.copyWith none (some .completed) none none)
    | none => state
  | .transferFailed transferId error =>
    match state.get? transferId with
    | some existing =>
      state.insert transferId (existing.copyWith none (some .failed) none (some error))
    | none => state
  | .deviceDiscovered _ | .deviceConnected _ | .pairingRequested .. | .deviceDisconnected _ => state

/-! ### Events that change the entry of their transfer -/

theorem handle_transferPaused (state : ActiveTransfers) (transferId : String) :
    handle state (.transferPaused transferId) =
      state.modify transferId fun existing => existing.copyWith none (some .paused) none none := by
  cases found : state.get? transferId with
  | none | some => simp only [handle, InsertionMap.modify, found]

theorem handle_transferCompleted (state : ActiveTransfers) (transferId sha256 : String) :
    handle state (.transferCompleted transferId sha256) =
      state.modify transferId fun existing => existing.copyWith none (some .completed) none none := by
  cases found : state.get? transferId with
  | none | some => simp only [handle, InsertionMap.modify, found]

theorem handle_transferFailed (state : ActiveTransfers) (transferId error : String) :
    handle state (.transferFailed transferId error) =
      state.modify transferId fun existing =>
        existing.copyWith none (some .failed) none (some error) := by
  cases found : state.get? transferId with
  | none | some => simp only [handle, InsertionMap.modify, found]

/-- The map after a sequence of events, from `build` on. -/
def activeTransfers (events : List FileDropEvent) : ActiveTransfers := events.foldl handle .empty

/-- `HomeFlowStage`. -/
inductive HomeFlowStage where
  | idle
  | filePicker
  | deviceSelectSend
  | confirmSend
  | receiveMode
  deriving DecidableEq, Repr

/-- The views of the Home tab. -/
inductive HomeView where
  | activeTransfersView
  | idleView
  | filePickerView
  | deviceSelectSendView
  | confirmSendView
  | receiveModeView
  deriving DecidableEq, Repr

/-- The view of a stage. -/
def HomeFlowStage.view : HomeFlowStage → HomeView
  | .idle => .idleView
  | .filePicker => .filePickerView
  | .deviceSelectSend => .deviceSelectSendView
  | .confirmSend => .confirmSendView
  | .receiveMode => .receiveModeView

/-- `HomeScreen.build`. -/
def homeScreen (transfers : ActiveTransfers) (stage : HomeFlowStage) : HomeView :=
  if !transfers.isEmpty then .activeTransfersView else stage.view

/-! ## Events of the engine -/

/-- `BigInt.toInt`: what does not fit becomes the greatest integer. -/
def toInt (value : UInt64) : Int := min value.toNat (2 ^ 63 - 1)

/-- `toFileDropEvent`, on the events of a transfer. -/
def toFileDropEvent : FileDrop.FileDropEvent → FileDropEvent
  | .transferStarted transferId fileName totalBytes =>
    .transferStarted transferId.toText fileName (toInt totalBytes)
  | .transferPaused transferId => .transferPaused transferId.toText
  | .transferCompleted transferId sha256 => .transferCompleted transferId.toText sha256
  | .transferFailed transferId error => .transferFailed transferId.toText error

/-- The map of an app that the events of an engine were delivered to, in order. -/
def delivered (events : List FileDrop.FileDropEvent) : ActiveTransfers :=
  activeTransfers (events.map toFileDropEvent)

end FileDrop.Flutter
