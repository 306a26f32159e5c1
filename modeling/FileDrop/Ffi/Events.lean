import FileDrop.Discovery.Mdns
import FileDrop.Ffi.Api
import FileDrop.Ffi.Pairing
import FileDrop.Transfer.Status

/-!
# Events

Everything that is streamed from the engine to the app. The events a transfer emits are those of the
sending engine; here they stand beside the ones about devices and pairing.
-/
namespace FileDrop.Events
open FileDrop

/-- `events::FileDropEvent`. -/
inductive FileDropEvent where
  | deviceDiscovered (device : DiscoveredDevice)
  | deviceConnected (deviceId : Uuid)
  | pairingRequested (deviceId : Uuid) (deviceName token : String)
  | transferStarted (transferId : Uuid) (fileName : String) (totalBytes : UInt64)
  /-- The rate stands beside the rest of the progress. -/
  | transferProgress (progress : TransferProgress) (bytesPerSec : Float)
  | transferPaused (transferId : Uuid)
  | transferCompleted (transferId : Uuid) (sha256 : String)
  | transferFailed (transferId : Uuid) (error : String)
  | deviceDisconnected (deviceId : Uuid)
  deriving Repr

/-- An event of the sending engine. -/
def ofTransfer : FileDrop.FileDropEvent → FileDropEvent
  | .transferStarted transferId fileName totalBytes => .transferStarted transferId fileName totalBytes
  | .transferPaused transferId => .transferPaused transferId
  | .transferCompleted transferId sha256 => .transferCompleted transferId sha256
  | .transferFailed transferId error => .transferFailed transferId error

/-- The event that `pair_device` emits. -/
def ofPairing (requested : PairingRequested) : FileDropEvent :=
  .pairingRequested requested.deviceId requested.deviceName requested.token

end FileDrop.Events
