import FileDrop.Ffi.Events
import FileDrop.Flutter.ActiveTransfers

/-!
# Events in the app

What the app makes of the bridge's events, field by field. Ids become texts, and counters become the
app's integers.
-/
namespace FileDrop.Flutter

/-- `_deviceFromDto`. -/
def deviceFromDto (dto : DiscoveredDevice) : Device where
  deviceId := dto.deviceId.toText
  name := dto.name
  address := dto.address
  port := dto.port.toNat
  platform := dto.platform
  paired := dto.paired

/-- `_progressFromDto`. -/
def progressFromDto (dto : FileDrop.TransferProgress) (bytesPerSec : Float) : TransferProgress where
  transferId := dto.transferId.toText
  fileName := dto.fileName
  bytesTransferred := toInt dto.bytesTransferred
  totalBytes := toInt dto.totalBytes
  status := dto.status
  bytesPerSec := bytesPerSec
  error := dto.error

/-- `toFileDropEvent`, on the events that `subscribe_events` streams. -/
def ofEvent : Events.FileDropEvent → FileDropEvent
  | .deviceDiscovered device => .deviceDiscovered (deviceFromDto device)
  | .deviceConnected deviceId => .deviceConnected deviceId.toText
  | .pairingRequested deviceId deviceName token => .pairingRequested deviceId.toText deviceName token
  | .transferStarted transferId fileName totalBytes =>
    .transferStarted transferId.toText fileName (toInt totalBytes)
  | .transferProgress progress bytesPerSec => .transferProgress (progressFromDto progress bytesPerSec)
  | .transferPaused transferId => .transferPaused transferId.toText
  | .transferCompleted transferId sha256 => .transferCompleted transferId.toText sha256
  | .transferFailed transferId error => .transferFailed transferId.toText error
  | .deviceDisconnected deviceId => .deviceDisconnected deviceId.toText

/-- On the events of a transfer this is what the sending engine's events become. -/
theorem ofEvent_ofTransfer (event : FileDrop.FileDropEvent) :
    ofEvent (Events.ofTransfer event) = toFileDropEvent event := by
  cases event with
  | transferStarted | transferPaused | transferCompleted | transferFailed => rfl

end FileDrop.Flutter
