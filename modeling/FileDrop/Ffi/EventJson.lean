import FileDrop.Core.UuidText
import FileDrop.Ffi.Events
import FileDrop.Foundation.JsonLibrary

/-!
# The texts of events

The derived `Serialize` of an event and of what it carries: an object with the name of the variant under
`type` and its fields under `data`. What writes the value as a text is a parameter, and so is how the text
of a rate looks; a rate that is not finite has none, and is written as null.
-/
namespace FileDrop

/-- `TransferStatus`: the name of a variant. -/
def TransferStatus.name : TransferStatus → String
  | .queued => "Queued"
  | .connecting => "Connecting"
  | .inProgress => "InProgress"
  | .paused => "Paused"
  | .completed => "Completed"
  | .failed => "Failed"
  | .cancelled => "Cancelled"

namespace DiscoveredDevice

/-- The names of the fields, in the order of the declaration. -/
def fieldNames : List String := ["device_id", "name", "address", "port", "platform", "paired"]

/-- `Serialize`. -/
def toJson (device : DiscoveredDevice) : Json.Value :=
  Json.record fieldNames [.string device.deviceId.toText, .string device.name, .string device.address,
    .ofNat device.port.toNat, .string device.platform, .bool device.paired]

/-- `Deserialize`. -/
def ofJson (value : Json.Value) : Option DiscoveredDevice :=
  match Json.fields [] fieldNames value with
  | some [deviceId, name, address, port, platform, paired] => do
    some {
      deviceId := ← Uuid.parseStr (← deviceId.asString)
      name := ← name.asString
      address := ← address.asString
      port := .ofNat (← port.asNat (2 ^ 16))
      platform := ← platform.asString
      paired := ← paired.asBool }
  | _ => none

/-- A device is read from its fields. -/
theorem ofJson_toJson (device : DiscoveredDevice) : ofJson device.toJson = some device := by
  have read : Json.fields [] fieldNames device.toJson =
      some [.string device.deviceId.toText, .string device.name, .string device.address,
        .ofNat device.port.toNat, .string device.platform, .bool device.paired] :=
    Json.fields_record [] (by decide) rfl
  have port := Json.Value.asNat_ofNat device.port.toNat_lt
  rw [ofJson, read]
  simp only [port, Json.Value.asString_string, Json.Value.asBool_bool, Uuid.parseStr_toText,
    Option.bind_eq_bind, Option.bind_some, UInt16.ofNat_toNat]

end DiscoveredDevice

/-- `Serialize` of an `f64`. -/
def rateToJson (write : Float → Option Json.Literal) (rate : Float) : Json.Value :=
  match write rate with
  | some literal => .number literal
  | none => .null

namespace TransferProgress

/-- The names of the fields, in the order of the declaration. -/
def fieldNames : List String :=
  ["transfer_id", "file_name", "bytes_transferred", "total_bytes", "status", "bytes_per_sec", "error"]

/-- `Serialize`, with the rate beside the rest. -/
def toJson (write : Float → Option Json.Literal) (progress : TransferProgress) (bytesPerSec : Float) :
    Json.Value :=
  Json.record fieldNames [.string progress.transferId.toText, .string progress.fileName,
    .ofNat progress.bytesTransferred.toNat, .ofNat progress.totalBytes.toNat,
    .string progress.status.name, rateToJson write bytesPerSec, .ofNullable progress.error]

end TransferProgress

namespace Events.FileDropEvent

/-- The name of a variant. -/
def type : FileDropEvent → String
  | .deviceDiscovered _ => "DeviceDiscovered"
  | .deviceConnected _ => "DeviceConnected"
  | .pairingRequested .. => "PairingRequested"
  | .transferStarted .. => "TransferStarted"
  | .transferProgress .. => "TransferProgress"
  | .transferPaused _ => "TransferPaused"
  | .transferCompleted .. => "TransferCompleted"
  | .transferFailed .. => "TransferFailed"
  | .deviceDisconnected _ => "DeviceDisconnected"

/-- The fields of a variant. -/
def data (write : Float → Option Json.Literal) : FileDropEvent → List (String × Json.Value)
  | .deviceDiscovered device => [("device", device.toJson)]
  | .deviceConnected deviceId | .deviceDisconnected deviceId => [("device_id", .string deviceId.toText)]
  | .pairingRequested deviceId deviceName token =>
    [("device_id", .string deviceId.toText), ("device_name", .string deviceName), ("token", .string token)]
  | .transferStarted transferId fileName totalBytes =>
    [("transfer_id", .string transferId.toText), ("file_name", .string fileName),
      ("total_bytes", .ofNat totalBytes.toNat)]
  | .transferProgress progress bytesPerSec => [("progress", progress.toJson write bytesPerSec)]
  | .transferPaused transferId => [("transfer_id", .string transferId.toText)]
  | .transferCompleted transferId sha256 =>
    [("transfer_id", .string transferId.toText), ("sha256", .string sha256)]
  | .transferFailed transferId error =>
    [("transfer_id", .string transferId.toText), ("error", .string error)]

/-- `Serialize`: the tag, and the content beside it. -/
def serialize (write : Float → Option Json.Literal) (event : FileDropEvent) : Json.Value :=
  .object [("type", .string event.type), ("data", .object (event.data write))]

/-- `FileDropEvent::to_json`. -/
def toJson (serde : Json.Writer) (write : Float → Option Json.Literal) (event : FileDropEvent) : String :=
  .ofList ((serde.write (event.serialize write)).toOption.getD ['{', '}'])

end Events.FileDropEvent

end FileDrop
