import FileDrop.Flutter.Events
import FileDrop.Foundation.JsonReader

/-!
# Events from texts

The `fromJson` constructors of the app's models, on the maps that `jsonDecode` makes of objects. A cast that
fails throws, which is none here. What the language does with numbers beyond its 64-bit integers is a
parameter.
-/
namespace FileDrop.Flutter

/-- `Map<String, dynamic>`, as the members of the object in the order of the text. -/
abbrev JsonMap : Type := List (String × Json.Value)

/-- The doubles of the language. -/
structure Doubles where
  /-- The double that a number is decoded as. -/
  ofLiteral : Json.Literal → Float
  /-- `double.toInt`. -/
  toInt : Float → Option Int

/-- `as Map<String, dynamic>`. -/
def asMap : Json.Value → Option JsonMap
  | .object members => some members
  | _ => none

/-- `as int`. -/
def asInt (value : Json.Value) : Option Int := value.asInt 64

/-- `(.. as num).toInt()`: an integer that does not fit is decoded as a double. -/
def numToInt (doubles : Doubles) : Json.Value → Option Int
  | .number literal => (asInt (.number literal)).or (doubles.toInt (doubles.ofLiteral literal))
  | _ => none

/-- `(.. as num).toDouble()`. -/
def numToDouble (doubles : Doubles) : Json.Value → Option Float
  | .number literal => some (doubles.ofLiteral literal)
  | _ => none

/-- `as bool?`, with `false` for null. -/
def asBoolOrFalse : Json.Value → Option Bool
  | .null => some false
  | value => value.asBool

/-- `Device.fromJson`. -/
def Device.fromJson (json : JsonMap) : Option Device := do
  some {
    deviceId := ← (Json.lookup json "device_id").asString
    name := ← (Json.lookup json "name").asString
    address := ← (Json.lookup json "address").asString
    port := ← asInt (Json.lookup json "port")
    platform := ← (Json.lookup json "platform").asString
    paired := ← asBoolOrFalse (Json.lookup json "paired") }

/-- `TransferStatus.fromWire`. -/
def fromWire (value : String) : TransferStatus :=
  match value with
  | "Queued" => .queued
  | "Connecting" => .connecting
  | "InProgress" => .inProgress
  | "Paused" => .paused
  | "Completed" => .completed
  | "Failed" => .failed
  | "Cancelled" => .cancelled
  | _ => .failed

/-- `TransferProgress.fromJson`. -/
def TransferProgress.fromJson (doubles : Doubles) (json : JsonMap) : Option TransferProgress := do
  some {
    transferId := ← (Json.lookup json "transfer_id").asString
    fileName := ← (Json.lookup json "file_name").asString
    bytesTransferred := ← numToInt doubles (Json.lookup json "bytes_transferred")
    totalBytes := ← numToInt doubles (Json.lookup json "total_bytes")
    status := fromWire (← (Json.lookup json "status").asString)
    bytesPerSec := ← numToDouble doubles (Json.lookup json "bytes_per_sec")
    error := ← (Json.lookup json "error").asNullable }

/-- `json['data'] as Map<String, dynamic>? ?? const {}`. -/
def dataOf (json : JsonMap) : Option JsonMap :=
  match Json.lookup json "data" with
  | .null => some []
  | value => asMap value

/-- `FileDropEvent.fromJson`: an event, or null for a type it does not know. -/
def FileDropEvent.fromJson (doubles : Doubles) (json : JsonMap) : Option (Option FileDropEvent) := do
  let type ← (Json.lookup json "type").asNullable
  let data ← dataOf json
  match type with
  | some "DeviceDiscovered" =>
    some (some (.deviceDiscovered (← Device.fromJson (← asMap (Json.lookup data "device")))))
  | some "DeviceConnected" => some (some (.deviceConnected (← (Json.lookup data "device_id").asString)))
  | some "PairingRequested" =>
    some (some (.pairingRequested (← (Json.lookup data "device_id").asString)
      (← (Json.lookup data "device_name").asString) (← (Json.lookup data "token").asString)))
  | some "TransferStarted" =>
    some (some (.transferStarted (← (Json.lookup data "transfer_id").asString)
      (← (Json.lookup data "file_name").asString) (← numToInt doubles (Json.lookup data "total_bytes"))))
  | some "TransferProgress" =>
    some (some (.transferProgress
      (← TransferProgress.fromJson doubles (← asMap (Json.lookup data "progress")))))
  | some "TransferPaused" => some (some (.transferPaused (← (Json.lookup data "transfer_id").asString)))
  | some "TransferCompleted" =>
    some (some (.transferCompleted (← (Json.lookup data "transfer_id").asString)
      (← (Json.lookup data "sha256").asString)))
  | some "TransferFailed" =>
    some (some (.transferFailed (← (Json.lookup data "transfer_id").asString)
      (← (Json.lookup data "error").asString)))
  | some "DeviceDisconnected" =>
    some (some (.deviceDisconnected (← (Json.lookup data "device_id").asString)))
  | _ => some none

end FileDrop.Flutter
