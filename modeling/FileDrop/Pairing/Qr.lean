import FileDrop.Core.UuidText
import FileDrop.Ffi.Pairing
import FileDrop.Foundation.JsonLibrary

/-!
# The text of a pairing code

`QrPairingPayload` as a text, and what the scanning device makes of a text. `serde_json` is a parameter, of
which only what it documents is known.
-/
namespace FileDrop.QrPairingPayload

/-- `serde_json`, for payloads. -/
abbrev Serde : Type := Json.Codec Json.Mark.ofChar QrPairingPayload

/-- `QrPairingPayload::to_qr_string`. -/
def toQrString (serde : Serde) (payload : QrPairingPayload) : Except FileDropError String :=
  match serde.write payload with
  | .ok text => .ok (.ofList text)
  | .error reason => .error (.serde reason)

/-- `QrPairingPayload::from_qr_string`. -/
def fromQrString (serde : Serde) (text : String) : Except FileDropError QrPairingPayload :=
  match serde.read text.toList with
  | .ok payload => .ok payload
  | .error reason => .error (.serde reason)

/-- What was written as a code. -/
theorem toQrString_ok {serde : Serde} {payload : QrPairingPayload} {code : String}
    (written : payload.toQrString serde = .ok code) : serde.write payload = .ok code.toList := by
  unfold toQrString at written
  split at written
  · rename_i text wrote
    rw [← Except.ok.inj written, String.toList_ofList]
    exact wrote
  · cases written

/-- What is read as a payload. -/
theorem fromQrString_ok {serde : Serde} {payload : QrPairingPayload} {text : String} :
    fromQrString serde text = .ok payload ↔ serde.read text.toList = .ok payload := by
  unfold fromQrString
  split
  · rename_i found read
    rw [read]
    exact Iff.of_eq (by rw [Except.ok.injEq, Except.ok.injEq])
  · rename_i reason read
    rw [read]
    exact iff_of_false (fun same => nomatch same) fun same => nomatch same

/-! ## A library -/

/-- The names of the fields, in the order of the declaration. -/
def fieldNames : List String :=
  ["version", "device_id", "device_name", "address", "port", "token", "expires_at"]

/-- The derived `Serialize`: an object with the fields. -/
def toJson (payload : QrPairingPayload) : Json.Value :=
  Json.record fieldNames [.ofNat payload.version.toNat, .string payload.deviceId.toText,
    .string payload.deviceName, .string payload.address, .ofNat payload.port.toNat, .string payload.token,
    .ofInt payload.expiresAt]

/-- A payload is read from the fields of an object. -/
def ofJson (value : Json.Value) : Option QrPairingPayload :=
  match Json.fields [] fieldNames value with
  | some [version, deviceId, deviceName, address, port, token, expiresAt] => do
    some {
      version := .ofNat (← version.asNat (2 ^ 8))
      deviceId := ← Uuid.parseStr (← deviceId.asString)
      deviceName := ← deviceName.asString
      address := ← address.asString
      port := .ofNat (← port.asNat (2 ^ 16))
      token := ← token.asString
      expiresAt := ← expiresAt.asInt 64 }
  | _ => none

/-- The expiry is a 64-bit integer. -/
def Wide (payload : QrPairingPayload) : Prop :=
  -(2 ^ 63) ≤ payload.expiresAt ∧ payload.expiresAt < 2 ^ 63

instance (payload : QrPairingPayload) : Decidable payload.Wide := inferInstanceAs (Decidable (_ ∧ _))

/-- A payload is read from its fields. -/
theorem ofJson_toJson {payload : QrPairingPayload} (wide : payload.Wide) :
    ofJson payload.toJson = some payload := by
  have read : Json.fields [] fieldNames payload.toJson = some [.ofNat payload.version.toNat,
      .string payload.deviceId.toText, .string payload.deviceName, .string payload.address,
      .ofNat payload.port.toNat, .string payload.token, .ofInt payload.expiresAt] :=
    Json.fields_record [] (by decide) rfl
  have version := Json.Value.asNat_ofNat payload.version.toNat_lt
  have port := Json.Value.asNat_ofNat payload.port.toNat_lt
  have expiresAt : Json.Value.asInt 64 (.ofInt payload.expiresAt) = some payload.expiresAt :=
    Json.Value.asInt_ofInt wide.1 wide.2
  rw [ofJson, read]
  simp only [version, port, expiresAt, Json.Value.asString_string, Uuid.parseStr_toText, Option.bind_eq_bind,
    Option.bind_some, UInt8.ofNat_toNat, UInt16.ofNat_toNat]

/-- A library that writes a payload compactly, if its expiry fits. -/
def compactSerde : Serde :=
  .ofLayout (fun payload => if payload.Wide then .ok payload.toJson else .error "number out of range") ofJson
    Json.print fun payload value represented => by
      split at represented
      · rename_i wide
        obtain rfl := Except.ok.inj represented
        exact ⟨Json.parse_print _, Json.bracketed_print rfl, ofJson_toJson wide⟩
      · cases represented

end FileDrop.QrPairingPayload
