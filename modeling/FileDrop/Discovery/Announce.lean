import FileDrop.Core.JsonBytes
import FileDrop.Core.UuidText
import FileDrop.Discovery.UdpBroadcast

/-!
# The bytes of an announcement

The packet as the bytes that are sent, and `parse_announce`. `serde_json` is a parameter, of which only what
it documents is known.
-/
namespace FileDrop

open Unix (Bytes)

/-- `serde_json`, for packets. -/
abbrev AnnouncePacket.Serde : Type := Json.Codec Json.Mark.ofByte AnnouncePacket

/-- `parse_announce`. -/
def parseAnnounce (serde : AnnouncePacket.Serde) (bytes : Bytes) : Option AnnouncePacket :=
  (serde.read bytes).toOption

/-- A packet is read from its bytes. -/
theorem parseAnnounce_written {serde : AnnouncePacket.Serde} {packet : AnnouncePacket} {bytes : Bytes}
    (written : serde.write packet = .ok bytes) : parseAnnounce serde bytes = some packet := by
  rw [parseAnnounce, serde.roundTrip packet bytes written]
  rfl

/-- Nothing is read when some of them are missing. -/
theorem parseAnnounce_take {serde : AnnouncePacket.Serde} {packet : AnnouncePacket} {bytes : Bytes} {count : Nat}
    (written : serde.write packet = .ok bytes) (short : count < bytes.length) :
    parseAnnounce serde (bytes.take count) = none := by
  rw [← List.take_append_drop count bytes] at written
  obtain ⟨reason, refused⟩ := serde.unread written (List.ne_nil_of_length_pos (by rw [List.length_drop]; omega))
  rw [parseAnnounce, refused]
  rfl

/-! ## A library -/

namespace AnnouncePacket

/-- The names of the fields, in the order of the declaration. -/
def fieldNames : List String := ["magic", "device_id", "name", "port", "platform"]

/-- The derived `Serialize`: an object with the fields. -/
def toJson (packet : AnnouncePacket) : Json.Value :=
  Json.record fieldNames [.string packet.magic, .string packet.deviceId.toText, .string packet.name,
    .ofNat packet.port.toNat, .string packet.platform]

/-- A packet is read from the fields of an object. -/
def ofJson (value : Json.Value) : Option AnnouncePacket :=
  match Json.fields [] fieldNames value with
  | some [magic, deviceId, name, port, platform] => do
    some {
      magic := ← magic.asString
      deviceId := ← Uuid.parseStr (← deviceId.asString)
      name := ← name.asString
      port := .ofNat (← port.asNat (2 ^ 16))
      platform := ← platform.asString }
  | _ => none

/-- A packet is read from its fields. -/
theorem ofJson_toJson (packet : AnnouncePacket) : ofJson packet.toJson = some packet := by
  have read : Json.fields [] fieldNames packet.toJson =
      some [.string packet.magic, .string packet.deviceId.toText, .string packet.name,
        .ofNat packet.port.toNat, .string packet.platform] :=
    Json.fields_record [] (by decide) rfl
  have port := Json.Value.asNat_ofNat packet.port.toNat_lt
  rw [ofJson, read]
  simp only [port, Json.Value.asString_string, Uuid.parseStr_toText, Option.bind_eq_bind, Option.bind_some,
    UInt16.ofNat_toNat]

/-- A library that writes every packet, compactly and in UTF-8. -/
def compactSerde : Serde :=
  Json.Codec.inUtf8 <| .ofLayout (fun packet => .ok packet.toJson) ofJson Json.print
    fun packet value represented => by
    obtain rfl := Except.ok.inj represented
    exact ⟨Json.parse_print _, Json.bracketed_print rfl, ofJson_toJson packet⟩

/-- What it writes. -/
theorem compactSerde_write (packet : AnnouncePacket) :
    compactSerde.write packet = .ok (asBytes (.ofList (Json.print packet.toJson))) := rfl

end AnnouncePacket

end FileDrop
