import FileDrop.Discovery.Mdns

/-!
# Discovery over UDP broadcasts

The packet a device announces itself with, and what a listener makes of a datagram: only a packet with
the right magic that is not the device's own. The JSON parser is a parameter.
-/
namespace FileDrop

open Unix (Bytes)

/-- `MAGIC`. -/
def magic : String := "FILEDROP_ANNOUNCE_V1"

/-- `udp_broadcast::AnnouncePacket`. -/
structure AnnouncePacket where
  magic : String
  deviceId : Uuid
  name : String
  port : UInt16
  platform : String
  deriving DecidableEq, Repr

/-- The packet the announcer task sends. -/
def announcement (device : DiscoveredDevice) : AnnouncePacket where
  magic := magic
  deviceId := device.deviceId
  name := device.name
  port := device.port
  platform := device.platform

/-- A datagram that was received, with the displayed IP address of its sender. -/
structure Datagram where
  bytes : Bytes
  sender : String
  deriving DecidableEq, Repr

/-- The length of the receive buffer. -/
def receiveBuffer : Nat := 4096

/-- What the listener task of a device makes of a datagram; a longer one is cut off at the buffer's
end. -/
def hear (parseAnnounce : Bytes → Option AnnouncePacket) (selfId : Uuid) (datagram : Datagram) :
    Option DiscoveredDevice :=
  match parseAnnounce (datagram.bytes.take receiveBuffer) with
  | none => none
  | some packet =>
    if packet.magic ≠ magic ∨ packet.deviceId = selfId then none
    else some {
      deviceId := packet.deviceId
      name := packet.name
      address := datagram.sender
      port := packet.port
      platform := packet.platform
      paired := false }

/-- Another device hears what a device announces, at the address that the datagram came from. -/
theorem hear_announcement {parseAnnounce : Bytes → Option AnnouncePacket} {selfId : Uuid}
    {datagram : Datagram} {device : DiscoveredDevice}
    (announced : parseAnnounce (datagram.bytes.take receiveBuffer) = some (announcement device))
    (other : device.deviceId ≠ selfId) :
    hear parseAnnounce selfId datagram =
      some { device with address := datagram.sender, paired := false } := by
  have named : ¬((announcement device).magic ≠ magic ∨ (announcement device).deviceId = selfId) := by
    rintro (different | own)
    · exact different rfl
    · exact other own
  simp only [hear, announced, if_neg named]
  rfl

/-- A listener never hears its own device. -/
theorem hear_other {parseAnnounce : Bytes → Option AnnouncePacket} {selfId : Uuid} {datagram : Datagram}
    {device : DiscoveredDevice} (heard : hear parseAnnounce selfId datagram = some device) :
    device.deviceId ≠ selfId := by
  unfold hear at heard
  split at heard
  · cases heard
  · split at heard
    · cases heard
    · rename_i packet _ others
      rw [← Option.some.inj heard]
      exact fun own => others (.inr own)

end FileDrop
