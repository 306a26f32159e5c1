import FileDrop.Discovery.Announce
import FileDrop.Verif.OwnDevice

/-!
# Who is nearby

A device is heard exactly when its announcement fits into the buffer of the listener; what is left of a
longer one is no packet. So in a network on which devices tell the truth, whatever a discovery service
shows is a device of that network, with the identifier, the address, the port and the platform of that
device.
-/
namespace FileDrop.Announced
open FileDrop DiscoveryService OwnDevice
open Unix (Bytes)

/-! ## One datagram -/

variable {serde : AnnouncePacket.Serde} {device heard : DiscoveredDevice} {bytes : Bytes} {selfId : Uuid}

/-- What a listener makes of an announcement. -/
theorem hear_written (written : serde.write (announcement device) = .ok bytes) (selfId : Uuid)
    (sender : String) :
    hear (parseAnnounce serde) selfId ⟨bytes, sender⟩ =
      if bytes.length ≤ receiveBuffer ∧ device.deviceId ≠ selfId then
        some { device with address := sender, paired := false }
      else none := by
  by_cases fits : bytes.length ≤ receiveBuffer
  · have read : parseAnnounce serde (bytes.take receiveBuffer) = some (announcement device) := by
      rw [List.take_of_length_le fits, parseAnnounce_written written]
    by_cases own : device.deviceId = selfId
    · have self : (announcement device).deviceId = selfId := own
      rw [if_neg fun both => both.2 own]
      simp only [hear, read, self, or_true, if_true]
    · rw [if_pos (And.intro fits own)]
      exact hear_announcement read own
  · have cut := parseAnnounce_take written (Nat.lt_of_not_le fits)
    rw [if_neg fun both => fits both.1]
    simp only [hear, cut]

/-- A listener hears another device exactly when the announcement is no longer than its buffer, and then
as that device, at the address that the datagram came from. -/
theorem hear_announcement_iff (serde : AnnouncePacket.Serde)
    (written : serde.write (announcement device) = .ok bytes) (other : device.deviceId ≠ selfId)
    (sender : String) :
    hear (parseAnnounce serde) selfId ⟨bytes, sender⟩ = some heard ↔
      bytes.length ≤ receiveBuffer ∧ heard = { device with address := sender, paired := false } := by
  rw [hear_written written]
  by_cases fits : bytes.length ≤ receiveBuffer
  · rw [if_pos (And.intro fits other), Option.some.injEq]
    exact ⟨fun same => ⟨fits, same.symm⟩, fun same => same.2.symm⟩
  · rw [if_neg fun both => fits both.1]
    exact ⟨fun same => (nomatch same), fun same => absurd same.1 fits⟩

/-- A phone is heard by another device. -/
theorem hear_announcement_iff_sample : ∃ bytes,
    AnnouncePacket.compactSerde.write (announcement sampleSelf) = .ok bytes ∧
      hear (parseAnnounce AnnouncePacket.compactSerde) ⟨8⟩ ⟨bytes, "192.168.1.20"⟩ = some sampleSelf := by
  have other : sampleSelf.deviceId ≠ ⟨8⟩ := by decide
  have written := AnnouncePacket.compactSerde_write (announcement sampleSelf)
  have fits : (asBytes (.ofList (Json.print (announcement sampleSelf).toJson))).length ≤ receiveBuffer := by
    decide +kernel
  exact ⟨_, written, (hear_announcement_iff _ written other "192.168.1.20").mpr ⟨fits, rfl⟩⟩

/-! ## A network -/

/-- What the service takes from other crates, with `serde_json` as the reader of announcements. -/
def withSerde (host : DiscoveryHost) (serde : AnnouncePacket.Serde) : DiscoveryHost :=
  { host with parseAnnounce := parseAnnounce serde }

/-- A service is one that the device registers; the daemon may have resolved none of its addresses yet. -/
def Registered (host : DiscoveryHost) (device : DiscoveredDevice) (info : ServiceInfo) : Prop :=
  ∃ registered ∈ (advertise host.parseIpv6 discoveryName device).toOption,
    info = registered ∨ info = { registered with addressesV4 := [] }

instance (host : DiscoveryHost) (device : DiscoveredDevice) (info : ServiceInfo) :
    Decidable (Registered host device info) :=
  Option.decidableExistsMem (advertise host.parseIpv6 discoveryName device).toOption

/-- A datagram is the device's announcement and comes from its address. -/
def Sent (serde : AnnouncePacket.Serde) (device : DiscoveredDevice) (datagram : Datagram) : Prop :=
  serde.write (announcement device) = .ok datagram.bytes ∧ datagram.sender = device.address

instance (serde : AnnouncePacket.Serde) (device : DiscoveredDevice) (datagram : Datagram) :
    Decidable (Sent serde device datagram) :=
  inferInstanceAs (Decidable (_ ∧ _))

/-- What the network brings is from its devices. -/
def Truthful (host : DiscoveryHost) (serde : AnnouncePacket.Serde) (members : List DiscoveredDevice)
    (_ : DiscoveryService) : DiscoveryMove → Prop
  | .browse (.resolved info) _ => ∃ member ∈ members, Registered host member info
  | .listen (some datagram) => ∃ member ∈ members, Sent serde member datagram
  | _ => True

/-- The entry is that of a member: its own name is known from the announcement, and the other way gives it
the name of the service. -/
def Describes (members : List DiscoveredDevice) (device : DiscoveredDevice) : Prop :=
  ∃ member ∈ members, device = { member with paired := false } ∨
    device = { member with name := discoveryName, paired := false }

/-- The name of a service is what it is registered as. -/
theorem name_advertised : trimEndMatches "." (trimEndMatches serviceType
    (sanitizeInstance discoveryName ++ "." ++ serviceType)) = discoveryName := by
  decide +kernel

/-- What is made of a registered service. -/
theorem describes_browse {host : DiscoveryHost} (reads : ∀ id : Uuid, host.parseUuid id.toText = some id)
    {members : List DiscoveredDevice} {member : DiscoveredDevice} {info : ServiceInfo} {madeUp : Uuid}
    (listed : member ∈ members) (registered : Registered host member info)
    (made : browse host.parseUuid info madeUp = some device) : Describes members device := by
  obtain ⟨whole, advertised, same⟩ := registered
  obtain ⟨address, first, rfl⟩ := Option.map_eq_some_iff.mp made
  unfold advertise at advertised
  split at advertised
  · cases advertised
  · rename_i ip parsed
    obtain rfl := Option.some.inj advertised
    rcases same with rfl | rfl
    · cases ip with
      | v6 other => cases first
      | v4 only =>
        obtain rfl := Option.some.inj first
        have text : only.toText = member.address := by
          unfold IpAddr.parse at parsed
          split at parsed
          · rename_i found spelled
            cases parsed
            exact Ipv4.toText_parse spelled
          · obtain ⟨v6, -, same⟩ := Option.map_eq_some_iff.mp parsed
            cases same
        refine ⟨member, listed, .inr ?_⟩
        simp only [Option.bind_some, reads, Option.getD_some, name_advertised, text]
    · cases first

/-- What is heard. -/
theorem describes_hear {members : List DiscoveredDevice} {member : DiscoveredDevice} {datagram : Datagram}
    (listed : member ∈ members) (sent : Sent serde member datagram)
    (made : hear (parseAnnounce serde) selfId datagram = some heard) : Describes members heard := by
  obtain ⟨bytes, sender⟩ := datagram
  obtain ⟨written, rfl⟩ := sent
  rw [hear_written written] at made
  split at made
  · exact ⟨member, listed, .inl (Option.some.inj made).symm⟩
  · cases made

/-- In every run of a discovery service, on a network of which every resolved service and every datagram is
from one of its devices: each device that is shown, and each that is sent on, is one of them with its own
identifier, address, port and platform, under its own name or that of the service. -/
theorem shown_described {host : DiscoveryHost} (reads : ∀ id : Uuid, host.parseUuid id.toText = some id)
    (serde : AnnouncePacket.Serde) {members : List DiscoveredDevice} {serviceName : String}
    {selfDevice : DiscoveredDevice} {reached : DiscoveryService}
    (path : Machine.Reaches (step (withSerde host serde) serviceName selfDevice)
      (Truthful host serde members) .new reached) :
    (∀ device, reached.nearby device → Describes members device) ∧
      ∀ device ∈ reached.onDevice, Describes members device := by
  have everywhere : Everywhere (Describes members) reached := by
    refine path.invariant everywhere_new fun before move after all truthful stepped =>
      everywhere_step all stepped fun device new => ?_
    cases move with
    | browse event madeUp =>
      cases event with
      | resolved info =>
        obtain ⟨member, listed, registered⟩ := truthful
        exact describes_browse reads listed registered new.2
      | other | closed => exact new.elim
    | listen received =>
      obtain ⟨datagram, got, heard⟩ := Option.bind_eq_some_iff.mp new.2
      obtain rfl := got
      obtain ⟨member, listed, sent⟩ := truthful
      exact describes_hear listed sent heard
    | start | stop | announce | forwardMdns | forwardUdp => exact new.elim
  exact ⟨everywhere.devices, everywhere.onDevice⟩

instance (host : DiscoveryHost) (serde : AnnouncePacket.Serde) (members : List DiscoveredDevice)
    (service : DiscoveryService) : (move : DiscoveryMove) → Decidable (Truthful host serde members service move)
  | .browse (.resolved info) _ =>
    inferInstanceAs (Decidable (∃ member ∈ members, Registered host member info))
  | .listen (some datagram) => inferInstanceAs (Decidable (∃ member ∈ members, Sent serde member datagram))
  | .browse .other _ | .browse .closed _ | .start _ | .stop | .announce _ | .listen none | .forwardMdns _
  | .forwardUdp _ => inferInstanceAs (Decidable True)

/-- Another device of the network. -/
def sampleMember : DiscoveredDevice := { sampleSelf with deviceId := ⟨8⟩ }

/-- A host that reads what is displayed. -/
def sampleNetwork : DiscoveryHost where
  parseUuid := Uuid.parseStr
  parseIpv6 := Ipv6.parse
  parseAnnounce _ := none

/-- The service of another device is resolved, and that device is shown. -/
theorem shown_described_sample : ∃ reached device, reached.devices ⟨8⟩ = some device ∧
    Machine.Reaches (step (withSerde sampleNetwork AnnouncePacket.compactSerde) discoveryName sampleSelf)
      (Truthful sampleNetwork AnnouncePacket.compactSerde [sampleSelf, sampleMember]) .new reached ∧
    Describes [sampleSelf, sampleMember] device := by
  have runs : (Machine.run (step (withSerde sampleNetwork AnnouncePacket.compactSerde) discoveryName sampleSelf)
      (Truthful sampleNetwork AnnouncePacket.compactSerde [sampleSelf, sampleMember]) (sampleMoves ⟨8⟩)
      .new).map (fun reached => (reached.devices ⟨8⟩).isSome) = some true := by
    decide +kernel
  obtain ⟨reached, ran, there⟩ := Option.map_eq_some_iff.mp runs
  obtain ⟨device, found⟩ := Option.isSome_iff_exists.mp there
  have reads (id : Uuid) : sampleNetwork.parseUuid id.toText = some id := by
    simp only [sampleNetwork, Uuid.parseStr_toText]
  have path := Machine.reaches_of_run ran
  exact ⟨reached, device, found, path, (shown_described reads _ path).1 device ⟨⟨8⟩, found⟩⟩

end FileDrop.Announced
