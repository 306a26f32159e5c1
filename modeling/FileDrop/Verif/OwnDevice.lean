import FileDrop.Discovery.Service
import FileDrop.Foundation.Machine

/-!
# Discovering oneself

A device that is nearby was brought in by a task: the listener, which drops what the device itself
announced, or the browse task, which drops nothing. So a device never discovers itself as long as the
daemon does not resolve a service with the device's own identifier.
-/
namespace FileDrop.OwnDevice
open FileDrop DiscoveryService

/-! ## Where devices are -/

/-- A device is in a channel, or in the hands of its forward task. -/
def Carries (lane : Lane) (device : DiscoveredDevice) : Prop :=
  device ∈ lane.channel ∨ lane.task = .inserting device ∨ lane.task = .sending device

/-- Every device a service has anywhere is of a kind. -/
structure Everywhere (kind : DiscoveredDevice → Prop) (service : DiscoveryService) : Prop where
  devices : ∀ device, service.nearby device → kind device
  onDevice : ∀ device ∈ service.onDevice, kind device
  browse : ∀ device, service.browse = .sending device → kind device
  listener : ∀ device, service.listener = .sending device → kind device
  mdns : ∀ device, Carries service.mdns device → kind device
  udp : ∀ device, Carries service.udp device → kind device

variable {kind : DiscoveredDevice → Prop}

/-- A channel that took a device carries that one and what it carried. -/
theorem carries_send {lane after : Lane} {device : DiscoveredDevice}
    (sent : lane.send device = some (.ok after)) {other : DiscoveredDevice} (carried : Carries after other) :
    Carries lane other ∨ other = device := by
  obtain rfl := Lane.send_ok sent
  rcases carried with queued | held
  · rcases List.mem_append.mp queued with old | new
    · exact .inl (.inl old)
    · exact .inr (List.mem_singleton.mp new)
  · exact .inl (.inr held)

section

variable {lane after : Lane} {devices devices' : Uuid → Option DiscoveredDevice}
variable {onDevice onDevice' : List DiscoveredDevice}

/-- What a lane carries after a step of its forward task it carried before. -/
theorem carries_forward {device : DiscoveredDevice}
    (moves : Forwards devices onDevice lane after devices' onDevice') (carried : Carries after device) :
    Carries lane device := by
  cases moves with
  | receive first rest =>
    rcases carried with queued | taken | taken
    · exact .inl (List.mem_cons_of_mem _ queued)
    · obtain rfl := ForwardTask.inserting.inj taken
      exact .inl List.mem_cons_self
    · cases taken
  | insert channel first =>
    rcases carried with queued | taken | taken
    · exact .inl queued
    · cases taken
    · obtain rfl := ForwardTask.sending.inj taken
      exact .inr (.inl rfl)
  | drain | deliver | refuse =>
    rcases carried with queued | taken | taken
    · exact .inl queued
    · cases taken
    · cases taken

/-- What a step of the forward task puts into the map was carried. -/
theorem forward_devices (moves : Forwards devices onDevice lane after devices' onDevice') {id : Uuid}
    {device : DiscoveredDevice} (found : devices' id = some device) :
    devices id = some device ∨ Carries lane device := by
  cases moves with
  | insert channel first =>
    by_cases same : id = first.deviceId
    · subst same
      rw [Function.update_self] at found
      obtain rfl := Option.some.inj found
      exact .inr (.inr (.inl rfl))
    · rw [Function.update_of_ne same] at found
      exact .inl found
  | receive | drain | deliver | refuse => exact .inl found

/-- And so was what it sends on. -/
theorem forward_onDevice (moves : Forwards devices onDevice lane after devices' onDevice')
    {device : DiscoveredDevice} (sent : device ∈ onDevice') : device ∈ onDevice ∨ Carries lane device := by
  cases moves with
  | deliver channel first =>
    rcases List.mem_append.mp sent with old | new
    · exact .inl old
    · rw [List.mem_singleton.mp new]
      exact .inr (.inr (.inr rfl))
  | receive | drain | insert | refuse => exact .inl sent

/-- Forwarding moves devices on and brings in none. -/
theorem forward_kind {closed accepted : Bool}
    (moved : forward lane closed accepted devices onDevice = some (after, devices', onDevice'))
    (carried : ∀ device, Carries lane device → kind device)
    (stored : ∀ id device, devices id = some device → kind device)
    (sent : ∀ device ∈ onDevice, kind device) :
    (∀ device, Carries after device → kind device) ∧
      (∀ id device, devices' id = some device → kind device) ∧ ∀ device ∈ onDevice', kind device := by
  have moves := forward_cases moved
  refine ⟨fun device held => carried device (carries_forward moves held), fun id device found => ?_,
    fun device member => ?_⟩
  · rcases forward_devices moves found with old | held
    · exact stored id device old
    · exact carried device held
  · rcases forward_onDevice moves member with old | held
    · exact sent device old
    · exact carried device held

end

/-! ## Where devices come from -/

variable {host : DiscoveryHost} {serviceName : String} {selfDevice : DiscoveredDevice}
variable {before after : DiscoveryService}

/-- A device that a move brings in: one that the browse task makes of a resolved service, or one that
the listener hears. -/
def Introduces (host : DiscoveryHost) (selfId : Uuid) (service : DiscoveryService) (move : DiscoveryMove)
    (device : DiscoveredDevice) : Prop :=
  match move with
  | .browse (.resolved info) madeUp =>
    service.browse = .receiving ∧ browse host.parseUuid info madeUp = some device
  | .listen received =>
    service.listener = .receiving ∧
      received.bind (hear host.parseAnnounce selfId) = some device
  | _ => False

/-- `start` brings in no device. -/
theorem everywhere_start {fault : Option String} (all : Everywhere kind before)
    (stepped : startStep host serviceName selfDevice before fault = some after) :
    Everywhere kind after := by
  have spawned {lane : Lane} (carried : ∀ device, Carries lane device → kind device) :
      ∀ device, Carries { lane with task := .receiving } device → kind device := by
    rintro device (queued | taken | taken)
    · exact carried device (.inl queued)
    · cases taken
    · cases taken
  cases startStep_cases stepped with
  | call | build | register | flag | socket | announce | fail => exact { all with }
  | browse => exact { all with browse := nofun }
  | forwardMdns => exact { all with mdns := spawned all.mdns }
  | listen => exact { all with listener := nofun }
  | forwardUdp => exact { all with udp := spawned all.udp }

/-- `stop` brings in no device. -/
theorem everywhere_stop (all : Everywhere kind before) (stepped : stopStep before = some after) :
    Everywhere kind after := by
  obtain ⟨browsing, running, stopping, rfl⟩ := stopStep_cases stepped
  refine { all with devices := fun device ⟨id, found⟩ => ?_ }
  simp only at found
  split at found
  · cases found
  · exact all.devices device ⟨id, found⟩

/-- The browse task brings in what it makes of a resolved service. -/
theorem everywhere_browse {event : MdnsEvent} {madeUp : Uuid} (all : Everywhere kind before)
    (stepped : browseStep host before event madeUp = some after)
    (new : ∀ info, event = .resolved info → ∀ device, before.browse = .receiving →
      browse host.parseUuid info madeUp = some device → kind device) : Everywhere kind after := by
  cases browseStep_cases stepped with
  | ignore => exact all
  | resolve info device task same made =>
    have mine := new info same device task made
    exact { all with browse := fun other held => BrowseTask.sending.inj held ▸ mine }
  | close | refuse => exact { all with browse := nofun }
  | send device lane task sent =>
    refine { all with browse := nofun, mdns := fun other carried => ?_ }
    rcases carries_send sent carried with old | rfl
    · exact all.mdns other old
    · exact all.browse other task

/-- The listener task brings in what it hears. -/
theorem everywhere_listen {selfId : Uuid} {received : Option Datagram} (all : Everywhere kind before)
    (stepped : listenStep host selfId before received = some after)
    (new : ∀ device, before.listener = .receiving →
      received.bind (hear host.parseAnnounce selfId) = some device → kind device) :
    Everywhere kind after := by
  unfold listenStep at stepped
  split at stepped
  · cases stepped
    refine { all with listener := fun device held => ?_ }
    split at held
    · cases held
    · cases held
  · rename_i receiving
    split at stepped
    · rename_i device heard
      cases stepped
      have mine := new device receiving heard
      exact { all with listener := fun other held => ListenerTask.sending.inj held ▸ mine }
    · cases stepped
      exact { all with listener := nofun }
  · rename_i device held
    split at stepped
    · rename_i lane sent
      cases stepped
      refine { all with listener := nofun, udp := fun other carried => ?_ }
      rcases carries_send sent carried with old | rfl
      · exact all.udp other old
      · exact all.listener other held
    · cases stepped
      exact { all with listener := nofun }
    · cases stepped
  · cases stepped
  · cases stepped

/-- A step keeps every device of a kind if those it brings in are. -/
theorem everywhere_step {move : DiscoveryMove} (all : Everywhere kind before)
    (stepped : step host serviceName selfDevice before move = some after)
    (new : ∀ device, Introduces host selfDevice.deviceId before move device → kind device) :
    Everywhere kind after := by
  cases move with
  | start fault => exact everywhere_start all stepped
  | stop => exact everywhere_stop all stepped
  | browse event madeUp =>
    refine everywhere_browse all stepped fun info same device receiving made => ?_
    subst same
    exact new device ⟨receiving, made⟩
  | announce encoded =>
    obtain ⟨announcer, rfl⟩ := announceStep_cases stepped
    exact { all with }
  | listen received =>
    exact everywhere_listen all stepped fun device receiving heard => new device ⟨receiving, heard⟩
  | forwardMdns accepted =>
    obtain ⟨⟨lane, devices, onDevice⟩, moved, rfl⟩ := Option.map_eq_some_iff.mp stepped
    obtain ⟨carried, stored, sent⟩ :=
      forward_kind moved all.mdns (fun id device found => all.devices device ⟨id, found⟩) all.onDevice
    exact { all with
      mdns := carried, onDevice := sent
      devices := fun device ⟨id, found⟩ => stored id device found }
  | forwardUdp accepted =>
    obtain ⟨⟨lane, devices, onDevice⟩, moved, rfl⟩ := Option.map_eq_some_iff.mp stepped
    obtain ⟨carried, stored, sent⟩ :=
      forward_kind moved all.udp (fun id device found => all.devices device ⟨id, found⟩) all.onDevice
    exact { all with
      udp := carried, onDevice := sent
      devices := fun device ⟨id, found⟩ => stored id device found }

/-- At first there is no device. -/
theorem everywhere_new : Everywhere kind .new where
  devices := fun device ⟨id, found⟩ => (nomatch found)
  onDevice := nofun
  browse := nofun
  listener := nofun
  mdns := fun device carried => by
    rcases carried with queued | taken | taken
    · cases queued
    · cases taken
    · cases taken
  udp := fun device carried => by
    rcases carried with queued | taken | taken
    · cases queued
    · cases taken
    · cases taken

/-! ## The own device -/

/-- The daemon does not resolve a service that has an address and the own identifier. -/
def Others (host : DiscoveryHost) (selfId : Uuid) (service : DiscoveryService) (move : DiscoveryMove) :
    Prop :=
  match move with
  | .browse (.resolved info) madeUp => service.browse = .receiving → info.addressesV4 ≠ [] →
      (info.deviceId.bind host.parseUuid).getD madeUp ≠ selfId
  | _ => True

/-- A listener never hears its own device, so that is to say that no move brings in the own device. -/
theorem others_iff {selfId : Uuid} {service : DiscoveryService} {move : DiscoveryMove} :
    Others host selfId service move ↔
      ∀ device, Introduces host selfId service move device → device.deviceId ≠ selfId := by
  cases move with
  | browse event madeUp =>
    cases event with
    | resolved info =>
      constructor
      · rintro others device ⟨receiving, made⟩
        rw [browse_deviceId made]
        refine others receiving fun none => ?_
        rw [browse, none] at made
        cases made
      · intro foreign receiving some
        obtain ⟨address, rest, addresses⟩ := List.exists_cons_of_ne_nil some
        obtain ⟨device, made⟩ : ∃ device, browse host.parseUuid info madeUp = .some device := by
          rw [browse, addresses]
          exact ⟨_, rfl⟩
        have apart := foreign device ⟨receiving, made⟩
        rwa [browse_deviceId made] at apart
    | other | closed => exact iff_of_true trivial fun _ => False.elim
  | listen received =>
    refine iff_of_true trivial ?_
    rintro device ⟨-, heard⟩
    obtain ⟨datagram, -, heard⟩ := Option.bind_eq_some_iff.mp heard
    exact hear_other heard
  | start | stop | announce | forwardMdns | forwardUdp => exact iff_of_true trivial fun _ => False.elim

/-- A device that a move brings in is in the hands of the task. -/
theorem introduced_held {move : DiscoveryMove} {device : DiscoveredDevice}
    (new : Introduces host selfDevice.deviceId before move device)
    (stepped : step host serviceName selfDevice before move = some after) :
    after.browse = .sending device ∨ after.listener = .sending device := by
  cases move with
  | browse event madeUp =>
    cases event with
    | resolved info =>
      obtain ⟨receiving, made⟩ := new
      simp only [step, browseStep, receiving, made] at stepped
      cases stepped
      exact .inl rfl
    | other | closed => exact new.elim
  | listen received =>
    obtain ⟨receiving, heard⟩ := new
    simp only [step, listenStep, receiving, heard] at stepped
    cases stepped
    exact .inr rfl
  | start | stop | announce | forwardMdns | forwardUdp => exact new.elim

/-- In every run in which the daemon resolves no service with the own identifier, whatever else is
resolved and whatever is received: the own device never is nearby, and is never sent on. A step keeps it
out of the whole service exactly if it resolves none. -/
theorem self_apart {reached : DiscoveryService}
    (path : Machine.Reaches (step host serviceName selfDevice) (Others host selfDevice.deviceId) .new
      reached) :
    (∀ device, reached.nearby device → device.deviceId ≠ selfDevice.deviceId) ∧
      (∀ device ∈ reached.onDevice, device.deviceId ≠ selfDevice.deviceId) ∧
      ∀ move after, step host serviceName selfDevice reached move = some after →
        (Everywhere (fun device => device.deviceId ≠ selfDevice.deviceId) after ↔
          Others host selfDevice.deviceId reached move) := by
  have everywhere : Everywhere (fun device => device.deviceId ≠ selfDevice.deviceId) reached :=
    path.invariant everywhere_new fun _ _ _ all others stepped =>
      everywhere_step all stepped (others_iff.mp others)
  refine ⟨everywhere.devices, everywhere.onDevice, fun move after stepped => ?_⟩
  rw [others_iff]
  constructor
  · intro apart device new
    rcases introduced_held new stepped with held | held
    · exact apart.browse device held
    · exact apart.listener device held
  · exact everywhere_step everywhere stepped

/-! ## One that resolves itself -/

/-- The own device of the samples. -/
def sampleSelf : DiscoveredDevice := ⟨⟨7⟩, "Phone", "192.168.1.20", 53317, "android", false⟩

/-- A host that reads no datagram. -/
def sampleHost : DiscoveryHost where
  parseUuid := Uuid.parseHyphenated
  parseIpv6 _ := none
  parseAnnounce _ := none

/-- The service of a device, as a daemon resolves it. -/
def sampleInfo (id : Uuid) : ServiceInfo where
  fullname := "filedrop._filedrop._tcp.local."
  hostName := "Phone.local."
  deviceId := some id.toText
  platform := some "android"
  addressesV4 := [⟨192, 168, 1, 20⟩]
  port := 53317

/-- Start, and take a resolved service into the map. -/
def sampleMoves (id : Uuid) : List DiscoveryMove :=
  List.replicate 13 (.start none) ++
    [.browse (.resolved (sampleInfo id)) ⟨0⟩, .browse .other ⟨0⟩, .forwardMdns true, .forwardMdns true]

/-- It is the service that the own device registers. -/
example : advertise sampleHost.parseIpv6 discoveryName sampleSelf = .ok (sampleInfo ⟨7⟩) := by
  decide +kernel

instance (selfId : Uuid) (service : DiscoveryService) (move : DiscoveryMove) :
    Decidable (Others host selfId service move) :=
  match move with
  | .browse (.resolved _) _ => inferInstanceAs (Decidable (_ → _ → _))
  | .browse .other _ | .browse .closed _ | .start _ | .stop | .announce _ | .listen _ | .forwardMdns _
  | .forwardUdp _ => inferInstanceAs (Decidable True)

/-- Another device is nearby, and is not the own one. -/
theorem self_apart_other : ∃ reached device,
    Machine.run (step sampleHost discoveryName sampleSelf) (Others sampleHost ⟨7⟩) (sampleMoves ⟨8⟩) .new =
        some reached ∧
      reached.devices ⟨8⟩ = some device ∧ device.deviceId ≠ ⟨7⟩ := by
  have runs : (Machine.run (step sampleHost discoveryName sampleSelf) (Others sampleHost ⟨7⟩)
      (sampleMoves ⟨8⟩) .new).map (fun reached => (reached.devices ⟨8⟩).isSome) = some true := by
    decide +kernel
  obtain ⟨reached, ran, there⟩ := Option.map_eq_some_iff.mp runs
  obtain ⟨device, found⟩ := Option.isSome_iff_exists.mp there
  have path : Machine.Reaches (step sampleHost discoveryName sampleSelf)
      (Others sampleHost sampleSelf.deviceId) .new reached := Machine.reaches_of_run ran
  exact ⟨reached, device, ran, found, (self_apart path).1 device ⟨⟨8⟩, found⟩⟩

/-- The daemon resolves what the device itself has registered, and the device is nearby itself. -/
theorem self_apart_broken :
    ¬∀ (host : DiscoveryHost) (selfDevice : DiscoveredDevice) (reached : DiscoveryService),
      Machine.Reaches (step host discoveryName selfDevice) (fun _ _ => True) .new reached →
      ∀ device, reached.nearby device → device.deviceId ≠ selfDevice.deviceId := by
  intro always
  have runs : (Machine.run (step sampleHost discoveryName sampleSelf) (fun _ _ => True) (sampleMoves ⟨7⟩)
      .new).map (fun reached => (reached.devices ⟨7⟩).map (·.deviceId)) = some (some ⟨7⟩) := by
    decide +kernel
  obtain ⟨reached, ran, there⟩ := Option.map_eq_some_iff.mp runs
  obtain ⟨device, found, own⟩ := Option.map_eq_some_iff.mp there
  exact always sampleHost sampleSelf reached (Machine.reaches_of_run ran) device ⟨⟨7⟩, found⟩ own

end FileDrop.OwnDevice
