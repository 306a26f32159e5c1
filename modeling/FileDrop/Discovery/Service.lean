import Mathlib.Logic.Function.Basic
import FileDrop.Discovery.UdpBroadcast

/-!
# The discovery service

A service starts in one call, step by step, and leaves tasks behind: one that turns what the mDNS daemon
resolves into devices, one that announces the device, one that listens for announcements, and for each
source a task that forwards what comes through its channel into the one map and to the caller. The call
that stops the service goes through its own steps. Which task moves next, what the network brings and
which step fails is the environment's choice.
-/
namespace FileDrop

open Unix (Bytes)

/-- The name that `api::start_discovery` creates the service with. -/
def discoveryName : String := "filedrop"

/-- What the service takes from other crates. -/
structure DiscoveryHost where
  /-- `Uuid::parse_str`. -/
  parseUuid : String → Option Uuid
  /-- The parser of IPv6 addresses. -/
  parseIpv6 : String → Option Ipv6
  /-- `parse_announce`, which is `serde_json::from_slice`. -/
  parseAnnounce : Bytes → Option AnnouncePacket

/-! ## Tasks -/

/-- Where `start` is. -/
inductive StartStage where
  | uncalled
  | building
  | registering (info : ServiceInfo)
  | browsing
  | forwardingMdns
  | flagging
  | bindingListener
  | allowingListener
  | bindingSender
  | allowingSender
  | announcing
  | listening
  | forwardingUdp
  | returned (result : Except FileDropError Unit)

/-- Where `stop` is. -/
inductive StopStage where
  | uncalled
  | stoppingBrowse
  | clearingFlag
  | clearingDevices
  | returned
  deriving DecidableEq

/-- Where the task of `MdnsDiscovery::browse` is. -/
inductive BrowseTask where
  | unspawned
  | receiving
  | sending (device : DiscoveredDevice)
  | ended
  deriving DecidableEq

/-- Where the announcer task is. -/
inductive AnnouncerTask where
  | unspawned
  | encoding
  | checking
  | sending
  | sleeping
  | ended
  deriving DecidableEq

/-- Where the listener task is. -/
inductive ListenerTask where
  | unspawned
  | checking
  | receiving
  | sending (device : DiscoveredDevice)
  | ended
  deriving DecidableEq

/-- Where a task of `forward_devices` is. -/
inductive ForwardTask where
  | unspawned
  | receiving
  | inserting (device : DiscoveredDevice)
  | sending (device : DiscoveredDevice)
  | ended
  deriving DecidableEq

/-- The capacity of the channels. -/
def channelCapacity : Nat := 32

/-- A channel with the task that forwards from it. -/
structure Lane where
  channel : List DiscoveredDevice
  task : ForwardTask
  deriving DecidableEq

/-- `tx.send` into a channel: it fails when the receiver is gone, and waits for room otherwise. -/
def Lane.send (lane : Lane) (device : DiscoveredDevice) : Option (Except Unit Lane) :=
  if lane.task = .ended then some (.error ())
  else if lane.channel.length < channelCapacity then
    some (.ok { lane with channel := lane.channel ++ [device] })
  else none

/-- A channel that takes a device has it last. -/
theorem Lane.send_ok {lane after : Lane} {device : DiscoveredDevice}
    (sent : lane.send device = some (.ok after)) :
    after = { lane with channel := lane.channel ++ [device] } := by
  unfold Lane.send at sent
  split at sent
  · cases sent
  · split at sent
    · exact (Except.ok.inj (Option.some.inj sent)).symm
    · cases sent

/-! ## The service -/

/-- `discovery::DiscoveryService`, with its tasks. -/
structure DiscoveryService where
  /-- The service that the daemon has registered. -/
  registration : Option ServiceInfo
  /-- The daemon browses for services. -/
  browsing : Bool
  /-- `UdpBroadcastDiscovery::running`. -/
  running : Bool
  devices : Uuid → Option DiscoveredDevice
  /-- What was sent on `on_device`, in order. -/
  onDevice : List DiscoveredDevice
  starting : StartStage
  stopping : StopStage
  browse : BrowseTask
  mdns : Lane
  announcer : AnnouncerTask
  listener : ListenerTask
  udp : Lane

/-- `DiscoveryService::new`. -/
def DiscoveryService.new : DiscoveryService where
  registration := none
  browsing := false
  running := false
  devices _ := none
  onDevice := []
  starting := .uncalled
  stopping := .uncalled
  browse := .unspawned
  mdns := ⟨[], .unspawned⟩
  announcer := .unspawned
  listener := .unspawned
  udp := ⟨[], .unspawned⟩

/-- An event of the daemon's browse. -/
inductive MdnsEvent where
  | resolved (info : ServiceInfo)
  | other
  /-- The daemon has closed its side. -/
  | closed
  deriving DecidableEq

/-- One step of somebody, with what the environment decides about it. -/
inductive DiscoveryMove where
  /-- `start` goes on; a fallible step may fail. -/
  | start (fault : Option String)
  | stop
  /-- The browse task goes on; `Uuid::new_v4` would give this identifier. -/
  | browse (event : MdnsEvent) (madeUp : Uuid)
  /-- The forward task of mDNS goes on; the caller still listens, or not. -/
  | forwardMdns (accepted : Bool)
  | announce (encoded : Bool)
  /-- The listener task goes on; a receive may fail. -/
  | listen (received : Option Datagram)
  | forwardUdp (accepted : Bool)
  deriving DecidableEq

namespace DiscoveryService

/-- One step of `forward_devices`; without a sender a drained channel ends it. -/
def forward (lane : Lane) (closed accepted : Bool) (devices : Uuid → Option DiscoveredDevice)
    (onDevice : List DiscoveredDevice) :
    Option (Lane × (Uuid → Option DiscoveredDevice) × List DiscoveredDevice) :=
  match lane.task with
  | .receiving =>
    match lane.channel with
    | device :: rest => some (⟨rest, .inserting device⟩, devices, onDevice)
    | [] => if closed then some (⟨[], .ended⟩, devices, onDevice) else none
  | .inserting device => some (⟨lane.channel, .sending device⟩,
      Function.update devices device.deviceId (some device), onDevice)
  | .sending device =>
    if accepted then some (⟨lane.channel, .receiving⟩, devices, onDevice ++ [device])
    else some (⟨lane.channel, .ended⟩, devices, onDevice)
  | .unspawned | .ended => none

/-- What a step of `forward_devices` can do. -/
inductive Forwards (devices : Uuid → Option DiscoveredDevice) (onDevice : List DiscoveredDevice) :
    Lane → Lane → (Uuid → Option DiscoveredDevice) → List DiscoveredDevice → Prop where
  | receive (device : DiscoveredDevice) (rest : List DiscoveredDevice) :
      Forwards devices onDevice ⟨device :: rest, .receiving⟩ ⟨rest, .inserting device⟩ devices onDevice
  | drain : Forwards devices onDevice ⟨[], .receiving⟩ ⟨[], .ended⟩ devices onDevice
  | insert (channel : List DiscoveredDevice) (device : DiscoveredDevice) :
      Forwards devices onDevice ⟨channel, .inserting device⟩ ⟨channel, .sending device⟩
        (Function.update devices device.deviceId (some device)) onDevice
  | deliver (channel : List DiscoveredDevice) (device : DiscoveredDevice) :
      Forwards devices onDevice ⟨channel, .sending device⟩ ⟨channel, .receiving⟩ devices
        (onDevice ++ [device])
  | refuse (channel : List DiscoveredDevice) (device : DiscoveredDevice) :
      Forwards devices onDevice ⟨channel, .sending device⟩ ⟨channel, .ended⟩ devices onDevice

/-- It does nothing else. -/
theorem forward_cases {lane after : Lane} {closed accepted : Bool}
    {devices devices' : Uuid → Option DiscoveredDevice} {onDevice onDevice' : List DiscoveredDevice}
    (moved : forward lane closed accepted devices onDevice = some (after, devices', onDevice')) :
    Forwards devices onDevice lane after devices' onDevice' := by
  obtain ⟨channel, task⟩ := lane
  cases task with
  | unspawned | ended => cases moved
  | receiving =>
    cases channel with
    | nil =>
      cases closed with
      | true =>
        cases moved
        exact .drain
      | false => cases moved
    | cons device rest =>
      cases moved
      exact .receive device rest
  | inserting device =>
    cases moved
    exact .insert channel device
  | sending device =>
    cases accepted with
    | true =>
      cases moved
      exact .deliver channel device
    | false =>
      cases moved
      exact .refuse channel device

/-- `start` fails. -/
def failed (service : DiscoveryService) (error : FileDropError) : DiscoveryService :=
  { service with starting := .returned (.error error) }

/-- A fallible step on a socket. -/
def socketStep (service : DiscoveryService) (fault : Option String) (next : StartStage) :
    DiscoveryService :=
  match fault with
  | some text => service.failed (.io ⟨text⟩)
  | none => { service with starting := next }

/-- One step of `start`. -/
def startStep (host : DiscoveryHost) (serviceName : String) (selfDevice : DiscoveredDevice)
    (service : DiscoveryService) (fault : Option String) : Option DiscoveryService :=
  match service.starting with
  | .uncalled => some { service with starting := .building }
  | .building =>
    match advertise host.parseIpv6 serviceName selfDevice, fault with
    | .error error, _ => some (service.failed error)
    | .ok _, some text => some (service.failed (.discovery ("service info build failed: " ++ text)))
    | .ok info, none => some { service with starting := .registering info }
  | .registering info =>
    match fault with
    | some text => some (service.failed (.discovery ("mdns register failed: " ++ text)))
    | none => some { service with registration := some info, starting := .browsing }
  | .browsing =>
    match fault with
    | some text => some (service.failed (.discovery ("mdns browse failed: " ++ text)))
    | none =>
      some { service with browsing := true, browse := .receiving, starting := .forwardingMdns }
  | .forwardingMdns =>
    some { service with mdns := { service.mdns with task := .receiving }, starting := .flagging }
  | .flagging => some { service with running := true, starting := .bindingListener }
  | .bindingListener => some (service.socketStep fault .allowingListener)
  | .allowingListener => some (service.socketStep fault .bindingSender)
  | .bindingSender => some (service.socketStep fault .allowingSender)
  | .allowingSender => some (service.socketStep fault .announcing)
  | .announcing => some { service with announcer := .encoding, starting := .listening }
  | .listening => some { service with listener := .checking, starting := .forwardingUdp }
  | .forwardingUdp =>
    some { service with
      udp := { service.udp with task := .receiving }, starting := .returned (.ok ()) }
  | .returned _ => none

/-- A fallible step on a socket, and the stage after it. -/
inductive SocketStage : StartStage → StartStage → Prop where
  | bindListener : SocketStage .bindingListener .allowingListener
  | allowListener : SocketStage .allowingListener .bindingSender
  | bindSender : SocketStage .bindingSender .allowingSender
  | allowSender : SocketStage .allowingSender .announcing

/-- What a step of `start` can do. -/
inductive Starts (host : DiscoveryHost) (serviceName : String) (selfDevice : DiscoveredDevice)
    (fault : Option String) (before : DiscoveryService) : DiscoveryService → Prop where
  | call (stage : before.starting = .uncalled) :
      Starts host serviceName selfDevice fault before { before with starting := .building }
  | build (info : ServiceInfo) (stage : before.starting = .building)
      (advertised : advertise host.parseIpv6 serviceName selfDevice = .ok info) :
      Starts host serviceName selfDevice fault before { before with starting := .registering info }
  | register (info : ServiceInfo) (stage : before.starting = .registering info) :
      Starts host serviceName selfDevice fault before
        { before with registration := some info, starting := .browsing }
  | browse (stage : before.starting = .browsing) :
      Starts host serviceName selfDevice fault before
        { before with browsing := true, browse := .receiving, starting := .forwardingMdns }
  | forwardMdns (stage : before.starting = .forwardingMdns) :
      Starts host serviceName selfDevice fault before
        { before with mdns := { before.mdns with task := .receiving }, starting := .flagging }
  | flag (stage : before.starting = .flagging) :
      Starts host serviceName selfDevice fault before
        { before with running := true, starting := .bindingListener }
  | socket (next : StartStage) (stage : SocketStage before.starting next) :
      Starts host serviceName selfDevice fault before { before with starting := next }
  | announce (stage : before.starting = .announcing) :
      Starts host serviceName selfDevice fault before
        { before with announcer := .encoding, starting := .listening }
  | listen (stage : before.starting = .listening) :
      Starts host serviceName selfDevice fault before
        { before with listener := .checking, starting := .forwardingUdp }
  | forwardUdp (stage : before.starting = .forwardingUdp) :
      Starts host serviceName selfDevice fault before
        { before with
          udp := { before.udp with task := .receiving }, starting := .returned (.ok ()) }
  | fail (error : FileDropError)
      (reason : fault ≠ none ∨ advertise host.parseIpv6 serviceName selfDevice = .error error) :
      Starts host serviceName selfDevice fault before (before.failed error)

/-- It does nothing else. -/
theorem startStep_cases {host : DiscoveryHost} {serviceName : String} {selfDevice : DiscoveredDevice}
    {fault : Option String} {before after : DiscoveryService}
    (stepped : startStep host serviceName selfDevice before fault = some after) :
    Starts host serviceName selfDevice fault before after := by
  have socket {next : StartStage} (stage : SocketStage before.starting next) :
      Starts host serviceName selfDevice fault before (before.socketStep fault next) := by
    cases fault with
    | some text => exact .fail _ (.inl nofun)
    | none => exact .socket next stage
  cases stage : before.starting with
  | uncalled =>
    simp only [startStep, stage] at stepped
    cases stepped
    exact .call stage
  | building =>
    simp only [startStep, stage] at stepped
    split at stepped
    · rename_i refused
      cases stepped
      exact .fail _ (.inr refused)
    · cases stepped
      exact .fail _ (.inl nofun)
    · rename_i info advertised
      cases stepped
      exact .build info stage advertised
  | registering info =>
    cases fault with
    | some text =>
      simp only [startStep, stage] at stepped
      cases stepped
      exact .fail _ (.inl nofun)
    | none =>
      simp only [startStep, stage] at stepped
      cases stepped
      exact .register info stage
  | browsing =>
    cases fault with
    | some text =>
      simp only [startStep, stage] at stepped
      cases stepped
      exact .fail _ (.inl nofun)
    | none =>
      simp only [startStep, stage] at stepped
      cases stepped
      exact .browse stage
  | forwardingMdns =>
    simp only [startStep, stage] at stepped
    cases stepped
    exact .forwardMdns stage
  | flagging =>
    simp only [startStep, stage] at stepped
    cases stepped
    exact .flag stage
  | bindingListener | allowingListener | bindingSender | allowingSender =>
    simp only [startStep, stage] at stepped
    cases stepped
    rw [stage] at socket
    exact socket (by constructor)
  | announcing =>
    simp only [startStep, stage] at stepped
    cases stepped
    exact .announce stage
  | listening =>
    simp only [startStep, stage] at stepped
    cases stepped
    exact .listen stage
  | forwardingUdp =>
    simp only [startStep, stage] at stepped
    cases stepped
    exact .forwardUdp stage
  | returned =>
    simp only [startStep, stage] at stepped
    cases stepped

/-- One step of `stop`, which is called on a service that has started. -/
def stopStep (service : DiscoveryService) : Option DiscoveryService :=
  match service.stopping with
  | .uncalled =>
    match service.starting with
    | .returned (.ok ()) => some { service with stopping := .stoppingBrowse }
    | _ => none
  | .stoppingBrowse => some { service with browsing := false, stopping := .clearingFlag }
  | .clearingFlag => some { service with running := false, stopping := .clearingDevices }
  | .clearingDevices => some { service with devices := fun _ => none, stopping := .returned }
  | .returned => none

/-- `stop` clears the map at one stage, and never touches a task. -/
theorem stopStep_cases {before after : DiscoveryService} (stepped : stopStep before = some after) :
    ∃ browsing running stopping, after =
      { before with
        browsing, running, stopping
        devices := if before.stopping = .clearingDevices then fun _ => none else before.devices } := by
  cases stage : before.stopping with
  | uncalled =>
    simp only [stopStep, stage] at stepped
    split at stepped
    · cases stepped
      exact ⟨_, _, _, rfl⟩
    · cases stepped
  | stoppingBrowse | clearingFlag | clearingDevices =>
    simp only [stopStep, stage] at stepped
    cases stepped
    exact ⟨_, _, _, rfl⟩
  | returned =>
    simp only [stopStep, stage] at stepped
    cases stepped

/-- One step of the browse task. -/
def browseStep (host : DiscoveryHost) (service : DiscoveryService) (event : MdnsEvent) (madeUp : Uuid) :
    Option DiscoveryService :=
  match service.browse with
  | .receiving =>
    match event with
    | .resolved info =>
      match FileDrop.browse host.parseUuid info madeUp with
      | some device => some { service with browse := .sending device }
      | none => some service
    | .other => some service
    | .closed => some { service with browse := .ended }
  | .sending device =>
    match service.mdns.send device with
    | some (.ok lane) => some { service with mdns := lane, browse := .receiving }
    | some (.error ()) => some { service with browse := .ended }
    | none => none
  | .unspawned | .ended => none

/-- What a step of the browse task can do. -/
inductive Browses (host : DiscoveryHost) (before : DiscoveryService) (event : MdnsEvent) (madeUp : Uuid) :
    DiscoveryService → Prop where
  | ignore (task : before.browse = .receiving) (opened : event ≠ .closed)
      (unmade : ∀ info, event = .resolved info → FileDrop.browse host.parseUuid info madeUp = none) :
      Browses host before event madeUp before
  | resolve (info : ServiceInfo) (device : DiscoveredDevice) (task : before.browse = .receiving)
      (same : event = .resolved info)
      (made : FileDrop.browse host.parseUuid info madeUp = some device) :
      Browses host before event madeUp { before with browse := .sending device }
  | close (task : before.browse = .receiving) (same : event = .closed) :
      Browses host before event madeUp { before with browse := .ended }
  | send (device : DiscoveredDevice) (lane : Lane) (task : before.browse = .sending device)
      (sent : before.mdns.send device = some (.ok lane)) :
      Browses host before event madeUp { before with mdns := lane, browse := .receiving }
  | refuse (device : DiscoveredDevice) (task : before.browse = .sending device)
      (sent : before.mdns.send device = some (.error ())) :
      Browses host before event madeUp { before with browse := .ended }

/-- It does nothing else. -/
theorem browseStep_cases {host : DiscoveryHost} {before after : DiscoveryService} {event : MdnsEvent}
    {madeUp : Uuid} (stepped : browseStep host before event madeUp = some after) :
    Browses host before event madeUp after := by
  unfold browseStep at stepped
  split at stepped
  · rename_i task
    split at stepped
    · rename_i info
      split at stepped
      · rename_i device made
        cases stepped
        exact .resolve info device task rfl made
      · rename_i unmade
        cases stepped
        exact .ignore task nofun fun other same => MdnsEvent.resolved.inj same ▸ unmade
    · cases stepped
      exact .ignore task nofun nofun
    · cases stepped
      exact .close task rfl
  · rename_i device task
    split at stepped
    · rename_i lane sent
      cases stepped
      exact .send device lane task sent
    · rename_i sent
      cases stepped
      exact .refuse device task sent
    · cases stepped
  · cases stepped
  · cases stepped

/-- The browse task moves itself and its channel. -/
theorem browseStep_beside {host : DiscoveryHost} {before after : DiscoveryService} {event : MdnsEvent}
    {madeUp : Uuid} (stepped : browseStep host before event madeUp = some after) :
    ∃ browse mdns, after = { before with browse, mdns } := by
  cases browseStep_cases stepped with
  | ignore => exact ⟨before.browse, before.mdns, rfl⟩
  | resolve | close | refuse => exact ⟨_, before.mdns, rfl⟩
  | send => exact ⟨_, _, rfl⟩

/-- One step of the announcer task. -/
def announceStep (service : DiscoveryService) (encoded : Bool) : Option DiscoveryService :=
  match service.announcer with
  | .encoding => some { service with announcer := if encoded then .checking else .ended }
  | .checking => some { service with announcer := if service.running then .sending else .ended }
  | .sending => some { service with announcer := .sleeping }
  | .sleeping => some { service with announcer := .checking }
  | .unspawned | .ended => none

/-- The announcer moves only itself. -/
theorem announceStep_cases {before after : DiscoveryService} {encoded : Bool}
    (stepped : announceStep before encoded = some after) :
    ∃ announcer, after = { before with announcer } := by
  unfold announceStep at stepped
  split at stepped
  · exact ⟨_, (Option.some.inj stepped).symm⟩
  · exact ⟨_, (Option.some.inj stepped).symm⟩
  · exact ⟨_, (Option.some.inj stepped).symm⟩
  · exact ⟨_, (Option.some.inj stepped).symm⟩
  · cases stepped
  · cases stepped

/-- One step of the listener task. -/
def listenStep (host : DiscoveryHost) (selfId : Uuid) (service : DiscoveryService)
    (received : Option Datagram) : Option DiscoveryService :=
  match service.listener with
  | .checking => some { service with listener := if service.running then .receiving else .ended }
  | .receiving =>
    match received.bind (hear host.parseAnnounce selfId) with
    | some device => some { service with listener := .sending device }
    | none => some { service with listener := .checking }
  | .sending device =>
    match service.udp.send device with
    | some (.ok lane) => some { service with udp := lane, listener := .checking }
    | some (.error ()) => some { service with listener := .ended }
    | none => none
  | .unspawned | .ended => none

/-- The listener moves itself and its channel. -/
theorem listenStep_cases {host : DiscoveryHost} {selfId : Uuid} {before after : DiscoveryService}
    {received : Option Datagram} (stepped : listenStep host selfId before received = some after) :
    ∃ listener udp, after = { before with listener, udp } := by
  unfold listenStep at stepped
  split at stepped
  · exact ⟨_, before.udp, (Option.some.inj stepped).symm⟩
  · split at stepped
    · exact ⟨_, before.udp, (Option.some.inj stepped).symm⟩
    · exact ⟨_, before.udp, (Option.some.inj stepped).symm⟩
  · split at stepped
    · exact ⟨_, _, (Option.some.inj stepped).symm⟩
    · exact ⟨_, before.udp, (Option.some.inj stepped).symm⟩
    · cases stepped
  · cases stepped
  · cases stepped

/-- One step of the service of a device. -/
def step (host : DiscoveryHost) (serviceName : String) (selfDevice : DiscoveredDevice)
    (service : DiscoveryService) : DiscoveryMove → Option DiscoveryService
  | .start fault => startStep host serviceName selfDevice service fault
  | .stop => stopStep service
  | .browse event madeUp => browseStep host service event madeUp
  | .forwardMdns accepted =>
    (forward service.mdns (service.browse = .ended) accepted service.devices service.onDevice).map
      fun (lane, devices, onDevice) => { service with mdns := lane, devices, onDevice }
  | .announce encoded => announceStep service encoded
  | .listen received => listenStep host selfDevice.deviceId service received
  | .forwardUdp accepted =>
    (forward service.udp (service.listener = .ended) accepted service.devices service.onDevice).map
      fun (lane, devices, onDevice) => { service with udp := lane, devices, onDevice }

/-- A step that is none of the two calls leaves them alone, with what they have acquired; only a step of
the listener moves the listener. -/
theorem step_beside {host : DiscoveryHost} {serviceName : String} {selfDevice : DiscoveredDevice}
    {before after : DiscoveryService} {move : DiscoveryMove}
    (stepped : step host serviceName selfDevice before move = some after) :
    (∃ fault, move = .start fault) ∨ move = .stop ∨
      ∃ browse mdns announcer listener udp devices onDevice,
        after = { before with browse, mdns, announcer, listener, udp, devices, onDevice } ∧
          ((∀ received, move ≠ .listen received) → listener = before.listener) := by
  cases move with
  | start fault => exact .inl ⟨fault, rfl⟩
  | stop => exact .inr (.inl rfl)
  | browse event madeUp =>
    obtain ⟨browse, mdns, rfl⟩ := browseStep_beside stepped
    exact .inr (.inr ⟨_, _, _, _, _, _, _, rfl, fun _ => rfl⟩)
  | announce encoded =>
    obtain ⟨announcer, rfl⟩ := announceStep_cases stepped
    exact .inr (.inr ⟨_, _, _, _, _, _, _, rfl, fun _ => rfl⟩)
  | listen received =>
    obtain ⟨listener, udp, rfl⟩ := listenStep_cases stepped
    exact .inr (.inr ⟨_, _, _, _, _, _, _, rfl, fun other => absurd rfl (other received)⟩)
  | forwardMdns accepted | forwardUdp accepted =>
    obtain ⟨moved, -, rfl⟩ := Option.map_eq_some_iff.mp stepped
    exact .inr (.inr ⟨_, _, _, _, _, _, _, rfl, fun _ => rfl⟩)

/-- `nearby_devices`, as a set. -/
def nearby (service : DiscoveryService) (device : DiscoveredDevice) : Prop :=
  ∃ id, service.devices id = some device

end DiscoveryService

end FileDrop
