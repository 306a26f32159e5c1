import FileDrop.Verif.OwnDevice

/-!
# What a stopped discovery still does

The call that stops the service ends no task. It tells the daemon to stop browsing, clears the flag that
only the announcer and the listener look at, and empties the map. So what a task holds and what is in a
channel still comes through, and the daemon keeps advertising what it has registered.
-/
namespace FileDrop.Stopped
open FileDrop DiscoveryService OwnDevice

/-! ## What a stopped service is like -/

/-- `start` has registered the device with the daemon, and has not failed. -/
def Registered : StartStage → Prop
  | .uncalled | .building | .registering _ | .returned (.error _) => False
  | .browsing | .forwardingMdns | .flagging | .bindingListener | .allowingListener | .bindingSender
  | .allowingSender | .announcing | .listening | .forwardingUdp | .returned (.ok ()) => True

/-- The flag is cleared at two stages of `stop`, and not before. -/
def Flagged (stage : StopStage) : Prop := stage = .clearingDevices ∨ stage = .returned

instance (stage : StopStage) : Decidable (Flagged stage) :=
  inferInstanceAs (Decidable (_ ∨ _))

/-- How `start` and `stop` follow each other. -/
structure Ordered (service : DiscoveryService) : Prop where
  registered : Registered service.starting → service.registration ≠ none
  started : service.stopping ≠ .uncalled → service.starting = .returned (.ok ())
  flagged : Flagged service.stopping → service.running = false

variable {host : DiscoveryHost} {serviceName : String} {selfDevice : DiscoveredDevice}
variable {before after : DiscoveryService}

/-- A service that somebody stops has started. -/
theorem Ordered.begun (ordered : Ordered before) {stage : StopStage} (now : before.stopping = stage)
    (called : stage ≠ .uncalled) : before.starting = .returned (.ok ()) :=
  ordered.started (now ▸ called)

/-- `start` makes steps only until it has returned, and nobody can stop the service before. -/
theorem ordered_start {fault : Option String} (ordered : Ordered before)
    (stepped : startStep host serviceName selfDevice before fault = some after) : Ordered after := by
  have unstopped : before.stopping = .uncalled := by
    by_contra called
    have finished := ordered.started called
    simp only [startStep, finished] at stepped
    cases stepped
  have reach {next : DiscoveryService} (same : next.stopping = before.stopping)
      (registered : Registered next.starting → next.registration ≠ none) : Ordered next := by
    rw [unstopped] at same
    refine ⟨registered, fun called => absurd same called, ?_⟩
    rintro (clearing | finished)
    · rw [same] at clearing
      cases clearing
    · rw [same] at finished
      cases finished
  have past {stage : StartStage} (now : before.starting = stage) (done : Registered stage) :
      before.registration ≠ none := ordered.registered (now ▸ done)
  cases startStep_cases stepped with
  | call stage | build info stage => exact reach rfl False.elim
  | register info stage => exact reach rfl fun _ => Option.some_ne_none info
  | browse stage | forwardMdns stage | flag stage | announce stage | listen stage | forwardUdp stage =>
    exact reach rfl fun _ => past stage trivial
  | socket next stage =>
    refine reach rfl fun _ => ordered.registered ?_
    generalize before.starting = now at stage
    cases stage with
    | bindListener | allowListener | bindSender | allowSender => trivial
  | fail error reason => exact reach rfl False.elim

/-- `stop` clears the flag before the map. -/
theorem ordered_stop (ordered : Ordered before) (stepped : stopStep before = some after) :
    Ordered after := by
  cases stage : before.stopping with
  | uncalled =>
    have unflagged : ¬Flagged .stoppingBrowse := by decide
    simp only [stopStep, stage] at stepped
    split at stepped
    · rename_i started
      cases stepped
      exact ⟨ordered.registered, fun _ => started, fun flagged => absurd flagged unflagged⟩
    · cases stepped
  | stoppingBrowse =>
    have unflagged : ¬Flagged .clearingFlag := by decide
    have started := ordered.begun stage (by decide)
    simp only [stopStep, stage] at stepped
    cases stepped
    exact ⟨ordered.registered, fun _ => started, fun flagged => absurd flagged unflagged⟩
  | clearingFlag =>
    have started := ordered.begun stage (by decide)
    simp only [stopStep, stage] at stepped
    cases stepped
    exact ⟨ordered.registered, fun _ => started, fun _ => rfl⟩
  | clearingDevices =>
    have started := ordered.begun stage (by decide)
    have cleared := ordered.flagged (.inl stage)
    simp only [stopStep, stage] at stepped
    cases stepped
    exact ⟨ordered.registered, fun _ => started, fun _ => cleared⟩
  | returned =>
    simp only [stopStep, stage] at stepped
    cases stepped

/-- The tasks touch neither call. -/
theorem ordered_step {move : DiscoveryMove} (ordered : Ordered before)
    (stepped : step host serviceName selfDevice before move = some after) : Ordered after := by
  rcases step_beside stepped with ⟨fault, rfl⟩ | rfl | ⟨_, _, _, _, _, _, _, rfl, -⟩
  · exact ordered_start ordered stepped
  · exact ordered_stop ordered stepped
  · exact { ordered with }

/-- At first neither has been called. -/
theorem ordered_new : Ordered .new where
  registered := False.elim
  started called := absurd rfl called
  flagged := by
    rintro (clearing | finished)
    · cases clearing
    · cases finished

/-- The two calls are ordered in every run. -/
theorem ordered_reached {reached : DiscoveryService}
    (path : Machine.Reaches (step host serviceName selfDevice) (fun _ _ => True) .new reached) :
    Ordered reached :=
  path.invariant ordered_new fun _ _ _ ordered _ stepped => ordered_step ordered stepped

/-! ## Nothing on its way -/

/-- Nothing is in a lane, and nothing can come into it if the task that feeds it is done. -/
def Drained (lane : Lane) (done : Prop) : Prop :=
  match lane.task with
  | .receiving => lane.channel = [] ∧ done
  | .inserting _ | .sending _ => False
  | .unspawned | .ended => True

/-- The browse task makes no device any more. -/
def BrowseDone : BrowseTask → Prop
  | .unspawned | .ended => True
  | .receiving | .sending _ => False

/-- Nor does the listener, once the flag is cleared: one that is in `recv_from` still takes a datagram. -/
def ListenerDone (host : DiscoveryHost) (selfId : Uuid) : ListenerTask → Prop
  | .unspawned | .ended | .checking => True
  | .receiving => ∀ datagram, hear host.parseAnnounce selfId datagram = none
  | .sending _ => False

/-- No device is on its way, and none can come. -/
def Silent (host : DiscoveryHost) (selfId : Uuid) (service : DiscoveryService) : Prop :=
  Drained service.mdns (BrowseDone service.browse) ∧
    Drained service.udp (ListenerDone host selfId service.listener)

/-- A drained lane forwards nothing. -/
theorem drained_forward {lane next : Lane} {done : Prop} {closed accepted : Bool}
    {devices devices' : Uuid → Option DiscoveredDevice} {onDevice onDevice' : List DiscoveredDevice}
    (drained : Drained lane done)
    (moved : forward lane closed accepted devices onDevice = some (next, devices', onDevice')) :
    Drained next done ∧ devices' = devices ∧ onDevice' = onDevice := by
  cases forward_cases moved with
  | receive device rest => exact absurd drained.1 (List.cons_ne_nil device rest)
  | drain => exact ⟨trivial, rfl, rfl⟩
  | insert | deliver | refuse => exact drained.elim

/-- A lane that takes a device is not drained, or nobody forwards from it any more. -/
theorem drained_send {lane next : Lane} {device : DiscoveredDevice} {done after : Prop} (busy : ¬done)
    (drained : Drained lane done) (sent : lane.send device = some (.ok next)) : Drained next after := by
  obtain rfl := Lane.send_ok sent
  obtain ⟨channel, task⟩ := lane
  cases task with
  | receiving => exact absurd drained.2 busy
  | inserting | sending => exact drained.elim
  | unspawned | ended => exact trivial

/-- With less to be done a lane stays drained. -/
theorem Drained.mono {lane : Lane} {done after : Prop} (implies : done → after)
    (drained : Drained lane done) : Drained lane after := by
  obtain ⟨channel, task⟩ := lane
  cases task with
  | receiving => exact ⟨drained.1, implies drained.2⟩
  | inserting | sending => exact drained
  | unspawned | ended => exact trivial

/-- The browse task keeps its lane drained. -/
theorem drained_browse {event : MdnsEvent} {madeUp : Uuid}
    (drained : Drained before.mdns (BrowseDone before.browse))
    (stepped : browseStep host before event madeUp = some after) :
    Drained after.mdns (BrowseDone after.browse) := by
  cases browseStep_cases stepped with
  | ignore => exact drained
  | resolve info device task =>
    rw [task] at drained
    exact drained.mono False.elim
  | close | refuse => exact drained.mono fun _ => trivial
  | send device lane task sent =>
    rw [task] at drained
    exact drained_send id drained sent

/-- So does the listener when the flag is cleared. -/
theorem drained_listen {selfId : Uuid} {received : Option Datagram} (cleared : before.running = false)
    (drained : Drained before.udp (ListenerDone host selfId before.listener))
    (stepped : listenStep host selfId before received = some after) :
    Drained after.udp (ListenerDone host selfId after.listener) := by
  unfold listenStep at stepped
  split at stepped
  · cases stepped
    simp only [cleared, Bool.false_eq_true, if_false]
    exact drained.mono fun _ => trivial
  · rename_i task
    rw [task] at drained
    split at stepped
    · rename_i device heard
      cases stepped
      refine drained.mono fun deaf => ?_
      obtain ⟨datagram, -, heard⟩ := Option.bind_eq_some_iff.mp heard
      rw [deaf datagram] at heard
      cases heard
    · cases stepped
      exact drained.mono fun _ => trivial
  · rename_i device task
    rw [task] at drained
    split at stepped
    · rename_i lane sent
      cases stepped
      exact drained_send id drained sent
    · cases stepped
      exact drained.mono fun _ => trivial
    · cases stepped
  · cases stepped
  · cases stepped

/-- A step of a stopped service that is silent adds no device, sends none on and keeps it silent. -/
theorem silent_step {move : DiscoveryMove} (ordered : Ordered before) (finished : before.stopping = .returned)
    (silent : Silent host selfDevice.deviceId before)
    (stepped : step host serviceName selfDevice before move = some after) :
    Silent host selfDevice.deviceId after ∧ after.stopping = .returned ∧
      after.devices = before.devices ∧ after.onDevice = before.onDevice := by
  have started := ordered.begun finished (by decide)
  have cleared := ordered.flagged (.inr finished)
  cases move with
  | start fault =>
    simp only [step, startStep, started] at stepped
    cases stepped
  | stop =>
    simp only [step, stopStep, finished] at stepped
    cases stepped
  | browse event madeUp =>
    have mdns := drained_browse silent.1 stepped
    obtain ⟨browse, lane, rfl⟩ := browseStep_beside stepped
    exact ⟨⟨mdns, silent.2⟩, finished, rfl, rfl⟩
  | announce encoded =>
    obtain ⟨announcer, rfl⟩ := announceStep_cases stepped
    exact ⟨silent, finished, rfl, rfl⟩
  | listen received =>
    have udp := drained_listen cleared silent.2 stepped
    obtain ⟨listener, lane, rfl⟩ := listenStep_cases stepped
    exact ⟨⟨silent.1, udp⟩, finished, rfl, rfl⟩
  | forwardMdns accepted =>
    obtain ⟨⟨lane, devices, onDevice⟩, moved, rfl⟩ := Option.map_eq_some_iff.mp stepped
    obtain ⟨drained, same, sent⟩ := drained_forward silent.1 moved
    exact ⟨⟨drained, silent.2⟩, finished, same, sent⟩
  | forwardUdp accepted =>
    obtain ⟨⟨lane, devices, onDevice⟩, moved, rfl⟩ := Option.map_eq_some_iff.mp stepped
    obtain ⟨drained, same, sent⟩ := drained_forward silent.2 moved
    exact ⟨⟨silent.1, drained⟩, finished, same, sent⟩

/-- A stopped service that is silent remains so. -/
theorem silent_reached {stopped later : DiscoveryService} (ordered : Ordered stopped)
    (finished : stopped.stopping = .returned) (silent : Silent host selfDevice.deviceId stopped)
    (path : Machine.Reaches (step host serviceName selfDevice) (fun _ _ => True) stopped later) :
    later.devices = stopped.devices ∧ later.onDevice = stopped.onDevice := by
  have all : Ordered later ∧ Silent host selfDevice.deviceId later ∧ later.stopping = .returned ∧
      later.devices = stopped.devices ∧ later.onDevice = stopped.onDevice := by
    induction path with
    | refl => exact ⟨ordered, silent, finished, rfl, rfl⟩
    | tail _ last ih =>
      obtain ⟨move, -, stepped⟩ := last
      obtain ⟨ordered, silent, finished, devices, onDevice⟩ := ih
      obtain ⟨silent, finished', devices', onDevice'⟩ := silent_step ordered finished silent stepped
      exact ⟨ordered_step ordered stepped, silent, finished', devices'.trans devices,
        onDevice'.trans onDevice⟩
  exact all.2.2.2

/-! ## Something on its way -/

/-- A device is in a lane and will be sent on after so many steps of the forward task. -/
inductive Holds (device : DiscoveredDevice) : Nat → Lane → Prop where
  | sending (channel : List DiscoveredDevice) : Holds device 0 ⟨channel, .sending device⟩
  | inserting (channel : List DiscoveredDevice) : Holds device 1 ⟨channel, .inserting device⟩
  | queued (rest : List DiscoveredDevice) : Holds device 2 ⟨device :: rest, .receiving⟩

/-- The forward task takes it one step further, as long as the caller listens. -/
theorem holds_forward {device : DiscoveredDevice} {rounds : Nat} {lane : Lane}
    (holds : Holds device rounds lane) (closed : Bool) (devices : Uuid → Option DiscoveredDevice)
    (onDevice : List DiscoveredDevice) :
    ∃ next devices' onDevice', forward lane closed true devices onDevice = some (next, devices', onDevice') ∧
      (rounds = 0 ∧ onDevice' = onDevice ++ [device] ∨
        ∃ fewer, rounds = fewer + 1 ∧ Holds device fewer next ∧ onDevice' = onDevice) := by
  cases holds with
  | sending channel => exact ⟨_, _, _, rfl, .inl ⟨rfl, rfl⟩⟩
  | inserting channel => exact ⟨_, _, _, rfl, .inr ⟨0, rfl, .sending channel, rfl⟩⟩
  | queued rest => exact ⟨_, _, _, rfl, .inr ⟨1, rfl, .inserting rest, rfl⟩⟩

/-- A lane of a service that a move of its forward task steps. -/
def ForwardedBy (host : DiscoveryHost) (serviceName : String) (selfDevice : DiscoveredDevice)
    (lane : DiscoveryService → Lane) (move : DiscoveryMove) : Prop :=
  ∀ service, ∃ closed, ∀ next devices onDevice,
    forward (lane service) closed true service.devices service.onDevice = some (next, devices, onDevice) →
      ∃ after, step host serviceName selfDevice service move = some after ∧ lane after = next ∧
        after.onDevice = onDevice

/-- The lane of mDNS. -/
theorem forwardedBy_mdns :
    ForwardedBy host serviceName selfDevice DiscoveryService.mdns (.forwardMdns true) :=
  fun service => ⟨service.browse = .ended, fun _ _ _ moved =>
    ⟨_, congrArg (Option.map _) moved, rfl, rfl⟩⟩

/-- The lane of UDP. -/
theorem forwardedBy_udp :
    ForwardedBy host serviceName selfDevice DiscoveryService.udp (.forwardUdp true) :=
  fun service => ⟨service.listener = .ended, fun _ _ _ moved =>
    ⟨_, congrArg (Option.map _) moved, rfl, rfl⟩⟩

/-- What is in a lane is sent on in some continuation. -/
theorem sent_of_holds {lane : DiscoveryService → Lane} {move : DiscoveryMove}
    (forwarded : ForwardedBy host serviceName selfDevice lane move) {device : DiscoveredDevice}
    {rounds : Nat} {service : DiscoveryService} (holds : Holds device rounds (lane service)) :
    ∃ later, Machine.Reaches (step host serviceName selfDevice) (fun _ _ => True) service later ∧
      later.onDevice = service.onDevice ++ [device] := by
  induction rounds generalizing service with
  | zero =>
    obtain ⟨closed, steps⟩ := forwarded service
    obtain ⟨next, devices, onDevice, moved, ⟨-, sent⟩ | ⟨fewer, less, -⟩⟩ :=
      holds_forward holds closed service.devices service.onDevice
    · obtain ⟨after, stepped, -, same⟩ := steps next devices onDevice moved
      exact ⟨after, .single ⟨move, trivial, stepped⟩, same.trans sent⟩
    · cases less
  | succ rounds ih =>
    obtain ⟨closed, steps⟩ := forwarded service
    obtain ⟨next, devices, onDevice, moved, ⟨none, -⟩ | ⟨fewer, less, held, same⟩⟩ :=
      holds_forward holds closed service.devices service.onDevice
    · cases none
    · obtain rfl := Nat.succ.inj less
      obtain ⟨after, stepped, there, kept⟩ := steps next devices onDevice moved
      obtain ⟨later, path, sent⟩ := ih (there ▸ held)
      refine ⟨later, .head ⟨move, trivial, stepped⟩ path, ?_⟩
      rw [sent, kept, same]

/-- A lane that is not drained holds a device, or waits for the task that feeds it. -/
theorem holds_of_busy {lane : Lane} {done : Prop} (busy : ¬Drained lane done) :
    (∃ device rounds, Holds device rounds lane) ∨ lane = ⟨[], .receiving⟩ ∧ ¬done := by
  obtain ⟨channel, task⟩ := lane
  cases task with
  | unspawned | ended => exact absurd trivial busy
  | inserting device => exact .inl ⟨device, 1, .inserting channel⟩
  | sending device => exact .inl ⟨device, 0, .sending channel⟩
  | receiving =>
    cases channel with
    | cons device rest => exact .inl ⟨device, 2, .queued rest⟩
    | nil => exact .inr ⟨rfl, fun finished => busy ⟨rfl, finished⟩⟩

/-- A device that is sent on after a step is sent on. -/
theorem sent_after {move : DiscoveryMove} {device : DiscoveredDevice}
    (stepped : step host serviceName selfDevice before move = some after)
    (same : after.onDevice = before.onDevice)
    (sent : ∃ later, Machine.Reaches (step host serviceName selfDevice) (fun _ _ => True) after later ∧
      later.onDevice = after.onDevice ++ [device]) :
    ∃ later, Machine.Reaches (step host serviceName selfDevice) (fun _ _ => True) before later ∧
      later.onDevice = before.onDevice ++ [device] := by
  obtain ⟨later, path, sent⟩ := sent
  exact ⟨later, .head ⟨move, trivial, stepped⟩ path, same ▸ sent⟩

/-- A service with an address, which the browse task makes a device of. -/
def resolvable : ServiceInfo where
  fullname := discoveryName ++ "." ++ serviceType
  hostName := "peer.local."
  deviceId := none
  platform := none
  addressesV4 := [⟨192, 168, 1, 30⟩]
  port := 53317

/-- What the browse task still makes is sent on in some continuation. -/
theorem sent_of_browse (empty : before.mdns = ⟨[], .receiving⟩) (busy : ¬BrowseDone before.browse) :
    ∃ device later, Machine.Reaches (step host serviceName selfDevice) (fun _ _ => True) before later ∧
      later.onDevice = before.onDevice ++ [device] := by
  have fed {service : DiscoveryService} {device : DiscoveredDevice} (lane : service.mdns = ⟨[], .receiving⟩)
      (task : service.browse = .sending device) :
      ∃ later, Machine.Reaches (step host serviceName selfDevice) (fun _ _ => True) service later ∧
        later.onDevice = service.onDevice ++ [device] := by
    have stepped : step host serviceName selfDevice service (.browse .other ⟨0⟩) =
        some { service with mdns := ⟨[device], .receiving⟩, browse := .receiving } := by
      simp only [step, browseStep, task, lane]
      rfl
    exact sent_after stepped rfl (sent_of_holds forwardedBy_mdns (.queued []))
  cases task : before.browse with
  | unspawned | ended => exact absurd (task ▸ trivial) busy
  | sending device => exact ⟨device, fed empty task⟩
  | receiving =>
    obtain ⟨device, made⟩ : ∃ device, browse host.parseUuid resolvable ⟨0⟩ = some device := ⟨_, rfl⟩
    have stepped : step host serviceName selfDevice before (.browse (.resolved resolvable) ⟨0⟩) =
        some { before with browse := .sending device } := by
      simp only [step, browseStep, task, made]
    exact ⟨device, sent_after stepped rfl (fed empty rfl)⟩

/-- And so is what the listener still makes. -/
theorem sent_of_listen (empty : before.udp = ⟨[], .receiving⟩)
    (busy : ¬ListenerDone host selfDevice.deviceId before.listener) :
    ∃ device later, Machine.Reaches (step host serviceName selfDevice) (fun _ _ => True) before later ∧
      later.onDevice = before.onDevice ++ [device] := by
  have fed {service : DiscoveryService} {device : DiscoveredDevice} (lane : service.udp = ⟨[], .receiving⟩)
      (task : service.listener = .sending device) :
      ∃ later, Machine.Reaches (step host serviceName selfDevice) (fun _ _ => True) service later ∧
        later.onDevice = service.onDevice ++ [device] := by
    have stepped : step host serviceName selfDevice service (.listen none) =
        some { service with udp := ⟨[device], .receiving⟩, listener := .checking } := by
      simp only [step, listenStep, task, lane]
      rfl
    exact sent_after stepped rfl (sent_of_holds forwardedBy_udp (.queued []))
  cases task : before.listener with
  | unspawned | ended | checking => exact absurd (task ▸ trivial) busy
  | sending device => exact ⟨device, fed empty task⟩
  | receiving =>
    rw [task] at busy
    obtain ⟨datagram, heard⟩ := not_forall.mp busy
    obtain ⟨device, made⟩ := Option.ne_none_iff_exists'.mp heard
    have stepped : step host serviceName selfDevice before (.listen (some datagram)) =
        some { before with listener := .sending device } := by
      simp only [step, listenStep, task, Option.bind_some, made]
    exact ⟨device, sent_after stepped rfl (fed empty rfl)⟩

/-- A service that is not silent sends a device on in some continuation. -/
theorem sent_of_busy (busy : ¬Silent host selfDevice.deviceId before) :
    ∃ device later, Machine.Reaches (step host serviceName selfDevice) (fun _ _ => True) before later ∧
      later.onDevice = before.onDevice ++ [device] := by
  rcases not_and_or.mp busy with mdns | udp
  · rcases holds_of_busy mdns with ⟨device, rounds, holds⟩ | ⟨empty, task⟩
    · exact ⟨device, sent_of_holds forwardedBy_mdns holds⟩
    · exact sent_of_browse empty task
  · rcases holds_of_busy udp with ⟨device, rounds, holds⟩ | ⟨empty, task⟩
    · exact ⟨device, sent_of_holds forwardedBy_udp holds⟩
    · exact sent_of_listen empty task

/-! ## A stopped service -/

/-- In every run in which `stop` has returned, the daemon still has the device registered. From there on
no device is added and none is sent on, whatever arrives, exactly if none is on its way and no task can
make one. -/
theorem stopped_registered {stopped : DiscoveryService}
    (path : Machine.Reaches (step host serviceName selfDevice) (fun _ _ => True) .new stopped)
    (returned : stopped.stopping = .returned) :
    stopped.registration ≠ none ∧
      ((∀ later, Machine.Reaches (step host serviceName selfDevice) (fun _ _ => True) stopped later →
        later.devices = stopped.devices ∧ later.onDevice = stopped.onDevice) ↔
      Silent host selfDevice.deviceId stopped) := by
  have ordered := ordered_reached path
  have started := ordered.begun returned (by decide)
  refine ⟨ordered.registered (started ▸ trivial), ?_, ?_⟩
  · intro still
    by_contra busy
    have continues : ∃ device later,
        Machine.Reaches (step host serviceName selfDevice) (fun _ _ => True) stopped later ∧
          later.onDevice = stopped.onDevice ++ [device] := sent_of_busy busy
    obtain ⟨device, later, continued, sent⟩ := continues
    have longer : (stopped.onDevice ++ [device]).length = stopped.onDevice.length := by
      rw [← sent, (still later continued).2]
    rw [List.length_append, List.length_singleton] at longer
    omega
  · exact fun silent later continued => silent_reached ordered returned silent continued

/-! ## One that is stopped while a device is on its way -/

/-- Start, resolve a service, and stop before its device is in the channel. -/
def stopping : List DiscoveryMove :=
  List.replicate 13 (.start none) ++ [.browse (.resolved (sampleInfo ⟨8⟩)) ⟨0⟩] ++ List.replicate 4 .stop

/-- The device comes through. -/
def delivering : List DiscoveryMove :=
  [.browse .other ⟨0⟩, .forwardMdns true, .forwardMdns true, .forwardMdns true]

/-- The run of the sample. -/
theorem stopping_runs : ∃ stopped later,
    Machine.run (step sampleHost discoveryName sampleSelf) (fun _ _ => True) stopping .new = some stopped ∧
      stopped.stopping = .returned ∧
      Machine.run (step sampleHost discoveryName sampleSelf) (fun _ _ => True) delivering stopped =
        some later ∧
      later.onDevice.length ≠ stopped.onDevice.length := by
  have runs : ((Machine.run (step sampleHost discoveryName sampleSelf) (fun _ _ => True) stopping
      .new).bind fun stopped =>
        (Machine.run (step sampleHost discoveryName sampleSelf) (fun _ _ => True) delivering stopped).map
          fun later => decide (stopped.stopping = .returned ∧
            later.onDevice.length ≠ stopped.onDevice.length)) = some true := by
    decide +kernel
  obtain ⟨stopped, ran, more⟩ := Option.bind_eq_some_iff.mp runs
  obtain ⟨later, continued, both⟩ := Option.map_eq_some_iff.mp more
  obtain ⟨returned, longer⟩ := of_decide_eq_true both
  exact ⟨stopped, later, ran, returned, continued, longer⟩

/-- It is still registered, and its device is not the last one. -/
theorem stopped_registered_sample : ∃ stopped,
    Machine.run (step sampleHost discoveryName sampleSelf) (fun _ _ => True) stopping .new = some stopped ∧
      stopped.registration ≠ none ∧ ¬Silent sampleHost ⟨7⟩ stopped := by
  obtain ⟨stopped, later, ran, returned, continued, longer⟩ := stopping_runs
  obtain ⟨registered, still⟩ := stopped_registered (Machine.reaches_of_run ran) returned
  refine ⟨stopped, ran, registered, fun silent => longer ?_⟩
  rw [(still.mpr silent later (Machine.reaches_of_run continued)).2]

/-- A service that has stopped is neither withdrawn nor still. -/
theorem stopped_registered_broken :
    ¬∀ (host : DiscoveryHost) (serviceName : String) (selfDevice : DiscoveredDevice)
      (stopped : DiscoveryService),
      Machine.Reaches (step host serviceName selfDevice) (fun _ _ => True) .new stopped →
      stopped.stopping = .returned →
      stopped.registration = none ∧
        ∀ later, Machine.Reaches (step host serviceName selfDevice) (fun _ _ => True) stopped later →
          later.devices = stopped.devices ∧ later.onDevice = stopped.onDevice := by
  intro always
  obtain ⟨stopped, later, ran, returned, continued, longer⟩ := stopping_runs
  obtain ⟨-, still⟩ := always sampleHost discoveryName sampleSelf stopped (Machine.reaches_of_run ran)
    returned
  exact longer (congrArg List.length (still later (Machine.reaches_of_run continued)).2)

end FileDrop.Stopped
