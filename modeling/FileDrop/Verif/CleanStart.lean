import FileDrop.Discovery.Host
import FileDrop.Verif.Stopped

/-!
# What a start that fails leaves behind

A start gives nothing back. It registers the device first and fails at later steps with what it has
acquired in place; only a start that does not come to the registration leaves nothing. And a stop does not
close the socket of its listener, so a later start may find the port taken by a service that has stopped.
-/
namespace FileDrop.CleanStart
open FileDrop DiscoveryService

/-- The service has neither a registration nor one of the tasks that were spawned for it. -/
structure Nothing (service : DiscoveryService) : Prop where
  registration : service.registration = none
  browse : service.browse = .unspawned ∨ service.browse = .ended
  announcer : service.announcer = .unspawned ∨ service.announcer = .ended
  listener : service.listener = .unspawned ∨ service.listener = .ended

/-- Nothing has been acquired; the flag is as it was. -/
structure Idle (running : Bool) (service : DiscoveryService) : Prop where
  registration : service.registration = none
  stopping : service.stopping = .uncalled
  browse : service.browse = .unspawned
  mdns : service.mdns.task = .unspawned
  announcer : service.announcer = .unspawned
  listener : service.listener = .unspawned
  udp : service.udp.task = .unspawned
  flag : service.running = running

/-- The start has not come to the registration. -/
def Early : StartStage → Prop
  | .uncalled | .building | .registering _ => True
  | .browsing | .forwardingMdns | .flagging | .bindingListener | .allowingListener | .bindingSender
  | .allowingSender | .announcing | .listening | .forwardingUdp | .returned _ => False

/-- The start has failed. -/
def Failed : StartStage → Prop
  | .returned (.error _) => True
  | _ => False

variable {host : DiscoveryHost} {serviceName : String} {selfDevice : DiscoveredDevice}
variable {before after : DiscoveryService} {running : Bool}

/-- Before the registration only the start makes steps. -/
theorem Idle.move {move : DiscoveryMove} (idle : Idle running before)
    (stepped : step host serviceName selfDevice before move = some after) :
    (∃ fault, move = .start fault) ∨ before.starting = .returned (.ok ()) := by
  cases move with
  | start fault => exact .inl ⟨fault, rfl⟩
  | stop =>
    simp only [step, stopStep, idle.stopping] at stepped
    split at stepped
    · rename_i started
      exact .inr started
    · cases stepped
  | browse event madeUp =>
    simp only [step, browseStep, idle.browse] at stepped
    cases stepped
  | forwardMdns accepted =>
    simp only [step, forward, idle.mdns, Option.map_none] at stepped
    cases stepped
  | announce encoded =>
    simp only [step, announceStep, idle.announcer] at stepped
    cases stepped
  | listen received =>
    simp only [step, listenStep, idle.listener] at stepped
    cases stepped
  | forwardUdp accepted =>
    simp only [step, forward, idle.udp, Option.map_none] at stepped
    cases stepped

/-- After a start that failed so, nothing happens any more. -/
theorem Idle.still {move : DiscoveryMove} (idle : Idle running before) (failed : Failed before.starting) :
    step host serviceName selfDevice before move ≠ some after := by
  intro stepped
  unfold Failed at failed
  split at failed
  · rename_i error now
    rcases idle.move stepped with ⟨fault, rfl⟩ | started
    · simp only [step, startStep, now] at stepped
      cases stepped
    · rw [now] at started
      cases started
  · exact failed

/-- The device is registered, and the start is past that. -/
def Past (service : DiscoveryService) : Prop := service.registration ≠ none ∧ ¬Early service.starting

/-- The start has failed, and nothing was acquired. -/
def Void (running : Bool) (service : DiscoveryService) : Prop :=
  Idle running service ∧ Failed service.starting

/-- What a step of an early start leads to: nothing is acquired, and it goes on or has failed; or the
device is registered. -/
theorem Idle.start {fault : Option String} (idle : Idle running before) (early : Early before.starting)
    (stepped : startStep host serviceName selfDevice before fault = some after) :
    after.starting = .browsing ∧ after.registration ≠ none ∨
      Idle running after ∧ (Early after.starting ∨ Failed after.starting) := by
  have late {stage : StartStage} (now : before.starting = stage) (notEarly : ¬Early stage) : False :=
    notEarly (now ▸ early)
  cases startStep_cases stepped with
  | call | build => exact .inr ⟨{ idle with }, .inl trivial⟩
  | register info => exact .inl ⟨rfl, Option.some_ne_none info⟩
  | browse stage | forwardMdns stage | flag stage | announce stage | listen stage | forwardUdp stage =>
    exact (late stage id).elim
  | socket next stage =>
    generalize before.starting = now at stage early
    cases stage with
    | bindListener | allowListener | bindSender | allowSender => exact early.elim
  | fail => exact .inr ⟨{ idle with }, .inr trivial⟩

/-- Nothing takes a registration back. -/
theorem Past.move {move : DiscoveryMove} (past : Past before)
    (stepped : step host serviceName selfDevice before move = some after) : Past after := by
  obtain ⟨registered, late⟩ := past
  rcases step_beside stepped with ⟨fault, rfl⟩ | rfl | ⟨_, _, _, _, _, _, _, rfl, -⟩
  · have early {stage : StartStage} (now : before.starting = stage) (isEarly : Early stage) : False :=
      late (now ▸ isEarly)
    cases startStep_cases stepped with
    | call stage | build info stage | register info stage => exact (early stage trivial).elim
    | browse | forwardMdns | flag | announce | listen | forwardUdp | fail => exact ⟨registered, id⟩
    | socket next stage =>
      refine ⟨registered, ?_⟩
      generalize before.starting = now at stage
      cases stage with
      | bindListener | allowListener | bindSender | allowSender => exact id
  · obtain ⟨browsing, running, stopping, rfl⟩ := stopStep_cases stepped
    exact ⟨registered, late⟩
  · exact ⟨registered, late⟩

/-! ## A start that fails -/

/-- Nothing has been done for a service; the flag may be anything. -/
structure Unstarted (service : DiscoveryService) : Prop where
  idle : Idle service.running service
  starting : service.starting = .uncalled

/-- A service is past the registration, or nothing is acquired. -/
def Sorted (running : Bool) (service : DiscoveryService) : Prop :=
  Past service ∨ Idle running service ∧ (Early service.starting ∨ Failed service.starting)

/-- Every step keeps it so. -/
theorem Sorted.move {move : DiscoveryMove} (sorted : Sorted running before)
    (stepped : step host serviceName selfDevice before move = some after) : Sorted running after := by
  rcases sorted with past | ⟨idle, early | failed⟩
  · exact .inl (past.move stepped)
  · rcases idle.move stepped with ⟨fault, rfl⟩ | started
    · rcases idle.start early stepped with ⟨browsing, registered⟩ | waiting
      · exact .inl ⟨registered, browsing ▸ id⟩
      · exact .inr waiting
    · rw [started] at early
      exact early.elim
  · exact absurd stepped (idle.still failed)

/-- It is so in every run. -/
theorem Unstarted.sorted {first : DiscoveryService} (unstarted : Unstarted first)
    (path : Machine.Reaches (step host serviceName selfDevice) (fun _ _ => True) first before) :
    Sorted first.running before := by
  have start : Sorted first.running first := .inr ⟨unstarted.idle, .inl (unstarted.starting ▸ trivial)⟩
  exact path.invariant start fun _ _ _ sorted _ stepped => sorted.move stepped

section

variable {first : DiscoveryService} {fault : Option String}

/-- A start that fails and leaves no registration has not come to it. -/
theorem early_of_failed (unstarted : Unstarted first)
    (path : Machine.Reaches (step host serviceName selfDevice) (fun _ _ => True) first before)
    (stepped : step host serviceName selfDevice before (.start fault) = some after)
    (gone : after.registration = none) : Early before.starting := by
  rcases unstarted.sorted path with past | ⟨idle, early | earlier⟩
  · exact absurd gone (past.move stepped).1
  · exact early
  · exact absurd stepped (idle.still earlier)

/-- A start that fails before it comes to the registration leaves nothing behind, and the flag as it
was. -/
theorem nothing_of_early {error : FileDropError} (unstarted : Unstarted first)
    (path : Machine.Reaches (step host serviceName selfDevice) (fun _ _ => True) first before)
    (stepped : step host serviceName selfDevice before (.start fault) = some after)
    (failed : after.starting = .returned (.error error)) (early : Early before.starting)
    {later : DiscoveryService}
    (more : Machine.Reaches (step host serviceName selfDevice) (fun _ _ => True) after later) :
    Nothing later ∧ later.running = first.running := by
  have finished : Failed after.starting := failed ▸ trivial
  have idle : Idle first.running before := by
    rcases unstarted.sorted path with past | ⟨idle, -⟩
    · exact absurd early past.2
    · exact idle
  have kept : Idle first.running after := by
    rcases idle.start early stepped with ⟨browsing, -⟩ | ⟨kept, -⟩
    · rw [failed] at browsing
      cases browsing
    · exact kept
  -- nobody can make a step any more, so there is no later state
  have ended : Void first.running after := ⟨kept, finished⟩
  have same : Void first.running later :=
    more.invariant ended fun _ _ _ void _ stepped => absurd stepped (void.1.still void.2)
  have rest := same.1
  exact ⟨⟨rest.registration, .inl rest.browse, .inl rest.announcer, .inl rest.listener⟩, rest.flag⟩

end

/-! ## The socket of a service that has stopped -/

/-- A start that has spawned the listener. -/
def Spawned : StartStage → Prop
  | .forwardingUdp | .returned (.ok ()) => True
  | _ => False

/-- The listener of such a start has run. -/
def Listens (service : DiscoveryService) : Prop :=
  Spawned service.starting → service.listener ≠ .unspawned

/-- The listener task never is unspawned again. -/
theorem listenStep_spawned {selfId : Uuid} {received : Option Datagram}
    (stepped : listenStep host selfId before received = some after) : after.listener ≠ .unspawned := by
  unfold listenStep at stepped
  split at stepped
  · obtain rfl := Option.some.inj stepped
    cases before.running with
    | true | false => simp
  · split at stepped
    · obtain rfl := Option.some.inj stepped
      exact nofun
    · obtain rfl := Option.some.inj stepped
      exact nofun
  · split at stepped
    · obtain rfl := Option.some.inj stepped
      exact nofun
    · obtain rfl := Option.some.inj stepped
      exact nofun
    · cases stepped
  · cases stepped
  · cases stepped

/-- Every step keeps it so. -/
theorem Listens.move {move : DiscoveryMove} (listens : Listens before)
    (stepped : step host serviceName selfDevice before move = some after) : Listens after := by
  by_cases heard : ∃ received, move = .listen received
  · obtain ⟨received, rfl⟩ := heard
    exact fun _ => listenStep_spawned stepped
  · rcases step_beside stepped with ⟨fault, rfl⟩ | rfl | ⟨_, _, _, _, _, _, _, rfl, still⟩
    · cases startStep_cases stepped with
      | call | build | register | browse | forwardMdns | flag | announce | fail => exact False.elim
      | socket next stage =>
        generalize before.starting = now at stage
        cases stage with
        | bindListener | allowListener | bindSender | allowSender => exact False.elim
      | listen => exact fun _ => nofun
      | forwardUdp stage => exact fun _ => listens (stage ▸ trivial)
    · obtain ⟨browsing, running, stopping, rfl⟩ := stopStep_cases stepped
      exact listens
    · intro spawned
      have same := still fun received same => heard ⟨received, same⟩
      rw [same]
      exact listens spawned

/-- The listener runs, or it has ended. -/
theorem alive_iff {task : ListenerTask} (spawned : task ≠ .unspawned) :
    task.alive = true ↔ task ≠ .ended := by
  cases task with
  | unspawned => exact absurd rfl spawned
  | checking | receiving | sending => exact iff_of_true rfl nofun
  | ended => exact iff_of_false nofun fun other => other rfl

section

variable {first : DiscoveryService}

/-- `start` and `stop` follow each other from there. -/
theorem Unstarted.ordered (unstarted : Unstarted first)
    (path : Machine.Reaches (step host serviceName selfDevice) (fun _ _ => True) first before) :
    Stopped.Ordered before := by
  have start : Stopped.Ordered first := by
    refine ⟨fun registered => ?_, fun called => absurd unstarted.idle.stopping called, ?_⟩
    · rw [unstarted.starting] at registered
      exact registered.elim
    · rw [unstarted.idle.stopping]
      exact fun flagged => absurd flagged (by decide)
  exact path.invariant start fun _ _ _ ordered _ stepped => Stopped.ordered_step ordered stepped

/-- A service that has been stopped has started. -/
theorem Unstarted.started (unstarted : Unstarted first)
    (path : Machine.Reaches (step host serviceName selfDevice) (fun _ _ => True) first before)
    (returned : before.stopping = .returned) : before.starting = .returned (.ok ()) :=
  (unstarted.ordered path).begun returned (by decide)

/-- A service that has been stopped has its socket as long as its listener has not ended. -/
theorem stopped_hasSocket (unstarted : Unstarted first)
    (path : Machine.Reaches (step host serviceName selfDevice) (fun _ _ => True) first before)
    (returned : before.stopping = .returned) :
    before.hasSocket = true ↔ before.listener ≠ .ended := by
  have listens : Listens before := by
    have start : Listens first := by
      intro spawned
      rw [unstarted.starting] at spawned
      exact spawned.elim
    exact path.invariant start fun _ _ _ listens _ stepped => listens.move stepped
  have started := unstarted.started path returned
  unfold hasSocket
  rw [started]
  exact alive_iff (listens (started ▸ trivial))

end

/-- A stopped service whose listener waits for a datagram. -/
structure Waiting (service : DiscoveryService) : Prop where
  starting : service.starting = .returned (.ok ())
  stopping : service.stopping = .returned
  listener : service.listener = .receiving

/-- Only a step of the listener ends that. -/
theorem Waiting.move {move : DiscoveryMove} (waiting : Waiting before)
    (other : ∀ received, move ≠ .listen received)
    (stepped : step host serviceName selfDevice before move = some after) : Waiting after := by
  rcases step_beside stepped with ⟨fault, rfl⟩ | rfl | ⟨_, _, _, _, _, _, _, rfl, still⟩
  · simp only [step, startStep, waiting.starting] at stepped
    cases stepped
  · simp only [step, stopStep, waiting.stopping] at stepped
    cases stepped
  · exact ⟨waiting.starting, waiting.stopping, (still other).trans waiting.listener⟩

/-! ## The services of a host -/

/-- None of the services has been started, and none has the port. -/
structure Fresh (world : ServiceHost) : Prop where
  unstarted : ∀ id, Unstarted (world.states id)
  free : world.holder = none

section

variable {selfDevice : Nat → DiscoveredDevice} {first before : ServiceHost}

/-- The port is held by the service whose socket is bound to it. -/
theorem Fresh.booked (fresh : Fresh first)
    (path : Machine.Reaches (ServiceHost.step host serviceName selfDevice) (fun _ _ => True) first before) :
    Machine.Tenancy.Booked hasSocket before := by
  have start : Machine.Tenancy.Booked hasSocket first := by
    intro id
    have closed : (first.states id).hasSocket = false := by
      unfold hasSocket
      rw [(fresh.unstarted id).starting]
    rw [fresh.free, closed]
    exact iff_of_false nofun nofun
  exact start.reached path

/-- A service does its own run. -/
theorem runs_alone
    (path : Machine.Reaches (ServiceHost.step host serviceName selfDevice) (fun _ _ => True) first before)
    (id : Nat) :
    Machine.Reaches (step host serviceName (selfDevice id)) (fun _ _ => True) (first.states id)
      (before.states id) :=
  Machine.Tenancy.reaches_states (fun _ _ _ => trivial) path

/-- A stopped service has the port as long as its listener has not ended. -/
theorem Fresh.stopped_holds (fresh : Fresh first)
    (path : Machine.Reaches (ServiceHost.step host serviceName selfDevice) (fun _ _ => True) first before)
    {stopped : Nat} (returned : (before.states stopped).stopping = .returned) :
    before.holder = some stopped ↔ (before.states stopped).listener ≠ .ended := by
  rw [fresh.booked path stopped]
  exact stopped_hasSocket (fresh.unstarted stopped) (runs_alone path stopped) returned

/-- A `bind` can succeed exactly while no service has the port. -/
theorem bind_isSome_iff {id : Nat} (binding : (before.states id).starting = .bindingListener) :
    (ServiceHost.step host serviceName selfDevice before (id, .start none)).isSome = true ↔
      before.holder = none := by
  have stepped : step host serviceName (selfDevice id) (before.states id) (.start none) =
      some { before.states id with starting := .allowingListener } := by
    simp only [step, startStep, binding, socketStep]
  have closed : (before.states id).hasSocket = false := by
    unfold hasSocket
    rw [binding]
  have opened : hasSocket { before.states id with starting := .allowingListener } = true := rfl
  simp only [ServiceHost.step, Machine.Tenancy.move, stepped, Machine.Tenancy.holderAfter, closed, opened]
  cases before.holder with
  | none => simp
  | some other => simp

/-- A stopped service whose listener waits for a datagram keeps the port until it gets one, however many
starts fail on it in the meantime. -/
theorem Fresh.unwoken_holds (fresh : Fresh first)
    (path : Machine.Reaches (ServiceHost.step host serviceName selfDevice) (fun _ _ => True) first before)
    {stopped : Nat} (returned : (before.states stopped).stopping = .returned)
    (waits : (before.states stopped).listener = .receiving) {later : ServiceHost}
    (more : Machine.Reaches (ServiceHost.step host serviceName selfDevice)
      (fun _ made => ∀ received, made ≠ (stopped, .listen received)) before later) :
    later.holder = some stopped := by
  have own : Machine.Reaches (step host serviceName (selfDevice stopped))
      (fun _ move => ∀ received, move ≠ .listen received) (before.states stopped)
      (later.states stopped) := by
    refine Machine.Tenancy.reaches_states (fun world move others received same => ?_) more
    exact others received (by rw [same])
  have started := (fresh.unstarted stopped).started (runs_alone path stopped) returned
  have still : Waiting (later.states stopped) :=
    own.invariant ⟨started, returned, waits⟩ fun _ _ _ waiting other stepped => waiting.move other stepped
  have all := path.trans (more.mono fun _ _ _ => trivial)
  refine (fresh.stopped_holds all still.stopping).mpr ?_
  rw [still.listener]
  exact nofun

/-- Once it gets one that is no other device's announcement, its next look at the flag gives the port
back. -/
theorem Fresh.woken_releases (fresh : Fresh first)
    (path : Machine.Reaches (ServiceHost.step host serviceName selfDevice) (fun _ _ => True) first before)
    {stopped : Nat} (returned : (before.states stopped).stopping = .returned)
    (waits : (before.states stopped).listener = .receiving) {received : Option Datagram}
    (ignored : received.bind (hear host.parseAnnounce (selfDevice stopped).deviceId) = none) :
    ∃ woken ended, ServiceHost.step host serviceName selfDevice before (stopped, .listen received) =
        some woken ∧
      ServiceHost.step host serviceName selfDevice woken (stopped, .listen none) = some ended ∧
      ended.holder = none := by
  have alone := runs_alone path stopped
  have started := (fresh.unstarted stopped).started alone returned
  have cleared := ((fresh.unstarted stopped).ordered alone).flagged (.inr returned)
  have opened (task : ListenerTask) :
      hasSocket { before.states stopped with listener := task } = task.alive := by
    unfold hasSocket
    rw [started]
  have holding : (before.states stopped).hasSocket = true := by
    rw [stopped_hasSocket (fresh.unstarted stopped) alone returned, waits]
    exact nofun
  have wakes : step host serviceName (selfDevice stopped) (before.states stopped) (.listen received) =
      some { before.states stopped with listener := .checking } := by
    simp only [step, listenStep, waits, ignored]
  have woken : ServiceHost.step host serviceName selfDevice before (stopped, .listen received) =
      some ⟨Function.update before.states stopped
        { before.states stopped with listener := .checking }, before.holder⟩ :=
    Machine.Tenancy.move_keep wakes holding (opened .checking)
  refine ⟨_, ⟨_, none⟩, woken, Machine.Tenancy.move_free ?_ ?_ (opened .ended), rfl⟩
  · simp only [Function.update_self, step, listenStep, cleared, Bool.false_eq_true, if_false]
  · simp only [Function.update_self]
    exact opened .checking

/-- In every run of the services of a host: a start that fails leaves nothing behind, now and later, and
the flag as it was, exactly when it has not come to the registration. And when nobody but stopped
services has the port, a `bind` can succeed exactly when the listeners of all of them have ended. -/
theorem clean_start_iff (fresh : Fresh first)
    (path : Machine.Reaches (ServiceHost.step host serviceName selfDevice) (fun _ _ => True) first before)
    (id : Nat) :
    (∀ fault after error,
      ServiceHost.step host serviceName selfDevice before (id, .start fault) = some after →
      (after.states id).starting = .returned (.error error) →
        ((∀ later, Machine.Reaches (ServiceHost.step host serviceName selfDevice) (fun _ _ => True)
            after later →
          Nothing (later.states id) ∧ (later.states id).running = (first.states id).running) ↔
        Early (before.states id).starting)) ∧
      ((before.states id).starting = .bindingListener →
        (∀ other, before.holder = some other → (before.states other).stopping = .returned) →
          ((ServiceHost.step host serviceName selfDevice before (id, .start none)).isSome = true ↔
            ∀ stopped, (before.states stopped).stopping = .returned →
              (before.states stopped).listener = .ended)) := by
  refine ⟨fun fault after error moved failed => ?_, fun binding others => ?_⟩
  · obtain ⟨stepped, -, -⟩ := Machine.Tenancy.move_cases moved
    have alone := runs_alone path id
    constructor
    · intro clean
      have gone := (clean after .refl).1.registration
      exact early_of_failed (fresh.unstarted id) alone stepped gone
    · intro early later more
      exact nothing_of_early (fresh.unstarted id) alone stepped failed early (runs_alone more id)
  · rw [bind_isSome_iff binding]
    constructor
    · intro free stopped returned
      by_contra running
      have held := (fresh.stopped_holds path returned).mpr running
      rw [free] at held
      cases held
    · intro ended
      by_contra taken
      obtain ⟨other, held⟩ := Option.ne_none_iff_exists'.mp taken
      have returned := others other held
      exact (fresh.stopped_holds path returned).mp held (ended other returned)

end

/-! ## A start after a stop -/

/-- Nothing has been started on a new host. -/
theorem fresh_new : Fresh .new where
  unstarted _ := ⟨⟨rfl, rfl, rfl, rfl, rfl, rfl, rfl, rfl⟩, rfl⟩
  free := rfl

/-- The devices of the sample. -/
abbrev sampleStep (world : ServiceHost) (made : Nat × DiscoveryMove) : Option ServiceHost :=
  ServiceHost.step OwnDevice.sampleHost discoveryName (fun _ => OwnDevice.sampleSelf) world made

/-- A service is started and stopped while its listener waits for a datagram; then another one is started
up to its `bind`. -/
def restarting : List (Nat × DiscoveryMove) :=
  List.replicate 13 (0, .start none) ++ [(0, .listen none)] ++ List.replicate 4 (0, .stop) ++
    List.replicate 6 (1, .start none)

/-- What the operating system says then. -/
def addressInUse : String := "Address already in use (os error 98)"

/-- The second service is about to bind, the first one has stopped and has the port. -/
theorem restarting_runs : ∃ before after,
    Machine.run sampleStep (fun _ _ => True) restarting .new = some before ∧
      sampleStep before (1, .start (some addressInUse)) = some after ∧
      (before.states 1).starting = .bindingListener ∧ (before.states 0).stopping = .returned ∧
      before.holder = some 0 ∧ (after.states 1).starting = .returned (.error (.io ⟨addressInUse⟩)) ∧
      (after.states 1).registration.isSome = true := by
  exact ⟨_, _, rfl, rfl, rfl, rfl, rfl, rfl, rfl⟩

/-- The second service cannot bind, and its start fails with the device registered. -/
theorem clean_start_broken :
    (¬∀ (host : DiscoveryHost) (serviceName : String) (selfDevice : Nat → DiscoveredDevice)
      (first before after : ServiceHost) (id : Nat) (fault : Option String) (error : FileDropError),
      Fresh first →
      Machine.Reaches (ServiceHost.step host serviceName selfDevice) (fun _ _ => True) first before →
      ServiceHost.step host serviceName selfDevice before (id, .start fault) = some after →
      (after.states id).starting = .returned (.error error) →
      Nothing (after.states id) ∧ (after.states id).running = (first.states id).running) ∧
    ¬∀ (host : DiscoveryHost) (serviceName : String) (selfDevice : Nat → DiscoveredDevice)
      (first before : ServiceHost) (id stopped : Nat),
      Fresh first →
      Machine.Reaches (ServiceHost.step host serviceName selfDevice) (fun _ _ => True) first before →
      (before.states id).starting = .bindingListener → (before.states stopped).stopping = .returned →
      before.holder ≠ some stopped := by
  obtain ⟨before, after, ran, moved, binding, returned, held, failed, registered⟩ := restarting_runs
  have path := Machine.reaches_of_run ran
  constructor
  · intro always
    have clean := always _ _ _ _ before after 1 _ _ fresh_new path moved failed
    rw [clean.1.registration] at registered
    cases registered
  · intro always
    exact always _ _ _ _ before 1 0 fresh_new path binding returned held

/-- The first service has the port as long as its listener waits, and the second one cannot bind. A start
whose service info cannot be built leaves nothing. -/
theorem clean_start_iff_restarting :
    (∃ before, Machine.run sampleStep (fun _ _ => True) restarting .new = some before ∧
      ¬(sampleStep before (1, .start none)).isSome = true) ∧
    ∃ before after, Machine.run sampleStep (fun _ _ => True) [(0, .start none)] .new = some before ∧
      sampleStep before (0, .start (some "too long")) = some after ∧
      ∀ later, Machine.Reaches sampleStep (fun _ _ => True) after later → Nothing (later.states 0) := by
  constructor
  · obtain ⟨before, after, ran, moved, binding, returned, held, -⟩ := restarting_runs
    have path := Machine.reaches_of_run ran
    have alone : ∀ other, before.holder = some other → (before.states other).stopping = .returned := by
      intro other holds
      rw [held] at holds
      exact Option.some.inj holds ▸ returned
    refine ⟨before, ran, fun binds => ?_⟩
    have ended := ((clean_start_iff fresh_new path 1).2 binding alone).mp binds 0 returned
    exact (fresh_new.stopped_holds path returned).mp held ended
  · obtain ⟨before, after, ran, moved, building, failed⟩ : ∃ before after,
        Machine.run sampleStep (fun _ _ => True) [(0, .start none)] .new = some before ∧
          sampleStep before (0, .start (some "too long")) = some after ∧
          (before.states 0).starting = .building ∧
          (after.states 0).starting =
            .returned (.error (.discovery ("service info build failed: " ++ "too long"))) :=
      ⟨_, _, rfl, rfl, rfl, rfl⟩
    have early : Early (before.states 0).starting := by
      rw [building]
      trivial
    have clean := ((clean_start_iff fresh_new (Machine.reaches_of_run ran) 0).1 _ after _ moved failed).mpr early
    exact ⟨before, after, ran, moved, fun later more => (clean later more).1⟩

end FileDrop.CleanStart
