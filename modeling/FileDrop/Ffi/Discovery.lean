import FileDrop.Discovery.Service
import FileDrop.Foundation.Slot

/-!
# Starting and stopping discovery

`start_discovery` and `stop_discovery` run beside each other, any number of them at once. They meet in
`FfiRuntime::discovery`, which a mutex guards: a start locks it to store its service when that has
started, and a stop takes what is there and keeps it locked until the service has stopped. The tasks
that services have left behind go on in between.
-/
namespace FileDrop

/-- A call of the FFI, with the device it is given. -/
inductive DiscoveryCommand where
  | start (selfDevice : DiscoveredDevice)
  | stop
  deriving DecidableEq

/-- Where a call is. -/
inductive DiscoveryStage where
  /-- `DiscoveryService::new`. -/
  | creating
  /-- `service.start(..)`. -/
  | starting
  /-- `*runtime().discovery.lock().await = Some(service)`. -/
  | storing
  /-- The task that emits the events is spawned. -/
  | spawning
  /-- `runtime().discovery.lock().await.take()`. -/
  | taking
  /-- `service.stop()`, with the mutex locked. -/
  | stopping (service : Nat)
  | returned (result : Except String Unit)

/-- A call that has been issued. -/
structure DiscoveryCall where
  command : DiscoveryCommand
  stage : DiscoveryStage

/-- The calls, their services and `FfiRuntime`, as far as they meet. A call is known by how many were
issued before it, and a service by its call. -/
structure FfiDiscovery where
  issued : Nat
  calls : Nat → Option DiscoveryCall
  services : Nat → DiscoveryService
  /-- `FfiRuntime::discovery`. -/
  discovery : Option Nat
  /-- A call holds the guard of the mutex over an `await`. -/
  locked : Bool
  /-- The accesses to the slot, the latest first. No call reads this. -/
  accesses : List (Slot.Access Nat)

/-- One step of somebody. -/
inductive FfiDiscoveryMove where
  | issue (command : DiscoveryCommand)
  /-- A call goes on; a fallible step may fail. -/
  | call (id : Nat) (fault : Option String)
  /-- A task of a service goes on. -/
  | task (service : Nat) (move : DiscoveryMove)
  deriving DecidableEq

namespace FfiDiscovery

/-- Nothing has been called. -/
def new : FfiDiscovery where
  issued := 0
  calls _ := none
  services _ := .new
  discovery := none
  locked := false
  accesses := []

/-- A call goes on, and nothing else. -/
def goTo (world : FfiDiscovery) (id : Nat) (command : DiscoveryCommand) (stage : DiscoveryStage) :
    FfiDiscovery :=
  { world with calls := Function.update world.calls id (some ⟨command, stage⟩) }

/-- A service has made a step. -/
def setService (world : FfiDiscovery) (id : Nat) (service : DiscoveryService) : FfiDiscovery :=
  { world with services := Function.update world.services id service }

/-- Where a call begins. -/
def firstStage : DiscoveryCommand → DiscoveryStage
  | .start _ => .creating
  | .stop => .taking

/-- One step of `start_discovery`. -/
def startDiscovery (host : DiscoveryHost) (world : FfiDiscovery) (id : Nat) (selfDevice : DiscoveredDevice)
    (stage : DiscoveryStage) (fault : Option String) : Option FfiDiscovery :=
  match stage with
  | .creating =>
    match fault with
    | some text => some (world.goTo id (.start selfDevice)
        (.returned (.error (FileDropError.discovery ("mdns daemon init failed: " ++ text)).toText)))
    | none => some (world.goTo id (.start selfDevice) .starting)
  | .starting =>
    match (world.services id).starting with
    | .returned (.ok ()) => some (world.goTo id (.start selfDevice) .storing)
    | .returned (.error error) =>
      some (world.goTo id (.start selfDevice) (.returned (.error error.toText)))
    | _ => (DiscoveryService.startStep host discoveryName selfDevice (world.services id) fault).map
        (world.setService id)
  | .storing =>
    if world.locked then none
    else some { world with
      calls := Function.update world.calls id (some ⟨.start selfDevice, .spawning⟩)
      discovery := some id, accesses := .stored id :: world.accesses }
  | .spawning => some (world.goTo id (.start selfDevice) (.returned (.ok ())))
  | .taking | .stopping _ | .returned _ => none

/-- One step of `stop_discovery`. -/
def stopDiscovery (world : FfiDiscovery) (id : Nat) (stage : DiscoveryStage) : Option FfiDiscovery :=
  match stage with
  | .taking =>
    if world.locked then none
    else match world.discovery with
      | none => some { world with
          calls := Function.update world.calls id (some ⟨.stop, .returned (.ok ())⟩)
          accesses := .taken :: world.accesses }
      | some service => some { world with
          calls := Function.update world.calls id (some ⟨.stop, .stopping service⟩)
          discovery := none, locked := true, accesses := .taken :: world.accesses }
  | .stopping service =>
    match (world.services service).stopping with
    | .returned => some { world with
        calls := Function.update world.calls id (some ⟨.stop, .returned (.ok ())⟩)
        locked := false }
    | _ => (DiscoveryService.stopStep (world.services service)).map (world.setService service)
  | .creating | .starting | .storing | .spawning | .returned _ => none

/-- A move that is a task's, and not one of the calls `start` and `stop` of the service. -/
def ofTask : DiscoveryMove → Bool
  | .start _ | .stop => false
  | .browse .. | .forwardMdns _ | .announce _ | .listen _ | .forwardUdp _ => true

/-- The device that a call was given. -/
def deviceOf (call : DiscoveryCall) : Option DiscoveredDevice :=
  match call.command with
  | .start selfDevice => some selfDevice
  | .stop => none

/-- One step. -/
def step (host : DiscoveryHost) (world : FfiDiscovery) : FfiDiscoveryMove → Option FfiDiscovery
  | .issue command => some { world with
      calls := Function.update world.calls world.issued (some ⟨command, firstStage command⟩)
      issued := world.issued + 1 }
  | .call id fault =>
    match world.calls id with
    | some ⟨.start selfDevice, stage⟩ => startDiscovery host world id selfDevice stage fault
    | some ⟨.stop, stage⟩ => stopDiscovery world id stage
    | none => none
  | .task id move =>
    match (world.calls id).bind deviceOf with
    | some selfDevice =>
      if ofTask move then
        (DiscoveryService.step host discoveryName selfDevice (world.services id) move).map
          (world.setService id)
      else none
    | none => none

/-! ## What a step can do -/

/-- The cases of a step, as far as the calls meet. -/
inductive Steps (before : FfiDiscovery) : FfiDiscoveryMove → FfiDiscovery → Prop where
  | issue (command : DiscoveryCommand) :
      Steps before (.issue command) { before with
        calls := Function.update before.calls before.issued (some ⟨command, firstStage command⟩)
        issued := before.issued + 1 }
  /-- A start goes on before it has stored its service, or fails. -/
  | start {fault : Option String} (id : Nat) (selfDevice : DiscoveredDevice) (stage next : DiscoveryStage)
      (now : before.calls id = some ⟨.start selfDevice, stage⟩)
      (kind : stage = .creating ∧ (next = .starting ∨ ∃ text, next = .returned (.error text)) ∨
        stage = .starting ∧ (next = .storing ∧ (before.services id).starting = .returned (.ok ()) ∨
          ∃ text, next = .returned (.error text))) :
      Steps before (.call id fault) (before.goTo id (.start selfDevice) next)
  | store {fault : Option String} (id : Nat) (selfDevice : DiscoveredDevice)
      (now : before.calls id = some ⟨.start selfDevice, .storing⟩) (free : before.locked = false) :
      Steps before (.call id fault) { before with
        calls := Function.update before.calls id (some ⟨.start selfDevice, .spawning⟩)
        discovery := some id, accesses := .stored id :: before.accesses }
  | spawn {fault : Option String} (id : Nat) (selfDevice : DiscoveredDevice)
      (now : before.calls id = some ⟨.start selfDevice, .spawning⟩) :
      Steps before (.call id fault) (before.goTo id (.start selfDevice) (.returned (.ok ())))
  | takeNone {fault : Option String} (id : Nat) (now : before.calls id = some ⟨.stop, .taking⟩)
      (free : before.locked = false) (empty : before.discovery = none) :
      Steps before (.call id fault) { before with
        calls := Function.update before.calls id (some ⟨.stop, .returned (.ok ())⟩)
        accesses := .taken :: before.accesses }
  | take {fault : Option String} (id service : Nat) (now : before.calls id = some ⟨.stop, .taking⟩)
      (free : before.locked = false) (there : before.discovery = some service) :
      Steps before (.call id fault) { before with
        calls := Function.update before.calls id (some ⟨.stop, .stopping service⟩)
        discovery := none, locked := true, accesses := .taken :: before.accesses }
  | release {fault : Option String} (id service : Nat)
      (now : before.calls id = some ⟨.stop, .stopping service⟩)
      (finished : (before.services service).stopping = .returned) :
      Steps before (.call id fault) { before with
        calls := Function.update before.calls id (some ⟨.stop, .returned (.ok ())⟩)
        locked := false }
  /-- `start` of a service goes on in its call. -/
  | serviceStart {fault : Option String} (id : Nat) (selfDevice : DiscoveredDevice)
      (service : DiscoveryService)
      (now : before.calls id = some ⟨.start selfDevice, .starting⟩)
      (same : service.stopping = (before.services id).stopping) :
      Steps before (.call id fault) (before.setService id service)
  /-- `stop` of a service goes on in the call that took it. -/
  | serviceStop {fault : Option String} (id stopped : Nat) (service : DiscoveryService)
      (now : before.calls id = some ⟨.stop, .stopping stopped⟩)
      (same : service.starting = (before.services stopped).starting) :
      Steps before (.call id fault) (before.setService stopped service)
  /-- A task of a service goes on. -/
  | task (id : Nat) {move : DiscoveryMove} (service : DiscoveryService)
      (start : service.starting = (before.services id).starting)
      (stop : service.stopping = (before.services id).stopping) :
      Steps before (.task id move) (before.setService id service)

/-- `start` leaves alone where `stop` is. -/
theorem startStep_stopping {host : DiscoveryHost} {serviceName : String} {selfDevice : DiscoveredDevice}
    {fault : Option String} {before after : DiscoveryService}
    (stepped : DiscoveryService.startStep host serviceName selfDevice before fault = some after) :
    after.stopping = before.stopping := by
  cases DiscoveryService.startStep_cases stepped with
  | call | build | register | browse | forwardMdns | flag | socket | announce | listen | forwardUdp
  | fail => rfl

/-- A task leaves alone where the calls are. -/
theorem taskStep_beside {host : DiscoveryHost} {serviceName : String} {selfDevice : DiscoveredDevice}
    {move : DiscoveryMove} {before after : DiscoveryService} (task : ofTask move = true)
    (stepped : DiscoveryService.step host serviceName selfDevice before move = some after) :
    after.starting = before.starting ∧ after.stopping = before.stopping := by
  rcases DiscoveryService.step_beside stepped with ⟨fault, rfl⟩ | rfl | ⟨_, _, _, _, _, _, _, rfl, -⟩
  · cases task
  · cases task
  · exact ⟨rfl, rfl⟩

/-- What `start_discovery` can do. -/
theorem startDiscovery_cases {host : DiscoveryHost} {before after : FfiDiscovery} {id : Nat}
    {selfDevice : DiscoveredDevice} {stage : DiscoveryStage} {fault : Option String}
    (now : before.calls id = some ⟨.start selfDevice, stage⟩)
    (stepped : startDiscovery host before id selfDevice stage fault = some after) :
    Steps before (.call id fault) after := by
  cases stage with
  | creating =>
    cases fault with
    | some text =>
      cases stepped
      exact .start id selfDevice _ _ now (.inl ⟨rfl, .inr ⟨_, rfl⟩⟩)
    | none =>
      cases stepped
      exact .start id selfDevice _ _ now (.inl ⟨rfl, .inl rfl⟩)
  | starting =>
    simp only [startDiscovery] at stepped
    split at stepped
    · rename_i started
      cases stepped
      exact .start id selfDevice _ _ now (.inr ⟨rfl, .inl ⟨rfl, started⟩⟩)
    · cases stepped
      exact .start id selfDevice _ _ now (.inr ⟨rfl, .inr ⟨_, rfl⟩⟩)
    · obtain ⟨service, moved, rfl⟩ := Option.map_eq_some_iff.mp stepped
      exact .serviceStart id selfDevice service now (startStep_stopping moved)
  | storing =>
    simp only [startDiscovery] at stepped
    split at stepped
    · cases stepped
    · rename_i free
      cases stepped
      exact .store id selfDevice now (Bool.eq_false_of_not_eq_true free)
  | spawning =>
    cases stepped
    exact .spawn id selfDevice now
  | taking | stopping | returned => cases stepped

/-- What `stop_discovery` can do. -/
theorem stopDiscovery_cases {before after : FfiDiscovery} {id : Nat} {stage : DiscoveryStage}
    {fault : Option String} (now : before.calls id = some ⟨.stop, stage⟩)
    (stepped : stopDiscovery before id stage = some after) : Steps before (.call id fault) after := by
  cases stage with
  | taking =>
    simp only [stopDiscovery] at stepped
    split at stepped
    · cases stepped
    · rename_i free
      have free := Bool.eq_false_of_not_eq_true free
      split at stepped
      · rename_i empty
        cases stepped
        exact .takeNone id now free empty
      · rename_i service there
        cases stepped
        exact .take id service now free there
  | stopping service =>
    simp only [stopDiscovery] at stepped
    split at stepped
    · rename_i finished
      cases stepped
      exact .release id service now finished
    · obtain ⟨next, moved, rfl⟩ := Option.map_eq_some_iff.mp stepped
      obtain ⟨browsing, running, stopping, rfl⟩ := DiscoveryService.stopStep_cases moved
      exact .serviceStop id service _ now rfl
  | creating | starting | storing | spawning | returned => cases stepped

/-- A step does nothing else. -/
theorem step_cases {host : DiscoveryHost} {before after : FfiDiscovery} {move : FfiDiscoveryMove}
    (stepped : step host before move = some after) : Steps before move after := by
  cases move with
  | issue command =>
    cases stepped
    exact .issue command
  | call id fault =>
    simp only [step] at stepped
    split at stepped
    · rename_i selfDevice stage now
      exact startDiscovery_cases now stepped
    · rename_i stage now
      exact stopDiscovery_cases now stepped
    · cases stepped
  | task id move =>
    simp only [step] at stepped
    split at stepped
    · split at stepped
      · rename_i task
        obtain ⟨service, moved, rfl⟩ := Option.map_eq_some_iff.mp stepped
        obtain ⟨start, stop⟩ := taskStep_beside task moved
        exact .task id service start stop
      · cases stepped
    · cases stepped

end FfiDiscovery

end FileDrop
