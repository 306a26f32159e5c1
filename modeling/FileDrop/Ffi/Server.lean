import Mathlib.Logic.Function.Basic
import FileDrop.Core.Error
import FileDrop.Foundation.Machine

/-!
# Starting and stopping the server

`start_server` and `stop_server` run beside each other, any number of them at once. A start stores the
sender that its server is told by in `FfiRuntime::server_shutdown`, and then spawns the server; a stop
takes the sender that is there and sends. A sender that is overwritten is dropped, and that wakes the
server it belongs to as well. What the network answers is the environment's choice.
-/
namespace FileDrop

/-- A call of the FFI. -/
inductive ServerCommand where
  | start
  | stop
  deriving DecidableEq

/-- `ResolvedEndpointDto`. -/
structure ResolvedEndpoint where
  address : String
  port : UInt16
  deriving DecidableEq, Repr

/-- Where a call is. -/
inductive ServerStage where
  /-- `engine()` and `pick_server_port`. -/
  | choosing
  /-- `TcpListener::bind(..)` and `local_addr`. -/
  | binding (port : UInt16)
  /-- `*runtime().server_shutdown.lock().await = Some(shutdown_tx)`. -/
  | storing (localAddr : ResolvedEndpoint)
  /-- `tokio::spawn` of the server. -/
  | spawning (localAddr : ResolvedEndpoint)
  /-- `local_ipv4_addresses`. -/
  | answering (localAddr : ResolvedEndpoint)
  /-- `runtime().server_shutdown.lock().await.take()`. -/
  | taking
  | started (result : Except String ResolvedEndpoint)
  | stopped
  deriving DecidableEq

/-- A call that has been issued. -/
structure ServerCall where
  command : ServerCommand
  stage : ServerStage
  deriving DecidableEq

/-- The port that the listener of a start is bound to. -/
def ServerCall.boundPort : ServerCall → Option UInt16
  | ⟨.start, .storing localAddr⟩ | ⟨.start, .spawning localAddr⟩ | ⟨.start, .answering localAddr⟩
  | ⟨.start, .started (.ok localAddr)⟩ => some localAddr.port
  | _ => none

/-- The calls, their servers and `FfiRuntime`. A call is known by how many were issued before it, and a
server and its sender by the call that starts it. -/
structure FfiServer where
  /-- `FfiRuntime::engine` has been set. -/
  engine : Bool
  issued : Nat
  calls : Nat → Option ServerCall
  /-- `FfiRuntime::server_shutdown`. -/
  shutdown : Option Nat
  /-- The servers that have been spawned. -/
  spawned : Nat → Bool
  /-- The servers whose sender was used or dropped. -/
  told : Nat → Bool

/-- What the network answers. -/
structure ServerChoice where
  /-- The ports that can be bound now. -/
  free : List UInt16
  bound : Except String Unit
  /-- The address that the listener got, displayed. -/
  localAddr : Except String ResolvedEndpoint
  /-- The addresses of the interfaces, displayed; none when they cannot be listed. -/
  addresses : List String

/-- One step of somebody. -/
inductive ServerMove where
  | initEngine
  | issue (command : ServerCommand)
  | call (id : Nat) (choice : ServerChoice)

/-- `networking::DEFAULT_PORT`. -/
def defaultPort : UInt16 := 53317

/-- `PORT_SCAN_RANGE`. -/
def portScanRange : List UInt16 := (List.range 34).map fun offset => 53317 + .ofNat offset

/-- `pick_server_port`. -/
def pickServerPort (free : List UInt16) : Except FileDropError UInt16 :=
  match portScanRange.find? (· ∈ free) with
  | some port => .ok port
  | none => .error (.network "no free port found in range 53317-53350")

namespace FfiServer

/-- Nothing has been called. -/
def new : FfiServer where
  engine := false
  issued := 0
  calls _ := none
  shutdown := none
  spawned _ := false
  told _ := false

/-- A call goes on, and nothing else. -/
def goTo (world : FfiServer) (id : Nat) (command : ServerCommand) (stage : ServerStage) : FfiServer :=
  { world with calls := Function.update world.calls id (some ⟨command, stage⟩) }

/-- The servers that are told when the sender in the slot is used or dropped. -/
def toldNow (world : FfiServer) : Nat → Bool :=
  match world.shutdown with
  | some server => Function.update world.told server true
  | none => world.told

/-- One step of `start_server`. -/
def startServer (world : FfiServer) (id : Nat) (stage : ServerStage) (choice : ServerChoice) :
    Option FfiServer :=
  match stage with
  | .choosing =>
    if world.engine then
      match pickServerPort choice.free with
      | .ok port => some (world.goTo id .start (.binding port))
      | .error error => some (world.goTo id .start (.started (.error error.toText)))
    else some (world.goTo id .start
      (.started (.error "engine not initialized; call init_engine first")))
  | .binding _ =>
    match choice.bound, choice.localAddr with
    | .ok (), .ok localAddr => some (world.goTo id .start (.storing localAddr))
    | .error text, _ | .ok (), .error text => some (world.goTo id .start (.started (.error text)))
  | .storing localAddr =>
    some { world with
      calls := Function.update world.calls id (some ⟨.start, .spawning localAddr⟩)
      shutdown := some id, told := world.toldNow }
  | .spawning localAddr =>
    some { world with
      calls := Function.update world.calls id (some ⟨.start, .answering localAddr⟩)
      spawned := Function.update world.spawned id true }
  | .answering localAddr =>
    some (world.goTo id .start (.started (.ok {
      address := choice.addresses.head?.getD localAddr.address
      port := localAddr.port })))
  | .taking | .started _ | .stopped => none

/-- `stop_server`. From taking the sender on it waits for nothing and keeps the mutex locked, so it is
one step. -/
def stopServer (world : FfiServer) (id : Nat) (stage : ServerStage) : Option FfiServer :=
  match stage with
  | .taking =>
    some { world with
      calls := Function.update world.calls id (some ⟨.stop, .stopped⟩)
      shutdown := none, told := world.toldNow }
  | .choosing | .binding _ | .storing _ | .spawning _ | .answering _ | .started _ | .stopped => none

/-- Where a call begins. -/
def firstStage : ServerCommand → ServerStage
  | .start => .choosing
  | .stop => .taking

/-- One step. -/
def step (world : FfiServer) : ServerMove → Option FfiServer
  | .initEngine => some { world with engine := true }
  | .issue command => some { world with
      calls := Function.update world.calls world.issued (some ⟨command, firstStage command⟩)
      issued := world.issued + 1 }
  | .call id choice =>
    match world.calls id with
    | some ⟨.start, stage⟩ => startServer world id stage choice
    | some ⟨.stop, stage⟩ => stopServer world id stage
    | none => none

/-- The port of a server, once its listener is bound. -/
def boundPort (world : FfiServer) (server : Nat) : Option UInt16 :=
  (world.calls server).bind ServerCall.boundPort

/-! ## What a step can do -/

/-- A stage of `start_server` before it has stored its sender, or at which it has returned. -/
def Aside : ServerStage → Prop
  | .choosing | .binding _ | .storing _ | .taking | .started _ => True
  | .spawning _ | .answering _ | .stopped => False

/-- The cases of a step, as far as the calls meet. -/
inductive Steps (before : FfiServer) : ServerMove → FfiServer → Prop where
  | initEngine : Steps before .initEngine { before with engine := true }
  | issue (command : ServerCommand) :
      Steps before (.issue command) { before with
        calls := Function.update before.calls before.issued (some ⟨command, firstStage command⟩)
        issued := before.issued + 1 }
  /-- A start goes on beside the slot. -/
  | start (id : Nat) (stage next : ServerStage) {choice : ServerChoice}
      (now : before.calls id = some ⟨.start, stage⟩) (aside : Aside next) :
      Steps before (.call id choice) (before.goTo id .start next)
  | store (id : Nat) (localAddr : ResolvedEndpoint) {choice : ServerChoice}
      (now : before.calls id = some ⟨.start, .storing localAddr⟩) :
      Steps before (.call id choice) { before with
        calls := Function.update before.calls id (some ⟨.start, .spawning localAddr⟩)
        shutdown := some id, told := before.toldNow }
  | spawn (id : Nat) (localAddr : ResolvedEndpoint) {choice : ServerChoice}
      (now : before.calls id = some ⟨.start, .spawning localAddr⟩) :
      Steps before (.call id choice) { before with
        calls := Function.update before.calls id (some ⟨.start, .answering localAddr⟩)
        spawned := Function.update before.spawned id true }
  | stop (id : Nat) {choice : ServerChoice} (now : before.calls id = some ⟨.stop, .taking⟩) :
      Steps before (.call id choice) { before with
        calls := Function.update before.calls id (some ⟨.stop, .stopped⟩)
        shutdown := none, told := before.toldNow }

/-- It does nothing else. -/
theorem step_cases {before after : FfiServer} {move : ServerMove} (stepped : step before move = some after) :
    Steps before move after := by
  cases move with
  | initEngine =>
    cases stepped
    exact .initEngine
  | issue command =>
    cases stepped
    exact .issue command
  | call id choice =>
    simp only [step] at stepped
    split at stepped
    · rename_i stage now
      cases stage with
      | choosing =>
        simp only [startServer] at stepped
        split at stepped
        · split at stepped
          · cases stepped
            exact .start id _ _ now trivial
          · cases stepped
            exact .start id _ _ now trivial
        · cases stepped
          exact .start id _ _ now trivial
      | binding port =>
        simp only [startServer] at stepped
        split at stepped
        · cases stepped
          exact .start id _ _ now trivial
        · cases stepped
          exact .start id _ _ now trivial
        · cases stepped
          exact .start id _ _ now trivial
      | storing localAddr =>
        cases stepped
        exact .store id localAddr now
      | spawning localAddr =>
        cases stepped
        exact .spawn id localAddr now
      | answering localAddr =>
        cases stepped
        exact .start id _ _ now trivial
      | taking | started | stopped => cases stepped
    · rename_i stage now
      cases stage with
      | taking =>
        cases stepped
        exact .stop id now
      | choosing | binding | storing | spawning | answering | started | stopped => cases stepped
    · cases stepped

end FfiServer

end FileDrop
