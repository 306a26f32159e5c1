import FileDrop.Core.SocketAddr
import FileDrop.Transfer.Client
import FileDrop.Transfer.Queue

/-!
# Sending through the engine

The calls of the FFI that send files, and the task each file gets. Tasks and calls are threads of
their own; they share the queue, the sessions' cells and the event channel. The network is a
parameter: it gives the client's operations their meaning.
-/
namespace FileDrop

open Effects Unix

/-- The events of `events::FileDropEvent` that a transfer emits. -/
inductive FileDropEvent where
  | transferStarted (transferId : Uuid) (fileName : String) (totalBytes : UInt64)
  | transferPaused (transferId : Uuid)
  | transferCompleted (transferId : Uuid) (sha256 : String)
  | transferFailed (transferId : Uuid) (error : String)
  deriving DecidableEq, Repr

/-- What a spawned `run_queued_send` is called with. -/
structure SendTask where
  addr : SocketAddr
  transferId : Uuid
  path : String
  fileName : String
  totalBytes : UInt64
  deriving DecidableEq, Repr

/-- The operations of the engine's calls and tasks. -/
inductive EngineOp where
  | queue (op : QueueOp)
  | client (op : ClientOp)
  /-- `Uuid::new_v4`. -/
  | newTransferId
  /-- `tokio::spawn`. -/
  | spawn (task : SendTask)
  /-- The start of a spawned task. -/
  | spawned (transferId : Uuid)
  | emit (event : FileDropEvent)

/-- What each operation returns. -/
abbrev EngineOp.Result : EngineOp → Type
  | .queue op => op.Result
  | .client op => op.Result
  | .newTransferId => Uuid
  | .spawn _ => Unit
  | .spawned _ => SendTask
  | .emit _ => Unit

/-- The signature of the engine's calls and tasks. -/
abbrev engineSig : Signature := ⟨EngineOp, EngineOp.Result⟩

/-- What calls and tasks share. -/
structure EngineWorld (Net : Type) where
  queue : TransferQueue
  cells : SessionCells
  /-- The ids made so far. -/
  issued : List Uuid
  /-- The tasks spawned so far. -/
  tasks : List SendTask
  /-- The events emitted so far, in order. -/
  events : List FileDropEvent
  /-- The other end, and whatever is in between. -/
  net : Net

/-- An engine that has sent nothing. -/
def EngineWorld.new {Net : Type} (net : Net) : EngineWorld Net := ⟨.new, .none, [], [], [], net⟩

/-- What the environment decides about one operation: the id to make, and the network's choice. -/
structure EngineChoice (Choice : Type) where
  id : Uuid
  net : Choice

/-- Carry out one operation. A task blocks until it is spawned; an id that is made is a new one. -/
def engineExec {Net Choice : Type} (network : Meaning clientSig Net Choice) :
    Meaning engineSig (EngineWorld Net) (EngineChoice Choice)
  | world, .queue op, _ =>
    (op.exec world.queue world.cells).map fun (result, queue, cells) =>
      (result, { world with queue, cells })
  | world, .client op, choice =>
    (network world.net op choice.net).map fun (result, net) => (result, { world with net })
  | world, .newTransferId, choice =>
    if choice.id ∈ world.issued then none
    else some (choice.id, { world with issued := choice.id :: world.issued })
  | world, .spawn task, _ => some ((), { world with tasks := world.tasks ++ [task] })
  | world, .spawned transferId, _ =>
    (world.tasks.find? (·.transferId = transferId)).map fun task => (task, world)
  | world, .emit event, _ => some ((), { world with events := world.events ++ [event] })

section

variable {Net Choice : Type} {network : Meaning clientSig Net Choice} {world after : EngineWorld Net}
variable {choice : EngineChoice Choice}

/-- An operation on the queue touches only the queue and its cells. -/
theorem engineExec_queue {op : QueueOp} {result : op.Result}
    (ran : engineExec network world (.queue op) choice = some (result, after)) :
    ∃ queue cells, op.exec world.queue world.cells = some (result, queue, cells) ∧
      after = { world with queue, cells } := by
  obtain ⟨⟨returned, queue, cells⟩, moved, same⟩ := Option.map_eq_some_iff.mp ran
  obtain ⟨rfl, rfl⟩ := Prod.mk.inj same
  exact ⟨queue, cells, moved, rfl⟩

/-- An operation of the client touches only the network. -/
theorem engineExec_client {op : ClientOp} {result : op.Result}
    (ran : engineExec network world (.client op) choice = some (result, after)) :
    ∃ net, network world.net op choice.net = some (result, net) ∧ after = { world with net } := by
  obtain ⟨⟨returned, net⟩, answered, same⟩ := Option.map_eq_some_iff.mp ran
  obtain ⟨rfl, rfl⟩ := Prod.mk.inj same
  exact ⟨net, answered, rfl⟩

/-- An id that is made is a new one. -/
theorem engineExec_newTransferId {id : Uuid}
    (ran : engineExec network world .newTransferId choice = some (id, after)) :
    id = choice.id ∧ id ∉ world.issued ∧ after = { world with issued := id :: world.issued } := by
  by_cases used : choice.id ∈ world.issued
  · simp [engineExec, used] at ran
  · simp only [engineExec, used, if_false, Option.some.injEq, Prod.mk.injEq] at ran
    obtain ⟨rfl, rfl⟩ := ran
    exact ⟨rfl, used, rfl⟩

/-- A task that starts was spawned under its id. -/
theorem engineExec_spawned {id : Uuid} {task : SendTask}
    (ran : engineExec network world (.spawned id) choice = some (task, after)) :
    task ∈ world.tasks ∧ task.transferId = id ∧ after = world := by
  obtain ⟨listed, search, same⟩ := Option.map_eq_some_iff.mp ran
  obtain ⟨rfl, rfl⟩ := Prod.mk.inj same
  exact ⟨List.mem_of_find?_eq_some search, by simpa using List.find?_some search, rfl⟩

end

/-- Wait for an operation on the queue. -/
def queueCall (op : QueueOp) : Program engineSig op.Result := .perform (.queue op) .done

/-- Wait for an operation of the client. -/
def engineClient (op : ClientOp) : Program engineSig op.Result := .perform (.client op) .done

/-- Emit an event. -/
def emit (event : FileDropEvent) : Program engineSig Unit := .perform (.emit event) .done

/-- The loop of `send_files`. -/
def sendEach (addr : SocketAddr) (peerDeviceId : Uuid) :
    List String → List Uuid → Program engineSig (Except String (List Uuid))
  | [], ids => .done (.ok ids)
  | path :: rest, ids =>
    (engineClient (.metadata path)).attempt
      (fun error => .done (.error ("cannot read " ++ path ++ ": " ++ error.text))) fun totalBytes =>
    let fileName := (pathFileName path).getD "unnamed_file"
    .perform .newTransferId fun transferId =>
    (TransferQueue.enqueue queueCall ⟨transferId, path, fileName, totalBytes, peerDeviceId, .send, .queued⟩).bind
      fun _ =>
    .perform (.spawn ⟨addr, transferId, path, fileName, totalBytes⟩) fun _ =>
      sendEach addr peerDeviceId rest (ids ++ [transferId])

/-- What `send_files` is called with. -/
structure SendCall where
  peerAddress : String
  peerPort : UInt16
  peerDeviceId : Uuid
  filePaths : List String

/-- `api::send_files`, with the parser of socket addresses. -/
def sendFiles (parse : String → Except String SocketAddr) (given : SendCall) :
    Program engineSig (Except String (List Uuid)) :=
  match parse (given.peerAddress ++ ":" ++ toString given.peerPort) with
  | .error error => .done (.error ("invalid peer address: " ++ error))
  | .ok addr => sendEach addr given.peerDeviceId given.filePaths []

/-- `api::send_files` on the engine of the runtime, if there is one, with nothing beside it. -/
def sendFilesAlone {Net Choice : Type} (network : Meaning clientSig Net Choice)
    (parse : String → Except String SocketAddr) (choices : Nat → EngineChoice Choice)
    (engine : Option (EngineWorld Net)) (given : SendCall) :
    Option (Except String (List Uuid) × Option (EngineWorld Net)) :=
  match engine with
  | none => some (.error "engine not initialized; call init_engine first", none)
  | some world =>
    ((sendFiles parse given).solo (engineExec network) choices world).map fun (result, after) =>
      (result, some after)

/-- The address that `send_files` formats and parses. -/
def sendAddr (peerAddress : String) (peerPort : UInt16) : Option Inet.SocketAddr :=
  Inet.SocketAddr.parse (peerAddress ++ ":" ++ toString peerPort)

/-- The parser that `send_files` calls, with the display of the address that it hands on. -/
def parseSocketAddr (display : Inet.SocketAddr → SocketAddr) (text : String) :
    Except String SocketAddr :=
  match Inet.SocketAddr.parse text with
  | some addr => .ok (display addr)
  | none => .error "invalid socket address syntax"

/-- `send_files` sends to the address that it parses, or fails without one. -/
theorem sendFiles_sendAddr (display : Inet.SocketAddr → SocketAddr) (given : SendCall) :
    sendFiles (parseSocketAddr display) given =
      match sendAddr given.peerAddress given.peerPort with
      | some addr => sendEach (display addr) given.peerDeviceId given.filePaths []
      | none => .done (.error "invalid peer address: invalid socket address syntax") := by
  rw [sendFiles, parseSocketAddr, sendAddr]
  cases Inet.SocketAddr.parse (given.peerAddress ++ ":" ++ toString given.peerPort) with
  | none => rfl
  | some addr => rfl

/-- The event that a send ends with. -/
def reportSend (sha256 : Sha256) (task : SendTask) : SendResult → Program engineSig Unit
  | .ok () =>
    (sha256File engineClient sha256 task.path).bind fun digest =>
      emit (.transferCompleted task.transferId (digest.toOption.getD ""))
  | .error error => emit (.transferFailed task.transferId error.toText)

/-- `api::run_queued_send`, once it has a session. -/
def sendWith (sha256 : Sha256) (task : SendTask) (session : TransferSession) :
    Program engineSig Unit :=
  (emit (.transferStarted task.transferId task.fileName task.totalBytes)).bind fun _ =>
  (sendFile engineClient sha256 task.addr task.transferId task.path session .default).bind
    fun result =>
  (reportSend sha256 task result).bind fun _ =>
  (TransferQueue.markFinished queueCall task.transferId).bind fun _ => queueCall .releasePermit

/-- `api::run_queued_send`: what it takes from the queue is only used for its session. -/
def runQueuedSend (sha256 : Sha256) (task : SendTask) : Program engineSig Unit :=
  (TransferQueue.next queueCall).bind fun
    | none => .done ()
    | some (_, session) => sendWith sha256 task session

end FileDrop
