import FileDrop.Ffi.Api
import FileDrop.Foundation.Interleaving
import FileDrop.Transfer.Status

/-!
# A whole device

The engine that sends, the server that receives and the calls that control transfers, over one
table of session cells. A request's body is streamed in chunks here: each one is read, counted in the
session and handed to the network in a step of its own. How many chunks there are before the response
is the environment's choice, because the network may fail or answer early.
-/
namespace FileDrop

open Effects Effects.Program Unix

/-! ## Operations -/

/-- The operations that the network and the sender's disk answer. -/
inductive NetOp where
  | client (op : ClientOp)
  /-- Connect and send the headers; the result are the chunks that the body will be asked for. -/
  | post (request : SendRequest)
  | handChunk (request : SendRequest) (chunk : Bytes)
  | response (request : SendRequest)

/-- What each operation returns. -/
abbrev NetOp.Result : NetOp → Type
  | .client op => op.Result
  | .post _ => List Bytes
  | .handChunk _ _ => Unit
  | .response _ => Except String Response

/-- The signature of the network. -/
abbrev netSig : Signature := ⟨NetOp, NetOp.Result⟩

/-- The operations of a device. -/
inductive DeviceOp where
  | engine (op : EngineOp)
  | post (request : SendRequest)
  /-- `ProgressReader::poll_read`: read a chunk, count it and hand it over. -/
  | handChunk (request : SendRequest) (chunk : Bytes)
  | response (request : SendRequest)
  | findSession (transferId : Uuid)
  | pause (session : TransferSession)
  | resume (session : TransferSession)
  | cancel (session : TransferSession)
  | progress (session : TransferSession) (status : TransferStatus) (error : Option String)
  | server (op : ServerOp)

/-- What each operation returns. -/
abbrev DeviceOp.Result : DeviceOp → Type
  | .engine op => op.Result
  | .post _ => List Bytes
  | .handChunk _ _ => Unit
  | .response _ => Except String Response
  | .findSession _ => Option TransferSession
  | .pause _ => Unit
  | .resume _ => Unit
  | .cancel _ => Unit
  | .progress .. => TransferProgress
  | .server op => op.Result

/-- The signature of a device. -/
abbrev deviceSig : Signature := ⟨DeviceOp, DeviceOp.Result⟩

/-- What everything on a device shares. -/
structure DeviceWorld (Net : Type) where
  engine : EngineWorld Net
  files : FileStore Path
  /-- `AppState::sessions`. -/
  sessions : Uuid → Option TransferSession

namespace DeviceWorld

variable {Net : Type}

/-- The other end after an operation. -/
def setNet (world : DeviceWorld Net) (net : Net) : DeviceWorld Net :=
  { world with engine := { world.engine with net } }

/-- The cells after an operation. -/
def setCells (world : DeviceWorld Net) (cells : SessionCells) : DeviceWorld Net :=
  { world with engine := { world.engine with cells } }

/-- What the server's handlers see. -/
def server (world : DeviceWorld Net) : ServerWorld := ⟨world.files, world.sessions, world.engine.cells⟩

/-- The world after an operation of a handler. -/
def setServer (world : DeviceWorld Net) (server : ServerWorld) : DeviceWorld Net where
  engine := { world.engine with cells := server.cells }
  files := server.files
  sessions := server.sessions

end DeviceWorld

/-- What the environment decides about one operation. -/
structure DeviceChoice (Choice : Type) where
  id : Uuid
  net : Choice
  fault : Fault

variable {Net Choice : Type}

/-- The network as the engine's operations see it. -/
def clientMeaning (network : Meaning netSig Net Choice) : Meaning clientSig Net Choice :=
  fun net op choice => network net (.client op) choice

/-- Carry out one operation. -/
def deviceExec (network : Meaning netSig Net Choice) :
    Meaning deviceSig (DeviceWorld Net) (DeviceChoice Choice)
  | world, .engine op, choice =>
    (engineExec (clientMeaning network) world.engine op ⟨choice.id, choice.net⟩).map
      fun (result, engine) => (result, { world with engine })
  | world, .post request, choice =>
    (network world.engine.net (.post request) choice.net).map fun (chunks, net) =>
      (chunks, world.setNet net)
  | world, .handChunk request chunk, choice =>
    (network world.engine.net (.handChunk request chunk) choice.net).map fun (_, net) =>
      ((), (world.setNet net).setCells
        (world.engine.cells.addBytes request.session.cell (.ofNat chunk.length)))
  | world, .response request, choice =>
    (network world.engine.net (.response request) choice.net).map fun (reply, net) =>
      (reply, world.setNet net)
  | world, .findSession transferId, _ => some (world.engine.queue.findSession transferId, world)
  | world, .pause session, _ => some ((), world.setCells (world.engine.cells.pause session.cell))
  | world, .resume session, _ => some ((), world.setCells (world.engine.cells.resume session.cell))
  | world, .cancel session, _ => some ((), world.setCells (world.engine.cells.cancel session.cell))
  | world, .progress session status error, _ =>
    some (session.progress world.engine.cells status error, world)
  | world, .server op, choice =>
    (serverExec world.server op choice.fault).map fun (result, server) =>
      (result, world.setServer server)

section

variable {network : Meaning netSig Net Choice} {world after : DeviceWorld Net}
variable {choice : DeviceChoice Choice}

/-- An operation of the engine is the engine's. -/
theorem deviceExec_engine {op : EngineOp} {result : op.Result}
    (ran : deviceExec network world (.engine op) choice = some (result, after)) :
    ∃ engine, engineExec (clientMeaning network) world.engine op ⟨choice.id, choice.net⟩ =
        some (result, engine) ∧ after = { world with engine } := by
  obtain ⟨⟨returned, engine⟩, moved, same⟩ := Option.map_eq_some_iff.mp ran
  obtain ⟨rfl, rfl⟩ := Prod.mk.inj same
  exact ⟨engine, moved, rfl⟩

/-- A request that is posted touches only the network. -/
theorem deviceExec_post {request : SendRequest} {chunks : List Bytes}
    (ran : deviceExec network world (.post request) choice = some (chunks, after)) :
    ∃ net, after = world.setNet net := by
  obtain ⟨⟨returned, net⟩, -, same⟩ := Option.map_eq_some_iff.mp ran
  exact ⟨net, (Prod.mk.inj same).2.symm⟩

/-- A chunk that is handed over is counted in its session. -/
theorem deviceExec_handChunk {request : SendRequest} {chunk : Bytes} {result : Unit}
    (ran : deviceExec network world (.handChunk request chunk) choice = some (result, after)) :
    ∃ net, after = (world.setNet net).setCells
      (world.engine.cells.addBytes request.session.cell (.ofNat chunk.length)) := by
  obtain ⟨⟨returned, net⟩, -, same⟩ := Option.map_eq_some_iff.mp ran
  exact ⟨net, (Prod.mk.inj same).2.symm⟩

/-- A response that is awaited touches only the network. -/
theorem deviceExec_response {request : SendRequest} {reply : Except String Response}
    (ran : deviceExec network world (.response request) choice = some (reply, after)) :
    ∃ net, after = world.setNet net := by
  obtain ⟨⟨returned, net⟩, -, same⟩ := Option.map_eq_some_iff.mp ran
  exact ⟨net, (Prod.mk.inj same).2.symm⟩

/-- An operation of an upload is the server's. -/
theorem deviceExec_server {op : ServerOp} {result : op.Result}
    (ran : deviceExec network world (.server op) choice = some (result, after)) :
    ∃ server, serverExec world.server op choice.fault = some (result, server) ∧
      after = world.setServer server := by
  obtain ⟨⟨returned, server⟩, moved, same⟩ := Option.map_eq_some_iff.mp ran
  obtain ⟨rfl, rfl⟩ := Prod.mk.inj same
  exact ⟨server, moved, rfl⟩

/-- The event that an operation emits, if it emits one. -/
def DeviceOp.emits : DeviceOp → List FileDropEvent
  | .engine (.emit event) => [event]
  | _ => []

/-- Only one operation emits an event. -/
theorem DeviceOp.emits_cases (op : DeviceOp) :
    op.emits = [] ∨ ∃ event, op = .engine (.emit event) := by
  cases op with
  | engine op =>
    cases op with
    | emit event => exact .inr ⟨event, rfl⟩
    | queue | client | newTransferId | spawn | spawned => exact .inl rfl
  | post | handChunk | response | findSession | pause | resume | cancel | progress | server =>
    exact .inl rfl

/-- An operation adds the event it emits. -/
theorem deviceExec_events {op : DeviceOp} {result : op.Result}
    (ran : deviceExec network world op choice = some (result, after)) :
    after.engine.events = world.engine.events ++ op.emits := by
  cases op with
  | engine op =>
    obtain ⟨engine, moved, rfl⟩ := deviceExec_engine ran
    cases op with
    | queue op =>
      obtain ⟨queue, cells, -, rfl⟩ := engineExec_queue moved
      exact (List.append_nil _).symm
    | client op =>
      obtain ⟨net, -, rfl⟩ := engineExec_client moved
      exact (List.append_nil _).symm
    | newTransferId =>
      obtain ⟨-, -, rfl⟩ := engineExec_newTransferId moved
      exact (List.append_nil _).symm
    | spawned id =>
      obtain ⟨-, -, rfl⟩ := engineExec_spawned moved
      exact (List.append_nil _).symm
    | spawn task =>
      obtain ⟨-, rfl⟩ := Prod.mk.inj (Option.some.inj moved)
      exact (List.append_nil _).symm
    | emit event =>
      obtain ⟨-, rfl⟩ := Prod.mk.inj (Option.some.inj moved)
      rfl
  | post =>
    obtain ⟨net, rfl⟩ := deviceExec_post ran
    exact (List.append_nil _).symm
  | handChunk =>
    obtain ⟨net, rfl⟩ := deviceExec_handChunk ran
    exact (List.append_nil _).symm
  | response =>
    obtain ⟨net, rfl⟩ := deviceExec_response ran
    exact (List.append_nil _).symm
  | server =>
    obtain ⟨server, -, rfl⟩ := deviceExec_server ran
    exact (List.append_nil _).symm
  | findSession | pause | resume | cancel | progress =>
    obtain ⟨-, rfl⟩ := Prod.mk.inj (Option.some.inj ran)
    exact (List.append_nil _).symm

/-- What an operation does to the active list, the sessions of the uploads and the cells of both. -/
inductive Touches (before after : DeviceWorld Net) : DeviceOp → Prop where
  /-- Nothing, but for a count of bytes. -/
  | still (op : DeviceOp) (active : after.engine.queue.active = before.engine.queue.active)
      (sessions : after.sessions = before.sessions)
      (cells : SessionCells.Kept before.engine.cells after.engine.cells) : Touches before after op
  | activate (queued : QueuedTransfer) (session : TransferSession)
      (active : after.engine.queue.active = before.engine.queue.active ++ [(queued, session)])
      (named : session.id = queued.id) (cell : session.cell = before.engine.cells.fresh)
      (sessions : after.sessions = before.sessions)
      (cells : after.engine.cells = (before.engine.cells.allocate 0).2) :
      Touches before after (.engine (.queue (.activate queued)))
  | finish (id : Uuid) (fewer : after.engine.queue.active ⊆ before.engine.queue.active)
      (sessions : after.sessions = before.sessions) (cells : after.engine.cells = before.engine.cells) :
      Touches before after (.engine (.queue (.markFinished id)))
  | insert (transferId : Uuid) (fileName : String) (totalBytes initial : UInt64)
      (session : TransferSession) (cell : session.cell = before.engine.cells.fresh)
      (active : after.engine.queue.active = before.engine.queue.active)
      (sessions : after.sessions = Function.update before.sessions transferId (some session))
      (cells : after.engine.cells = (before.engine.cells.allocate initial).2) :
      Touches before after (.server (.insertSession transferId fileName totalBytes initial))
  | remove (transferId : Uuid) (active : after.engine.queue.active = before.engine.queue.active)
      (sessions : after.sessions = Function.update before.sessions transferId none)
      (cells : after.engine.cells = before.engine.cells) :
      Touches before after (.server (.removeSession transferId))
  | pause (session : TransferSession) (active : after.engine.queue.active = before.engine.queue.active)
      (sessions : after.sessions = before.sessions)
      (cells : after.engine.cells = before.engine.cells.pause session.cell) :
      Touches before after (.pause session)
  | resume (session : TransferSession) (active : after.engine.queue.active = before.engine.queue.active)
      (sessions : after.sessions = before.sessions)
      (cells : after.engine.cells = before.engine.cells.resume session.cell) :
      Touches before after (.resume session)
  | cancel (session : TransferSession) (active : after.engine.queue.active = before.engine.queue.active)
      (sessions : after.sessions = before.sessions)
      (cells : after.engine.cells = before.engine.cells.cancel session.cell) :
      Touches before after (.cancel session)

/-- An operation of the engine does nothing else. -/
theorem engineExec_touches {op : EngineOp} {result : op.Result} {engine : EngineWorld Net}
    {choice : EngineChoice Choice} {client : Meaning clientSig Net Choice}
    (ran : engineExec client world.engine op choice = some (result, engine)) :
    Touches world { world with engine } (.engine op) := by
  cases op with
  | queue op =>
    obtain ⟨queue, cells, performed, rfl⟩ := engineExec_queue ran
    cases op with
    | acquirePermit =>
      obtain ⟨-, rfl, rfl⟩ := QueueOp.exec_acquirePermit performed
      exact .still _ rfl rfl (.refl _)
    | activate queued =>
      obtain ⟨-, same⟩ := Prod.mk.inj (Option.some.inj performed)
      obtain ⟨rfl, rfl⟩ := Prod.mk.inj same
      exact .activate queued _ rfl rfl rfl rfl rfl
    | markFinished id =>
      obtain ⟨-, same⟩ := Prod.mk.inj (Option.some.inj performed)
      obtain ⟨rfl, rfl⟩ := Prod.mk.inj same
      exact .finish id (List.filter_subset_self _) rfl rfl
    | enqueue | popPending | releasePermit =>
      obtain ⟨-, same⟩ := Prod.mk.inj (Option.some.inj performed)
      obtain ⟨rfl, rfl⟩ := Prod.mk.inj same
      exact .still _ rfl rfl (.refl _)
  | client op =>
    obtain ⟨net, -, rfl⟩ := engineExec_client ran
    exact .still _ rfl rfl (.refl _)
  | newTransferId =>
    obtain ⟨-, -, rfl⟩ := engineExec_newTransferId ran
    exact .still _ rfl rfl (.refl _)
  | spawned id =>
    obtain ⟨-, -, rfl⟩ := engineExec_spawned ran
    exact .still _ rfl rfl (.refl _)
  | spawn | emit =>
    obtain ⟨-, rfl⟩ := Prod.mk.inj (Option.some.inj ran)
    exact .still _ rfl rfl (.refl _)

/-- Nor does an operation of an upload. -/
theorem serverExec_touches {op : ServerOp} {fault : Fault} {result : op.Result} {server : ServerWorld}
    (ran : serverExec world.server op fault = some (result, server)) :
    Touches world (world.setServer server) (.server op) := by
  cases op with
  | file op =>
    obtain ⟨sessions, cells⟩ := serverExec_file_sessions ran
    have kept : SessionCells.Kept world.engine.cells server.cells := by
      rw [cells]
      exact .refl _
    exact .still _ rfl sessions kept
  | insertSession transferId fileName totalBytes initial =>
    obtain ⟨-, rfl⟩ := Prod.mk.inj (Option.some.inj ran)
    exact .insert transferId fileName totalBytes initial _ rfl rfl rfl rfl
  | removeSession transferId =>
    obtain ⟨-, rfl⟩ := Prod.mk.inj (Option.some.inj ran)
    exact .remove transferId rfl rfl rfl
  | addBytes session n =>
    obtain ⟨-, rfl⟩ := Prod.mk.inj (Option.some.inj ran)
    exact .still _ rfl rfl (SessionCells.kept_addBytes ..)
  | awaitResumed session =>
    obtain ⟨-, rfl⟩ := serverExec_awaitResumed ran
    exact .still _ rfl rfl (.refl _)
  | nextChunk | isCancelled =>
    obtain ⟨-, rfl⟩ := Prod.mk.inj (Option.some.inj ran)
    exact .still _ rfl rfl (.refl _)

/-- Nor does any other. -/
theorem deviceExec_touches {op : DeviceOp} {result : op.Result}
    (ran : deviceExec network world op choice = some (result, after)) : Touches world after op := by
  cases op with
  | engine op =>
    obtain ⟨engine, moved, rfl⟩ := deviceExec_engine ran
    exact engineExec_touches moved
  | server op =>
    obtain ⟨server, performed, rfl⟩ := deviceExec_server ran
    exact serverExec_touches performed
  | post =>
    obtain ⟨net, rfl⟩ := deviceExec_post ran
    exact .still _ rfl rfl (.refl _)
  | handChunk =>
    obtain ⟨net, rfl⟩ := deviceExec_handChunk ran
    exact .still _ rfl rfl (SessionCells.kept_addBytes ..)
  | response =>
    obtain ⟨net, rfl⟩ := deviceExec_response ran
    exact .still _ rfl rfl (.refl _)
  | pause session =>
    obtain ⟨-, rfl⟩ := Prod.mk.inj (Option.some.inj ran)
    exact .pause session rfl rfl rfl
  | resume session =>
    obtain ⟨-, rfl⟩ := Prod.mk.inj (Option.some.inj ran)
    exact .resume session rfl rfl rfl
  | cancel session =>
    obtain ⟨-, rfl⟩ := Prod.mk.inj (Option.some.inj ran)
    exact .cancel session rfl rfl rfl
  | findSession | progress =>
    obtain ⟨-, rfl⟩ := Prod.mk.inj (Option.some.inj ran)
    exact .still _ rfl rfl (.refl _)

end

/-! ## Sending -/

/-- Wait for an operation of the device. -/
def deviceCall (op : DeviceOp) : Program deviceSig op.Result := .perform op .done

/-- Hand over the chunks of a body, one after the other. -/
def handChunks (request : SendRequest) : List Bytes → Program deviceSig Unit
  | [] => .done ()
  | chunk :: rest => .perform (.handChunk request chunk) fun _ => handChunks request rest

/-- `RequestBuilder::send` on a streamed body. -/
def streamRequest (request : SendRequest) : Program deviceSig (Except String Response) :=
  .perform (.post request) fun chunks =>
    (handChunks request chunks).bind fun _ => .perform (.response request) .done

/-- An operation of a call or a task, with the request streamed. -/
def engineStep : (op : EngineOp) → Program deviceSig op.Result
  | .client (.send request) => streamRequest request
  | op => deviceCall (.engine op)

/-- A spawned `run_queued_send`. -/
def sendTask (sha256 : Sha256) (task : SendTask) : Program deviceSig Unit :=
  (runQueuedSend sha256 task).expand engineStep

/-- A call of `send_files`. -/
def sendCall (parse : String → Except String SocketAddr) (given : SendCall) :
    Program deviceSig (Except String (List Uuid)) :=
  (sendFiles parse given).expand engineStep

/-- An upload at this device's server. -/
def receiveUpload (sha256 : Sha256) (paths : StoragePaths) (request : TransferRequest) :
    Program deviceSig (Option Response) :=
  (receiveTransfer sha256 paths request).expand fun op => deviceCall (.server op)

/-! ## Control -/

/-- What a control call returns. -/
abbrev Controlled : Type := Except String (Option TransferProgress)

/-- Look an id up in the queue's active list and go on with its session. -/
def withSession (transferId : Uuid) (missing : String)
    (found : TransferSession → Program deviceSig Controlled) : Program deviceSig Controlled :=
  .perform (.findSession transferId) fun
    | some session => found session
    | none => .done (.error ("transfer " ++ transferId.toText ++ missing))

/-- `api::pause_transfer`. -/
def pauseTransfer (transferId : Uuid) : Program deviceSig Controlled :=
  withSession transferId " not active" fun session =>
    .perform (.pause session) fun _ =>
    .perform (.engine (.emit (.transferPaused transferId))) fun _ => .done (.ok none)

/-- `api::resume_transfer`. -/
def resumeTransfer (transferId : Uuid) : Program deviceSig Controlled :=
  withSession transferId " not active" fun session =>
    .perform (.resume session) fun _ => .done (.ok none)

/-- `api::cancel_transfer`. -/
def cancelTransfer (transferId : Uuid) : Program deviceSig Controlled :=
  withSession transferId " not active" fun session =>
    .perform (.cancel session) fun _ => .done (.ok none)

/-- `api::get_transfer_status`. -/
def getTransferStatus (transferId : Uuid) : Program deviceSig Controlled :=
  withSession transferId " not found" fun session =>
    .perform (.progress session .inProgress none) fun progress => .done (.ok (some progress))

/-- A control call. -/
inductive Control where
  | pause (transferId : Uuid)
  | resume (transferId : Uuid)
  | cancel (transferId : Uuid)
  | status (transferId : Uuid)
  deriving DecidableEq

/-- What a control call does. -/
def Control.program : Control → Program deviceSig Controlled
  | .pause transferId => pauseTransfer transferId
  | .resume transferId => resumeTransfer transferId
  | .cancel transferId => cancelTransfer transferId
  | .status transferId => getTransferStatus transferId

/-! ## Everything at once -/

/-- Who runs on a device: calls of `send_files`, the tasks of their files, control calls and
uploads. -/
inductive Actor (κ χ ρ : Type) where
  | call (n : κ)
  | task (transferId : Uuid)
  | control (n : χ)
  | upload (n : ρ)
  deriving DecidableEq

/-- What an actor returns. -/
inductive Ended where
  | call (result : Except String (List Uuid))
  | task
  | control (result : Controlled)
  | upload (reply : Option Response)

/-- What a device is used for. -/
structure Usage (κ χ ρ : Type) where
  sha256 : Sha256
  paths : StoragePaths
  /-- The parser of socket addresses. -/
  parse : String → Except String SocketAddr
  calls : κ → SendCall
  controls : χ → Control
  uploads : ρ → TransferRequest

/-- The program of an actor; a task waits until it is spawned. -/
def Usage.program {κ χ ρ : Type} (usage : Usage κ χ ρ) : Actor κ χ ρ → Program deviceSig Ended
  | .call n => (sendCall usage.parse (usage.calls n)).bind fun result => .done (.call result)
  | .task transferId => .perform (.engine (.spawned transferId)) fun task =>
    (sendTask usage.sha256 task).bind fun _ => .done .task
  | .control n => (usage.controls n).program.bind fun result => .done (.control result)
  | .upload n =>
    (receiveUpload usage.sha256 usage.paths (usage.uploads n)).bind fun reply => .done (.upload reply)

end FileDrop
