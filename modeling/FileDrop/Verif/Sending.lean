import FileDrop.Ffi.Device
import FileDrop.Foundation.Dispatch

/-!
# Sends as a work queue

The calls of `send_files` are producers and their tasks are workers of a work queue: every step of a
device is a step of it, or does not concern it. A task takes whatever entry is first, goes on with
its own id, and hands over chunks and announces a completion under that id only.
-/
namespace FileDrop.Sending
open FileDrop Effects Effects.Program Unix

/-! ## A device that is watched -/

/-- A device, with a record of what its queue was used for and of what left it. -/
structure Tracked (κ Net : Type) where
  device : DeviceWorld Net
  /-- Which call made an id. -/
  owner : Uuid → Option κ
  /-- The entries enqueued so far, in order. -/
  enqueued : List QueuedTransfer
  /-- The tasks that have taken an entry, in order, with that entry. -/
  popped : List (Uuid × QueuedTransfer)
  /-- The chunks handed to the network so far, with the id they were handed over for. -/
  handed : List (Uuid × Bytes)

variable {κ χ ρ Net Choice : Type}

/-- Record one operation. -/
def Tracked.note (seen : Tracked κ Net) : Actor κ χ ρ → (op : DeviceOp) → op.Result → Tracked κ Net
  | .call n, .engine .newTransferId, id =>
    { seen with owner := Function.update seen.owner id (some n) }
  | _, .engine (.queue (.enqueue transfer)), _ =>
    { seen with enqueued := seen.enqueued ++ [transfer] }
  | .task id, .engine (.queue .popPending), some entry =>
    { seen with popped := seen.popped ++ [(id, entry)] }
  | _, .handChunk request chunk, _ =>
    { seen with handed := seen.handed ++ [(request.transferId, chunk)] }
  | _, _, _ => seen

/-- Carry out one operation and record it. -/
def track (network : Meaning netSig Net Choice) (i : Actor κ χ ρ) :
    Meaning deviceSig (Tracked κ Net) (DeviceChoice Choice) := fun seen op choice =>
  (deviceExec network seen.device op choice).map fun (result, device) =>
    (result, { seen with device }.note i op result)

/-- The actors of a device, over a world. -/
abbrev Running (κ χ ρ Net : Type) : Type := Pool (Actor κ χ ρ) deviceSig (Tracked κ Net) Ended

/-- A device that has done nothing yet. -/
def start (usage : Usage κ χ ρ) (net : Net) (files : FileStore Path) : Running κ χ ρ Net where
  world := ⟨⟨.new net, files, fun _ => none⟩, fun _ => none, [], [], []⟩
  threads := usage.program

/-! ## The work queue behind it -/

/-- What a call is about to do. -/
def dutyOf {α : Type} : Program deviceSig α → Dispatch.Duty Uuid
  | .perform (.engine (.queue (.enqueue transfer))) _ => .minted transfer.id
  | .perform (.engine (.spawn task)) _ => .queued task.transferId
  | _ => .idle

/-- How far a task is. -/
def stageOf {α : Type} : Program deviceSig α → Dispatch.Stage Uuid
  | .done _ => .returned
  | .perform (.engine (.spawned _)) _ => .waiting
  | .perform (.engine (.queue .acquirePermit)) _ => .waiting
  | .perform (.engine (.queue .popPending)) _ => .permitted
  | .perform (.engine (.queue (.activate queued))) _ => .taken queued.id
  | .perform (.engine (.queue .releasePermit)) _ => .finished
  | .perform _ _ => .working

/-- The work queue of a world, with the duties of the calls and the stages of the tasks. -/
def ledger (seen : Tracked κ Net) (duty : κ → Dispatch.Duty Uuid)
    (stage : Uuid → Dispatch.Stage Uuid) : Dispatch.State κ Uuid QueuedTransfer where
  issued := seen.device.engine.issued
  owner := seen.owner
  duty := duty
  enqueued := seen.enqueued
  pending := seen.device.engine.queue.pending
  spawned := seen.device.engine.tasks.map (·.transferId)
  popped := seen.popped
  active := seen.device.engine.queue.active.map (·.1.id)
  permits := seen.device.engine.queue.permits
  stage := stage

/-- The work queue of a device. -/
def view (pool : Running κ χ ρ Net) : Dispatch.State κ Uuid QueuedTransfer :=
  ledger pool.world (fun n => dutyOf (pool.threads (.call n)))
    fun id => stageOf (pool.threads (.task id))

/-! ## What tasks do -/

/-- The last operations of a task, once its send has failed or its completion is announced. -/
def windingOp : DeviceOp → Bool
  | .engine (.emit (.transferFailed ..)) | .engine (.queue (.markFinished _))
  | .engine (.queue .releasePermit) => true
  | _ => false

/-- A task is winding up: its send has failed, or its completion is announced. -/
def winding {α : Type} : Program deviceSig α → Bool
  | .done _ => true
  | .perform op _ => windingOp op

/-- What a task does for an id it does for its own. -/
def ownOp (id : Uuid) : DeviceOp → Prop
  | .handChunk request _ => request.transferId = id
  | .engine (.emit (.transferCompleted other _)) => other = id
  | .engine (.queue (.markFinished other)) => other = id
  | _ => True

/-- The stage that an operation of a task leads to. -/
def Leads : (op : DeviceOp) → op.Result → Dispatch.Stage Uuid → Prop
  | .engine (.queue .acquirePermit), _, stage => stage = .permitted
  | .engine (.queue .popPending), some entry, stage => stage = .taken entry.id
  | .engine (.queue .popPending), none, stage => stage = .finished
  | .engine (.queue (.activate _)), _, stage => stage = .working
  | .engine (.queue (.markFinished _)), _, stage => stage = .finished
  | .engine (.queue .releasePermit), _, stage => stage = .returned
  | .engine (.client _), _, stage | .engine (.emit _), _, stage | .post _, _, stage
  | .handChunk .., _, stage | .response _, _, stage => stage = .working
  | _, _, _ => False

/-- What holds of a task at every operation. -/
def TaskStep {α : Type} (id : Uuid) : Program deviceSig α → Prop
  | .done _ => True
  | .perform op next => ownOp id op ∧ (∀ result, Leads op result (stageOf (next result))) ∧
    (windingOp op → ∀ result, winding (next result))

/-- The operations of a task while it works. -/
def workOp (id : Uuid) : DeviceOp → Bool
  | .engine (.client _) | .engine (.emit (.transferStarted ..)) | .post _ | .response _ => true
  | .handChunk request _ => request.transferId = id
  | _ => false

/-- A task at work. -/
structure Works {α : Type} (id : Uuid) (program : Program deviceSig α) : Prop where
  always : program.Always (TaskStep id)
  stage : stageOf program = .working

section

variable {α β : Type} {id : Uuid}

/-- An operation of a task at work. -/
theorem works_perform {op : DeviceOp} {next : op.Result → Program deviceSig α} (work : workOp id op)
    (later : ∀ result, Works id (next result)) : Works id (.perform op next) := by
  have always := fun result => (later result).always
  have stages := fun result => (later result).stage
  cases op with
  | engine op =>
    cases op with
    | client op => exact ⟨⟨⟨trivial, stages, nofun⟩, always⟩, rfl⟩
    | emit event =>
      cases event with
      | transferStarted => exact ⟨⟨⟨trivial, stages, nofun⟩, always⟩, rfl⟩
      | transferPaused | transferCompleted | transferFailed => cases work
    | queue | newTransferId | spawn | spawned => cases work
  | handChunk request chunk =>
    have mine : request.transferId = id := of_decide_eq_true work
    exact ⟨⟨⟨mine, stages, nofun⟩, always⟩, rfl⟩
  | post | response => exact ⟨⟨⟨trivial, stages, nofun⟩, always⟩, rfl⟩
  | findSession | pause | resume | cancel | progress | server => cases work

/-- A part of a task at work. -/
theorem works_bind {program : Program deviceSig α} {rest : α → Program deviceSig β}
    (only : program.Only (workOp id)) (later : ∀ value, Works id (rest value)) :
    Works id (program.bind rest) := by
  induction program with
  | done value => exact later value
  | perform op next ih => exact works_perform only.1 fun result => ih result (only.2 result)

/-- The chunks of a body are handed over for the request's id. -/
theorem handChunks_only {request : SendRequest} (mine : request.transferId = id)
    (chunks : List Bytes) : (handChunks request chunks).Only (workOp id) := by
  induction chunks with
  | nil => trivial
  | cons chunk rest ih => exact ⟨decide_eq_true mine, fun _ => ih⟩

/-- The operations of the client that work for an id. -/
def clientFor (id : Uuid) : EngineOp → Bool
  | .client (.send request) => request.transferId = id
  | .client _ => true
  | _ => false

/-- Operations of the client are work. -/
theorem engineStep_only (op : EngineOp) (mine : clientFor id op) :
    (engineStep op).Only (workOp id) := by
  cases op with
  | client op =>
    cases op with
    | send request =>
      refine ⟨rfl, fun chunks => ?_⟩
      exact (handChunks_only (of_decide_eq_true mine) chunks).bind fun _ => ⟨rfl, fun _ => trivial⟩
    | metadata | readFile | openFile | seek => exact ⟨rfl, fun _ => trivial⟩
  | queue | newTransferId | spawn | spawned | emit => cases mine

end

section

variable {sha256 : Sha256} {task : SendTask}

/-- The end of a task. -/
def taskEnd (id : Uuid) : Program deviceSig Ended :=
  .perform (.engine (.queue (.markFinished id))) fun _ =>
  .perform (.engine (.queue .releasePermit)) fun _ => .done .task

/-- A task at its end. -/
theorem works_end (id : Uuid) : Works id (taskEnd id) :=
  ⟨⟨⟨rfl, fun _ => rfl, fun _ _ => rfl⟩, fun _ => ⟨⟨trivial, fun _ => rfl, fun _ _ => rfl⟩,
    fun _ => trivial⟩⟩, rfl⟩

/-- The announcement of a result. -/
theorem works_report (result : SendResult) :
    Works task.transferId (((reportSend sha256 task result).expand engineStep).bind fun _ =>
      taskEnd task.transferId) := by
  have ends := works_end task.transferId
  cases result with
  | error error =>
    exact ⟨⟨⟨trivial, fun _ => ends.stage, fun _ _ => rfl⟩, fun _ => ends.always⟩, rfl⟩
  | ok done =>
    have reads : (engineClient (.readFile task.path)).Only (clientFor task.transferId) :=
      ⟨rfl, fun _ => trivial⟩
    have hashes := (sha256File_only reads sha256).expand engineStep_only
    unfold reportSend
    rw [expand_bind, bind_assoc]
    refine works_bind hashes fun digest => ?_
    exact ⟨⟨⟨rfl, fun _ => ends.stage, nofun⟩, fun _ => ends.always⟩, rfl⟩

/-- A task that has its session. -/
theorem works_send (session : TransferSession) :
    Works task.transferId (((sendWith sha256 task session).expand engineStep).bind fun _ =>
      done Ended.task) := by
  have calls (op : ClientOp) (mine : ∀ request, op = .send request →
      request.transferId = task.transferId) :
      (engineClient op).Only (clientFor task.transferId) := by
    refine ⟨?_, fun _ => trivial⟩
    cases op with
    | send request => exact decide_eq_true (mine request rfl)
    | metadata | readFile | openFile | seek => rfl
  have sends := (sendFile_only calls sha256 task.addr task.path session .default).expand
    engineStep_only
  refine works_perform rfl fun _ => ?_
  show Works task.transferId ((expand engineStep ((sendFile engineClient sha256 task.addr
    task.transferId task.path session .default).bind fun result =>
      (reportSend sha256 task result).bind fun _ =>
      (TransferQueue.markFinished queueCall task.transferId).bind fun _ =>
        queueCall .releasePermit)).bind fun _ => done Ended.task)
  rw [expand_bind, bind_assoc]
  refine works_bind sends fun result => ?_
  rw [expand_bind, bind_assoc]
  exact works_report result

/-- A spawned task keeps to its own id, from its first operation on. -/
theorem task_always :
    ((sendTask sha256 task).bind fun _ => done Ended.task).Always (TaskStep task.transferId) := by
  refine ⟨⟨trivial, fun _ => rfl, nofun⟩, fun _ => ?_⟩
  refine ⟨⟨trivial, fun found => ?_, nofun⟩, fun found => ?_⟩
  · cases found with
    | none => rfl
    | some entry => rfl
  · cases found with
    | none => exact ⟨⟨trivial, fun _ => rfl, fun _ _ => rfl⟩, fun _ => trivial⟩
    | some entry =>
      exact ⟨⟨trivial, fun session => (works_send session).stage, nofun⟩,
        fun session => (works_send session).always⟩

end

/-! ## What the others do -/

/-- The duty that an operation of a call leads to. -/
def CallLeads : (op : DeviceOp) → op.Result → Dispatch.Duty Uuid → Prop
  | .engine (.client _), _, duty => duty = .idle
  | .engine .newTransferId, id, duty => duty = .minted id
  | .engine (.queue (.enqueue transfer)), _, duty => duty = .queued transfer.id
  | .engine (.spawn _), _, duty => duty = .idle
  | _, _, _ => False

/-- What holds of a call at every operation. -/
def CallStep {α : Type} : Program deviceSig α → Prop
  | .done _ => True
  | .perform op next => ∀ result, CallLeads op result (dutyOf (next result))

/-- The loop of a call: an id, its entry and its task for each path. -/
theorem sendEach_always {addr : SocketAddr} {peerDeviceId : Uuid} {paths : List String}
    {ids : List Uuid} :
    (((sendEach addr peerDeviceId paths ids).expand engineStep).bind fun result =>
        done (Ended.call result)).Always CallStep ∧
      dutyOf (((sendEach addr peerDeviceId paths ids).expand engineStep).bind fun result =>
        done (Ended.call result)) = .idle := by
  induction paths generalizing ids with
  | nil => exact ⟨trivial, rfl⟩
  | cons path rest ih =>
    refine ⟨⟨fun found => ?_, fun found => ?_⟩, rfl⟩
    · cases found with
      | error error => rfl
      | ok totalBytes => rfl
    · cases found with
      | error error => trivial
      | ok totalBytes =>
        refine ⟨fun id => rfl, fun id => ⟨fun _ => rfl, fun _ => ⟨fun _ => ?_, fun _ => ?_⟩⟩⟩
        · exact ih.2
        · exact ih.1

/-- A call mints an id, enqueues an entry for it and spawns a task for it, one after the other. -/
theorem call_always {parse : String → Except String SocketAddr} {given : SendCall} :
    ((sendCall parse given).bind fun result => done (Ended.call result)).Always CallStep := by
  unfold sendCall sendFiles
  split
  · trivial
  · exact sendEach_always.1

/-- The operations of a control call. -/
def controlOp : DeviceOp → Bool
  | .findSession _ | .pause _ | .resume _ | .cancel _ | .progress .. => true
  | .engine (.emit (.transferPaused _)) => true
  | _ => false

/-- A lookup, and what follows it. -/
theorem withSession_only {transferId : Uuid} {missing : String}
    {found : TransferSession → Program deviceSig Controlled}
    (later : ∀ session, (found session).Only controlOp) :
    (withSession transferId missing found).Only controlOp := by
  refine ⟨rfl, fun session => ?_⟩
  cases session with
  | none => trivial
  | some session => exact later session

/-- A control call looks an id up and works on the session it finds. -/
theorem control_only (control : Control) : control.program.Only controlOp := by
  cases control with
  | pause transferId =>
    exact withSession_only fun session => ⟨rfl, fun _ => ⟨rfl, fun _ => trivial⟩⟩
  | resume transferId => exact withSession_only fun session => ⟨rfl, fun _ => trivial⟩
  | cancel transferId => exact withSession_only fun session => ⟨rfl, fun _ => trivial⟩
  | status transferId => exact withSession_only fun session => ⟨rfl, fun _ => trivial⟩

/-- The operations of an upload. -/
def serverOp : DeviceOp → Bool
  | .server _ => true
  | _ => false

/-- An upload waits for operations of the server only. -/
theorem upload_only (sha256 : Sha256) (paths : StoragePaths) (request : TransferRequest) :
    (receiveUpload sha256 paths request).Only serverOp := by
  have steps (op : ServerOp) : (deviceCall (.server op)).Only serverOp := ⟨rfl, fun _ => trivial⟩
  exact expand_only steps _

/-! ## Every step is a step of the work queue -/

/-- What holds of the actors at any time. -/
structure Fit (usage : Usage κ χ ρ) (pool : Running κ χ ρ Net) : Prop where
  calls : ∀ n, (pool.threads (.call n)).Always CallStep
  /-- A task is not spawned yet, or keeps to its own id. -/
  tasks : ∀ id, pool.threads (.task id) = usage.program (.task id) ∨
    (pool.threads (.task id)).Always (TaskStep id) ∧ id ∈ (view pool).spawned
  controls : ∀ n, (pool.threads (.control n)).Only controlOp
  uploads : ∀ n, (pool.threads (.upload n)).Only serverOp

/-- At the start the actors fit. -/
theorem fit_start (usage : Usage κ χ ρ) (net : Net) (files : FileStore Path) :
    Fit usage (start usage net files) where
  calls _ := call_always
  tasks _ := .inl rfl
  controls n := (control_only (usage.controls n)).bind fun _ => trivial
  uploads n := (upload_only usage.sha256 usage.paths (usage.uploads n)).bind fun _ => trivial

/-- At the start the work queue is a new one. -/
theorem view_start (usage : Usage κ χ ρ) (net : Net) (files : FileStore Path) :
    view (start usage net files) = .new κ Uuid QueuedTransfer maxParallelTransfers := by
  have duties : (fun n => dutyOf (usage.program (.call n))) = fun _ => .idle := by
    funext n
    show dutyOf ((sendCall usage.parse (usage.calls n)).bind fun result => done (Ended.call result)) =
      .idle
    unfold sendCall sendFiles
    split
    · rfl
    · exact sendEach_always.2
  unfold view start
  rw [duties]
  rfl

/-- Operations that do not concern the work queue. -/
def besideQueue : DeviceOp → Bool
  | .engine (.queue _) | .engine .newTransferId | .engine (.spawn _) => false
  | _ => true

section

variable {network : Meaning netSig Net Choice} {i : Actor κ χ ρ} {seen after : Tracked κ Net}
variable {choice : DeviceChoice Choice} {duty : κ → Dispatch.Duty Uuid}
variable {stage : Uuid → Dispatch.Stage Uuid}

/-- The device moves, and the record with it. -/
theorem track_cases {op : DeviceOp} {result : op.Result}
    (ran : track network i seen op choice = some (result, after)) :
    ∃ device, deviceExec network seen.device op choice = some (result, device) ∧
      after = { seen with device }.note i op result := by
  obtain ⟨⟨outcome, device⟩, stepped, same⟩ := Option.map_eq_some_iff.mp ran
  obtain ⟨rfl, rfl⟩ := Prod.mk.inj same
  exact ⟨device, stepped, rfl⟩

/-- What is recorded is beside the device. -/
theorem track_device {op : DeviceOp} {result : op.Result}
    (ran : track network i seen op choice = some (result, after)) :
    deviceExec network seen.device op choice = some (result, after.device) := by
  obtain ⟨device, stepped, rfl⟩ := track_cases ran
  have beside (it : Tracked κ Net) : (it.note i op result).device = it.device := by
    unfold Tracked.note
    split <;> rfl
  rw [beside]
  exact stepped

/-- An operation beside the queue leaves it as it is. -/
theorem ledger_beside {op : DeviceOp} (beside : besideQueue op) {result : op.Result}
    (ran : track network i seen op choice = some (result, after)) :
    ledger after duty stage = ledger seen duty stage := by
  obtain ⟨device, stepped, rfl⟩ := track_cases ran
  cases op with
  | engine op =>
    obtain ⟨engine, moved, rfl⟩ := deviceExec_engine stepped
    cases op with
    | queue | newTransferId | spawn => cases beside
    | client op =>
      obtain ⟨net, -, rfl⟩ := engineExec_client moved
      cases i <;> rfl
    | spawned id =>
      obtain ⟨-, -, rfl⟩ := engineExec_spawned moved
      cases i <;> rfl
    | emit event =>
      obtain ⟨-, rfl⟩ := Prod.mk.inj (Option.some.inj moved)
      cases i <;> rfl
  | post =>
    obtain ⟨net, rfl⟩ := deviceExec_post stepped
    cases i <;> rfl
  | handChunk =>
    obtain ⟨net, rfl⟩ := deviceExec_handChunk stepped
    cases i <;> rfl
  | response =>
    obtain ⟨net, rfl⟩ := deviceExec_response stepped
    cases i <;> rfl
  | server =>
    obtain ⟨server, -, rfl⟩ := deviceExec_server stepped
    cases i <;> rfl
  | findSession | pause | resume | cancel | progress =>
    obtain ⟨-, rfl⟩ := Prod.mk.inj (Option.some.inj stepped)
    cases i <;> rfl

/-- An operation on the queue. -/
theorem track_queue {op : QueueOp} {result : op.Result}
    (ran : track network i seen (.engine (.queue op)) choice = some (result, after)) :
    ∃ queue cells, op.exec seen.device.engine.queue seen.device.engine.cells =
        some (result, queue, cells) ∧
      after = { seen with device := { seen.device with
        engine := { seen.device.engine with queue, cells } } }.note i (.engine (.queue op)) result := by
  obtain ⟨device, stepped, rfl⟩ := track_cases ran
  obtain ⟨engine, moved, rfl⟩ := deviceExec_engine stepped
  obtain ⟨queue, cells, performed, rfl⟩ := engineExec_queue moved
  exact ⟨queue, cells, performed, rfl⟩

/-- An id that is made is a new one. -/
theorem track_newTransferId {id : Uuid}
    (ran : track network i seen (.engine .newTransferId) choice = some (id, after)) :
    id ∉ seen.device.engine.issued ∧
      after = { seen with device := { seen.device with
        engine := { seen.device.engine with issued := id :: seen.device.engine.issued } } }.note i
          (.engine .newTransferId) id := by
  obtain ⟨device, stepped, rfl⟩ := track_cases ran
  obtain ⟨engine, moved, rfl⟩ := deviceExec_engine stepped
  obtain ⟨-, fresh, rfl⟩ := engineExec_newTransferId moved
  exact ⟨fresh, rfl⟩

/-- A task that starts was spawned under its own id. -/
theorem track_spawned {id : Uuid} {task : SendTask}
    (ran : track network i seen (.engine (.spawned id)) choice = some (task, after)) :
    task.transferId = id ∧ task ∈ seen.device.engine.tasks := by
  obtain ⟨device, stepped, -⟩ := track_cases ran
  obtain ⟨engine, moved, -⟩ := deviceExec_engine stepped
  obtain ⟨listed, named, -⟩ := engineExec_spawned moved
  exact ⟨named, listed⟩

/-- A task starts. -/
theorem task_starts {usage : Usage κ χ ρ} {before : Running κ χ ρ Net} {id : Uuid} {op : DeviceOp}
    {next : op.Result → Program deviceSig Ended} {result : op.Result} {world : Tracked κ Net}
    (waiting : usage.program (.task id : Actor κ χ ρ) = .perform op next)
    (ran : track network (.task id : Actor κ χ ρ) before.world op choice = some (result, world)) :
    besideQueue op ∧ (next result).Always (TaskStep id) ∧ stageOf (next result) = .waiting ∧
      id ∈ (view before).spawned := by
  injection waiting with sameOp sameNext
  subst sameOp
  obtain rfl := eq_of_heq sameNext
  obtain ⟨named, listed⟩ := track_spawned ran
  have always := @task_always usage.sha256 result
  rw [named] at always
  exact ⟨rfl, always, rfl, List.mem_map.mpr ⟨_, listed, named⟩⟩

end

section

variable [DecidableEq κ] [DecidableEq χ] [DecidableEq ρ]
variable {world : Tracked κ Net} {threads : Actor κ χ ρ → Program deviceSig Ended}
variable {program : Program deviceSig Ended}

/-- The work queue after a call has moved. -/
theorem view_call {n : κ} :
    view ⟨world, Function.update threads (.call n) program⟩ =
      ledger world (Function.update (fun n => dutyOf (threads (.call n))) n (dutyOf program))
        fun id => stageOf (threads (.task id)) := by
  have duties : (fun m => dutyOf (Function.update threads (.call n) program (.call m))) =
      Function.update (fun n => dutyOf (threads (.call n))) n (dutyOf program) := by
    funext m
    by_cases same : m = n
    · subst same
      rw [Function.update_self, Function.update_self]
    · have apart : (Actor.call m : Actor κ χ ρ) ≠ .call n := fun equal => same (Actor.call.inj equal)
      rw [Function.update_of_ne apart, Function.update_of_ne same]
  have stages : (fun id => stageOf (Function.update threads (.call n) program (.task id))) =
      fun id => stageOf (threads (.task id)) := by
    funext id
    have apart : (Actor.task id : Actor κ χ ρ) ≠ .call n := nofun
    rw [Function.update_of_ne apart]
  unfold view
  rw [duties, stages]

/-- The work queue after a task has moved. -/
theorem view_task {id : Uuid} :
    view ⟨world, Function.update threads (.task id) program⟩ =
      ledger world (fun n => dutyOf (threads (.call n)))
        (Function.update (fun id => stageOf (threads (.task id))) id (stageOf program)) := by
  have duties : (fun m => dutyOf (Function.update threads (.task id) program (.call m))) =
      fun n => dutyOf (threads (.call n)) := by
    funext m
    have apart : (Actor.call m : Actor κ χ ρ) ≠ .task id := nofun
    rw [Function.update_of_ne apart]
  have stages : (fun other => stageOf (Function.update threads (.task id) program (.task other))) =
      Function.update (fun id => stageOf (threads (.task id))) id (stageOf program) := by
    funext other
    by_cases same : other = id
    · subst same
      rw [Function.update_self, Function.update_self]
    · have apart : (Actor.task other : Actor κ χ ρ) ≠ .task id :=
        fun equal => same (Actor.task.inj equal)
      rw [Function.update_of_ne apart, Function.update_of_ne same]
  unfold view
  rw [duties, stages]

/-- The work queue after another actor has moved. -/
theorem view_other {i : Actor κ χ ρ} (notCall : ∀ n, i ≠ .call n) (notTask : ∀ id, i ≠ .task id) :
    view ⟨world, Function.update threads i program⟩ =
      ledger world (fun n => dutyOf (threads (.call n))) fun id => stageOf (threads (.task id)) := by
  have duties : (fun m => dutyOf (Function.update threads i program (.call m))) =
      fun n => dutyOf (threads (.call n)) := by
    funext m
    rw [Function.update_of_ne (notCall m).symm]
  have stages : (fun id => stageOf (Function.update threads i program (.task id))) =
      fun id => stageOf (threads (.task id)) := by
    funext id
    rw [Function.update_of_ne (notTask id).symm]
  unfold view
  rw [duties, stages]

end

section

variable [DecidableEq κ] [DecidableEq χ] [DecidableEq ρ]
variable {usage : Usage κ χ ρ} {network : Meaning netSig Net Choice}
variable {turn : Uuid → QueuedTransfer → Prop} {before : Running κ χ ρ Net}

/-- One step of the work queue, or none. -/
def Moves (turn : Uuid → QueuedTransfer → Prop)
    (before after : Dispatch.State κ Uuid QueuedTransfer) : Prop :=
  after = before ∨ Dispatch.Step QueuedTransfer.id turn before after

/-- A call moves as a producer does. -/
theorem call_moves {n : κ} {op : DeviceOp} {next : op.Result → Program deviceSig Ended}
    {choice : DeviceChoice Choice} {result : op.Result} {world : Tracked κ Net}
    (waiting : before.threads (.call n) = .perform op next)
    (leads : CallLeads op result (dutyOf (next result)))
    (ran : track network (.call n : Actor κ χ ρ) before.world op choice = some (result, world)) :
    Moves turn (view before)
      (view ⟨world, Function.update before.threads (.call n) (next result)⟩) := by
  rw [view_call]
  have now : dutyOf (before.threads (.call n)) = dutyOf (perform op next) := congrArg dutyOf waiting
  cases op with
  | engine op =>
    cases op with
    | client op =>
      have idle : dutyOf (next result) = .idle := leads
      have still := Function.update_eq_self n fun n => dutyOf (before.threads (.call n))
      rw [ledger_beside rfl ran, idle, ← show dutyOf (before.threads (.call n)) = .idle from now,
        still]
      exact .inl rfl
    | newTransferId =>
      obtain ⟨fresh, rfl⟩ := track_newTransferId ran
      have minted : dutyOf (next result) = .minted result := leads
      rw [minted]
      exact .inr (.mint n result fresh)
    | queue op =>
      cases op with
      | enqueue transfer =>
        obtain ⟨queue, cells, moved, rfl⟩ := track_queue ran
        obtain ⟨-, same⟩ := Prod.mk.inj (Option.some.inj moved)
        obtain ⟨rfl, rfl⟩ := Prod.mk.inj same
        have queued : dutyOf (next result) = .queued transfer.id := leads
        rw [queued]
        exact .inr (.enqueue n transfer now)
      | acquirePermit | popPending | activate | markFinished | releasePermit => exact leads.elim
    | spawn task =>
      obtain ⟨-, rfl⟩ := Prod.mk.inj (Option.some.inj ran)
      have idle : dutyOf (next result) = .idle := leads
      rw [idle]
      have spawned : ((before.world.device.engine.tasks ++ [task]).map (·.transferId)) =
          (view before).spawned ++ [task.transferId] := by
        rw [List.map_append, List.map_singleton]
        rfl
      have step : Dispatch.Step QueuedTransfer.id turn (view before) { view before with
          spawned := (view before).spawned ++ [task.transferId]
          duty := Function.update (view before).duty n .idle } :=
        .spawn n task.transferId now
      rw [← spawned] at step
      exact .inr step
    | spawned | emit => exact leads.elim
  | post | handChunk | response | findSession | pause | resume | cancel | progress | server =>
    exact leads.elim

/-- The operation that takes the first entry. -/
def takesEntry : DeviceOp → Bool
  | .engine (.queue .popPending) => true
  | _ => false

/-- A task at work stays at work. -/
theorem task_stays {id : Uuid} {op : DeviceOp} {next : op.Result → Program deviceSig Ended}
    {choice : DeviceChoice Choice} {result : op.Result} {world : Tracked κ Net}
    (waiting : before.threads (.task id) = .perform op next) (beside : besideQueue op)
    (works : stageOf (perform op next : Program deviceSig Ended) = .working)
    (leads : stageOf (next result) = .working)
    (ran : track network (.task id : Actor κ χ ρ) before.world op choice = some (result, world)) :
    Moves turn (view before)
      (view ⟨world, Function.update before.threads (.task id) (next result)⟩) := by
  have now : stageOf (before.threads (.task id)) = .working := by rw [waiting, works]
  have still := Function.update_eq_self id fun id => stageOf (before.threads (.task id))
  rw [now] at still
  rw [view_task, ledger_beside beside ran, leads, still]
  exact .inl rfl

section

variable {id : Uuid} {choice : DeviceChoice Choice} {world : Tracked κ Net}

/-- A task that is past the semaphore takes the first entry, if there is one. -/
theorem task_pops {next : Option QueuedTransfer → Program deviceSig Ended}
    {result : Option QueuedTransfer} (now : stageOf (before.threads (.task id)) = .permitted)
    (leads : Leads (.engine (.queue .popPending)) result (stageOf (next result)))
    (mine : ∀ entry rest, (view before).pending = entry :: rest → turn id entry)
    (ran : track network (.task id : Actor κ χ ρ) before.world (.engine (.queue .popPending)) choice =
      some (result, world)) :
    Moves turn (view before)
      (view ⟨world, Function.update before.threads (.task id) (next result)⟩) := by
  obtain ⟨queue, cells, moved, rfl⟩ := track_queue ran
  obtain ⟨rfl, same⟩ := Prod.mk.inj (Option.some.inj moved)
  obtain ⟨rfl, rfl⟩ := Prod.mk.inj same
  rw [view_task]
  cases pending : before.world.device.engine.queue.pending with
  | nil =>
    simp only [pending, List.head?_nil] at leads
    have finished : stageOf (next none) = .finished := leads
    have unchanged : { view before with pending := [] } = view before := by
      rw [← show (view before).pending = [] from pending]
    have step : Dispatch.Step QueuedTransfer.id turn (view before) { view before with
        stage := Function.update (view before).stage id .finished } :=
      .starve id now pending
    rw [← unchanged] at step
    simp only [List.head?_nil, List.tail_nil, finished]
    exact .inr (unchanged ▸ step)
  | cons entry rest =>
    simp only [pending, List.head?_cons] at leads
    have taken : stageOf (next (some entry)) = .taken entry.id := leads
    simp only [List.head?_cons, List.tail_cons, taken]
    exact .inr (.take id entry rest now pending (mine entry rest pending))

/-- A task that has taken an entry activates it under the entry's id. -/
theorem task_activates {next : TransferSession → Program deviceSig Ended} {result : TransferSession}
    {queued : QueuedTransfer} (now : stageOf (before.threads (.task id)) = .taken queued.id)
    (working : stageOf (next result) = .working)
    (ran : track network (.task id : Actor κ χ ρ) before.world (.engine (.queue (.activate queued)))
      choice = some (result, world)) :
    Moves turn (view before)
      (view ⟨world, Function.update before.threads (.task id) (next result)⟩) := by
  obtain ⟨queue, cells, moved, rfl⟩ := track_queue ran
  obtain ⟨rfl, same⟩ := Prod.mk.inj (Option.some.inj moved)
  obtain ⟨rfl, rfl⟩ := Prod.mk.inj same
  rw [view_task, working]
  have step : Dispatch.Step QueuedTransfer.id turn (view before) { view before with
      active := (view before).active ++ [queued.id]
      stage := Function.update (view before).stage id .working } :=
    .activate id queued.id now
  have appended (session : TransferSession) :
      (before.world.device.engine.queue.active ++ [(queued, session)]).map (·.1.id) =
        (view before).active ++ [queued.id] := by
    rw [List.map_append, List.map_singleton]
    rfl
  rw [← appended] at step
  exact .inr step

/-- A task that has ended takes its own id from the active list. -/
theorem task_finishes {next : Unit → Program deviceSig Ended} {result : Unit}
    (now : stageOf (before.threads (.task id)) = .working)
    (finished : stageOf (next result) = .finished)
    (ran : track network (.task id : Actor κ χ ρ) before.world (.engine (.queue (.markFinished id)))
      choice = some (result, world)) :
    Moves turn (view before)
      (view ⟨world, Function.update before.threads (.task id) (next result)⟩) := by
  obtain ⟨queue, cells, moved, rfl⟩ := track_queue ran
  obtain ⟨-, same⟩ := Prod.mk.inj (Option.some.inj moved)
  obtain ⟨rfl, rfl⟩ := Prod.mk.inj same
  rw [view_task, finished]
  have step : Dispatch.Step QueuedTransfer.id turn (view before) { view before with
      active := (view before).active.filter (· ≠ id)
      stage := Function.update (view before).stage id .finished } :=
    .finish id now
  have filtered : (before.world.device.engine.queue.active.filter (·.1.id ≠ id)).map (·.1.id) =
      (view before).active.filter (· ≠ id) := by
    rw [view, ledger, List.filter_map]
    rfl
  rw [← filtered] at step
  exact .inr step

/-- A spawned task moves as a worker does. -/
theorem task_moves {op : DeviceOp} {next : op.Result → Program deviceSig Ended} {result : op.Result}
    (waiting : before.threads (.task id) = .perform op next) (own : ownOp id op)
    (leads : Leads op result (stageOf (next result))) (known : id ∈ (view before).spawned)
    (mine : takesEntry op → ∀ entry rest, (view before).pending = entry :: rest → turn id entry)
    (ran : track network (.task id : Actor κ χ ρ) before.world op choice = some (result, world)) :
    Moves turn (view before)
      (view ⟨world, Function.update before.threads (.task id) (next result)⟩) := by
  have now : stageOf (before.threads (.task id)) = stageOf (perform op next) :=
    congrArg stageOf waiting
  cases op with
  | engine op =>
    cases op with
    | queue op =>
      cases op with
      | enqueue => exact leads.elim
      | acquirePermit =>
        obtain ⟨queue, cells, moved, rfl⟩ := track_queue ran
        obtain ⟨free, rfl, rfl⟩ := QueueOp.exec_acquirePermit moved
        rw [view_task, show stageOf (next result) = .permitted from leads]
        exact .inr (.acquire id now known free)
      | popPending => exact task_pops now leads (mine rfl) ran
      | activate queued => exact task_activates now leads ran
      | markFinished other =>
        obtain rfl : other = id := own
        exact task_finishes now leads ran
      | releasePermit =>
        obtain ⟨queue, cells, moved, rfl⟩ := track_queue ran
        obtain ⟨-, same⟩ := Prod.mk.inj (Option.some.inj moved)
        obtain ⟨rfl, rfl⟩ := Prod.mk.inj same
        rw [view_task, show stageOf (next result) = .returned from leads]
        exact .inr (.release id now)
    | client | emit => exact task_stays waiting rfl rfl leads ran
    | newTransferId | spawn | spawned => exact leads.elim
  | post | handChunk | response => exact task_stays waiting rfl rfl leads ran
  | findSession | pause | resume | cancel | progress | server => exact leads.elim

end

/-- It is a task's turn to take the first entry, if it is about to. -/
def TakesTurn (turn : Uuid → QueuedTransfer → Prop) (pool : Running κ χ ρ Net) (i : Actor κ χ ρ) :
    Prop :=
  ∀ id, i = .task id → (pool.threads i).At takesEntry →
    ∀ entry rest, (view pool).pending = entry :: rest → turn id entry

/-- The work queue moves with every actor. -/
theorem actor_moves {after : Running κ χ ρ Net} {i : Actor κ χ ρ} {choice : DeviceChoice Choice}
    (fit : Fit usage before) (stepped : before.step (track network) i choice = some after)
    (mine : TakesTurn turn before i) : Moves turn (view before) (view after) := by
  obtain ⟨op, next, result, world, waiting, ran, rfl⟩ := Pool.step_cases stepped
  cases i with
  | call n =>
    have always := fit.calls n
    rw [waiting] at always
    exact call_moves waiting (always.1 result) ran
  | task id =>
    rcases fit.tasks id with first | ⟨always, known⟩
    · rw [waiting] at first
      obtain ⟨beside, -, stage, -⟩ := task_starts first.symm ran
      have now : stageOf (before.threads (.task id)) = .waiting := by
        rw [waiting, first]
        rfl
      have still := Function.update_eq_self id fun id => stageOf (before.threads (.task id))
      rw [now] at still
      rw [view_task, ledger_beside beside ran, stage, still]
      exact .inl rfl
    · rw [waiting] at always
      obtain ⟨⟨own, leads, -⟩, -⟩ := always
      refine task_moves waiting own (leads result) known (fun takes => ?_) ran
      exact mine id rfl (by rw [waiting]; exact takes)
  | control n =>
    have only := fit.controls n
    rw [waiting] at only
    have beside : besideQueue op := by
      have kind := only.1
      cases op with
      | engine op =>
        cases op with
        | emit => rfl
        | queue | client | newTransferId | spawn | spawned => cases kind
      | findSession | pause | resume | cancel | progress => rfl
      | post | handChunk | response | server => cases kind
    rw [view_other (by simp) (by simp), ledger_beside beside ran]
    exact .inl rfl
  | upload n =>
    have only := fit.uploads n
    rw [waiting] at only
    have beside : besideQueue op := by
      have kind := only.1
      cases op with
      | server => rfl
      | engine | findSession | pause | resume | cancel | progress | post | handChunk | response =>
        cases kind
    rw [view_other (by simp) (by simp), ledger_beside beside ran]
    exact .inl rfl

/-- What is spawned stays spawned. -/
theorem Moves.spawned {before after : Dispatch.State κ Uuid QueuedTransfer}
    (moves : Moves turn before after) : before.spawned ⊆ after.spawned := by
  rcases moves with rfl | step
  · exact List.Subset.refl _
  · exact step.spawned_subset

/-- The actors stay fit. -/
theorem Fit.step {after : Running κ χ ρ Net} {i : Actor κ χ ρ} {choice : DeviceChoice Choice}
    (fit : Fit usage before) (stepped : before.step (track network) i choice = some after)
    (spawned : (view before).spawned ⊆ (view after).spawned) : Fit usage after := by
  refine {
    calls := fun n => Pool.step_keeps (fun _ _ result always => always.2 result) stepped (fit.calls n)
    tasks := fun id => ?_
    controls := fun n => Pool.step_keeps (fun _ _ result only => only.2 result) stepped
      (fit.controls n)
    uploads := fun n => Pool.step_keeps (fun _ _ result only => only.2 result) stepped
      (fit.uploads n) }
  rcases fit.tasks id with first | ⟨always, known⟩
  · obtain ⟨op, next, result, world, waiting, ran, rfl⟩ := Pool.step_cases stepped
    by_cases same : .task id = i
    · subst same
      rw [waiting] at first
      obtain ⟨-, always, -, listed⟩ := task_starts first.symm ran
      simp only [Function.update_self]
      exact .inr ⟨always, spawned listed⟩
    · simp only [Function.update_of_ne same]
      exact .inl first
  · have still := Pool.step_keeps (fun _ _ result always => always.2 result) stepped always
    exact .inr ⟨still, spawned known⟩

variable {net : Net} {files : FileStore Path} {reached : Running κ χ ρ Net}
variable {allowed : Running κ χ ρ Net → Actor κ χ ρ → DeviceChoice Choice → Prop}

/-- Every run of a device is a run of its work queue. -/
theorem device_refines
    (turns : ∀ pool i choice, allowed pool i choice → TakesTurn turn pool i)
    (path : Pool.Reaches (track network) allowed (start usage net files) reached) :
    Fit usage reached ∧ Relation.ReflTransGen (Dispatch.Step QueuedTransfer.id turn)
      (.new κ Uuid QueuedTransfer maxParallelTransfers) (view reached) := by
  induction path with
  | refl =>
    refine ⟨fit_start usage net files, ?_⟩
    rw [view_start]
  | tail _ last ih =>
    obtain ⟨i, choice, permitted, stepped⟩ := last
    obtain ⟨fit, run⟩ := ih
    have moves := actor_moves fit stepped (turns _ i choice permitted)
    refine ⟨fit.step stepped moves.spawned, ?_⟩
    rcases moves with same | step
    · rw [same]
      exact run
    · exact run.tail step

/-- The account of the entries holds in every run. -/
theorem sound_reached (path : Pool.Reaches (track network) allowed (start usage net files) reached) :
    Dispatch.Sound QueuedTransfer.id maxParallelTransfers (view reached) := by
  have free : ∀ pool i choice, allowed pool i choice → TakesTurn (fun _ _ => True) pool i :=
    fun _ _ _ _ _ _ _ _ _ _ => trivial
  exact (Dispatch.sound_new _ _).run (device_refines free path).2

end

end FileDrop.Sending
