import FileDrop.Verif.Parallel

/-!
# The events of a transfer

A task announces its start, then one of its two ends, and nothing after that; where it is between the
two can be read off the rest of its program. A pause call emits on its own: it looks the session up,
stores the flag and emits in three steps, and a session can be found before the start is announced and
after the end is. So the events of a transfer are in order exactly as long as no pause call emits
outside of what is between.
-/
namespace FileDrop.EventOrder
open FileDrop Effects Effects.Program Unix Sending Parallel

/-! ## Events in order -/

/-- The transfer an event is about. -/
def about : FileDropEvent → Uuid
  | .transferStarted id .. | .transferPaused id | .transferCompleted id _ | .transferFailed id _ => id

/-- A transfer is started. -/
def isStart : FileDropEvent → Bool
  | .transferStarted .. => true
  | _ => false

/-- A transfer is paused. -/
def isPause : FileDropEvent → Bool
  | .transferPaused _ => true
  | _ => false

/-- A transfer has ended. -/
def isEnd : FileDropEvent → Bool
  | .transferCompleted .. | .transferFailed .. => true
  | _ => false

/-- How far a transfer is announced. -/
inductive Phase where
  | ahead
  | underway
  | finished
  deriving DecidableEq, Repr

/-- The events of a transfer so far: its start, any number of pauses, and its end. -/
inductive Logged : Phase → List FileDropEvent → Prop where
  | ahead : Logged .ahead []
  | underway (start : FileDropEvent) (pauses : List FileDropEvent) (starts : isStart start = true)
      (paused : ∀ event ∈ pauses, isPause event = true) : Logged .underway (start :: pauses)
  | finished (start : FileDropEvent) (pauses : List FileDropEvent) (last : FileDropEvent)
      (starts : isStart start = true) (paused : ∀ event ∈ pauses, isPause event = true)
      (ends : isEnd last = true) : Logged .finished (start :: pauses ++ [last])

/-- The events of a transfer are in order. -/
def Ordered (events : List FileDropEvent) : Prop := ∃ phase, Logged phase events

/-- An event is of one kind. -/
theorem pause_only {event : FileDropEvent} (pauses : isPause event = true) :
    isStart event = false ∧ isEnd event = false := by
  cases event with
  | transferPaused => exact ⟨rfl, rfl⟩
  | transferStarted | transferCompleted | transferFailed => cases pauses

/-- A pause between the start and the end. -/
theorem Logged.pause {events : List FileDropEvent} (logged : Logged .underway events)
    {event : FileDropEvent} (pauses : isPause event = true) :
    Logged .underway (events ++ [event]) := by
  cases logged with
  | underway start rest starts paused =>
    refine .underway start (rest ++ [event]) starts fun other member => ?_
    rcases List.mem_append.mp member with old | new
    · exact paused other old
    · rw [List.mem_singleton.mp new]
      exact pauses

/-- A pause is in order between the start and the end only. -/
theorem pause_ordered_iff {phase : Phase} {events : List FileDropEvent} (logged : Logged phase events)
    {event : FileDropEvent} (pauses : isPause event = true) :
    Ordered (events ++ [event]) ↔ phase = .underway := by
  obtain ⟨notStart, notEnd⟩ := pause_only pauses
  constructor
  · rintro ⟨later, order⟩
    cases logged with
    | underway => rfl
    | ahead =>
      -- the pause would be the first event
      generalize whole : ([] ++ [event] : List FileDropEvent) = events at order
      cases order with
      | ahead => cases whole
      | underway start rest starts =>
        rw [(List.cons.inj whole).1, starts] at notStart
        cases notStart
      | finished start rest last starts =>
        rw [(List.cons.inj whole).1, starts] at notStart
        cases notStart
    | finished start rest last starts paused ends =>
      generalize whole : (start :: rest ++ [last]) ++ [event] = events at order
      cases order with
      | ahead => cases whole
      | underway first others _ onlyPauses =>
        -- the end would be among the pauses
        have inside : last ∈ others := by
          have tails : rest ++ [last] ++ [event] = others := (List.cons.inj whole).2
          rw [← tails]
          simp
        rw [(pause_only (onlyPauses last inside)).2] at ends
        cases ends
      | finished first others final _ _ finalEnds =>
        -- the pause would be the last event
        have lasts := congrArg List.getLast? whole
        rw [List.getLast?_concat, List.getLast?_concat] at lasts
        rw [Option.some.inj lasts, finalEnds] at notEnd
        cases notEnd
  · rintro rfl
    exact ⟨.underway, logged.pause pauses⟩

/-! ## How far a task is -/

/-- How far a transfer is announced when its task waits at an operation. -/
def phaseAt : DeviceOp → Phase
  | .engine (.spawned _) | .engine (.queue .acquirePermit) | .engine (.queue .popPending)
  | .engine (.queue (.activate _)) | .engine (.emit (.transferStarted ..)) => .ahead
  | .engine (.queue (.markFinished _)) | .engine (.queue .releasePermit) => .finished
  | _ => .underway

/-- How far a transfer is announced, read off what is left of its task. -/
def phaseOf {α : Type} : Program deviceSig α → Phase
  | .done _ => .finished
  | .perform op _ => phaseAt op

/-- What an operation of a task announces, and how far the transfer is announced then. -/
def Announces (id : Uuid) : (op : DeviceOp) → op.Result → Phase → Prop
  | .engine (.emit (.transferStarted other ..)), _, later => other = id ∧ later = .underway
  | .engine (.emit (.transferCompleted other _)), _, later => other = id ∧ later = .finished
  | .engine (.emit (.transferFailed other _)), _, later => other = id ∧ later = .finished
  | .engine (.emit (.transferPaused _)), _, _ => False
  | .engine (.queue .popPending), none, _ => True
  | op, _, later => later = phaseAt op

/-- What holds of a task at every operation: it announces its own transfer only, step by step. -/
def Told {α : Type} (id : Uuid) : Program deviceSig α → Prop
  | .done _ => True
  | .perform op next => ∀ result, Announces id op result (phaseOf (next result))

/-- The operations of a task between the start and the end of its transfer. -/
def betweenOp : DeviceOp → Bool
  | .engine (.client _) | .post _ | .handChunk .. | .response _ => true
  | _ => false

/-- A task between the start and the end of its transfer. -/
structure Between {α : Type} (id : Uuid) (program : Program deviceSig α) : Prop where
  always : program.Always (Told id)
  phase : phaseOf program = .underway

section

variable {α β : Type} {id : Uuid}

/-- A part of a task that announces nothing. -/
theorem between_bind {program : Program deviceSig α} {rest : α → Program deviceSig β}
    (only : program.Only betweenOp) (later : ∀ value, Between id (rest value)) :
    Between id (program.bind rest) := by
  induction program with
  | done value => exact later value
  | perform op next ih =>
    have inner (result : op.Result) := ih result (only.2 result)
    have kind := only.1
    cases op with
    | engine op =>
      cases op with
      | client => exact ⟨⟨fun result => (inner result).phase, fun result => (inner result).always⟩, rfl⟩
      | queue | newTransferId | spawn | spawned | emit => cases kind
    | post | handChunk | response =>
      exact ⟨⟨fun result => (inner result).phase, fun result => (inner result).always⟩, rfl⟩
    | findSession | pause | resume | cancel | progress | server => cases kind

/-- The chunks of a body announce nothing. -/
theorem handChunks_between (request : SendRequest) (chunks : List Bytes) :
    (handChunks request chunks).Only betweenOp := by
  induction chunks with
  | nil => trivial
  | cons chunk rest ih => exact ⟨rfl, fun _ => ih⟩

/-- The operations of the client. -/
def clientOp : EngineOp → Bool
  | .client _ => true
  | _ => false

/-- An operation of the client announces nothing. -/
theorem engineStep_between (op : EngineOp) (client : clientOp op) :
    (engineStep op).Only betweenOp := by
  cases op with
  | client op =>
    cases op with
    | send request =>
      exact ⟨rfl, fun chunks =>
        (handChunks_between request chunks).bind fun _ => ⟨rfl, fun _ => trivial⟩⟩
    | metadata | readFile | openFile | seek => exact ⟨rfl, fun _ => trivial⟩
  | queue | newTransferId | spawn | spawned | emit => cases client

end

section

variable {sha256 : Sha256} {task : SendTask}

/-- A task at its end announces nothing more. -/
theorem told_end (transferId id : Uuid) :
    (taskEnd id).Always (Told transferId) ∧ phaseOf (taskEnd id) = .finished :=
  ⟨⟨fun _ => rfl, fun _ => ⟨fun _ => rfl, fun _ => trivial⟩⟩, rfl⟩

/-- A result is announced by one of the two ends. -/
theorem between_report (result : SendResult) :
    Between task.transferId (((reportSend sha256 task result).expand engineStep).bind fun _ =>
      taskEnd task.transferId) := by
  obtain ⟨always, finished⟩ := told_end task.transferId task.transferId
  cases result with
  | error error => exact ⟨⟨fun _ => ⟨rfl, finished⟩, fun _ => always⟩, rfl⟩
  | ok done =>
    have reads : (engineClient (.readFile task.path)).Only clientOp := ⟨rfl, fun _ => trivial⟩
    have hashes := (sha256File_only reads sha256).expand engineStep_between
    unfold reportSend
    rw [expand_bind, bind_assoc]
    exact between_bind hashes fun digest => ⟨⟨fun _ => ⟨rfl, finished⟩, fun _ => always⟩, rfl⟩

/-- A task that has its session announces the start first. -/
theorem told_send (session : TransferSession) :
    (((sendWith sha256 task session).expand engineStep).bind fun _ =>
        done Ended.task).Always (Told task.transferId) ∧
      phaseOf (((sendWith sha256 task session).expand engineStep).bind fun _ =>
        done Ended.task) = .ahead := by
  have calls (op : ClientOp) (_ : ∀ request, op = .send request →
      request.transferId = task.transferId) : (engineClient op).Only clientOp :=
    ⟨rfl, fun _ => trivial⟩
  have sends := (sendFile_only calls sha256 task.addr task.path session .default).expand
    engineStep_between
  have works : Between task.transferId ((expand engineStep ((sendFile engineClient sha256 task.addr
      task.transferId task.path session .default).bind fun result =>
        (reportSend sha256 task result).bind fun _ =>
        (TransferQueue.markFinished queueCall task.transferId).bind fun _ =>
          queueCall .releasePermit)).bind fun _ => done Ended.task) := by
    rw [expand_bind, bind_assoc]
    refine between_bind sends fun result => ?_
    rw [expand_bind, bind_assoc]
    exact between_report result
  exact ⟨⟨fun _ => ⟨rfl, works.phase⟩, fun _ => works.always⟩, rfl⟩

/-- A spawned task announces its own transfer only, step by step. -/
theorem task_told :
    ((sendTask sha256 task).bind fun _ => done Ended.task).Always (Told task.transferId) := by
  refine ⟨fun _ => rfl, fun _ => ⟨fun found => ?_, fun found => ?_⟩⟩
  · cases found with
    | none => trivial
    | some entry => rfl
  · cases found with
    | none => exact ⟨fun _ => rfl, fun _ => trivial⟩
    | some entry =>
      exact ⟨fun session => (told_send session).2, fun session => (told_send session).1⟩

end

/-! ## What a step announces -/

/-- A task finds the queue empty. -/
def starves : (op : DeviceOp) → op.Result → Bool
  | .engine (.queue .popPending), none => true
  | _, _ => false

/-- What a step of a task announces of its transfer, from how far to how far. -/
inductive Advance : Phase → Phase → List FileDropEvent → Prop where
  | quiet (phase : Phase) : Advance phase phase []
  | start (event : FileDropEvent) (starts : isStart event = true) : Advance .ahead .underway [event]
  | finish (event : FileDropEvent) (ends : isEnd event = true) : Advance .underway .finished [event]

/-- The events of a transfer among some. -/
def eventsAbout (id : Uuid) (events : List FileDropEvent) : List FileDropEvent :=
  events.filter (about · = id)

/-- What a task announces keeps its transfer's events in order. -/
theorem Advance.logged {before after : Phase} {events new : List FileDropEvent}
    (advance : Advance before after new) (logged : Logged before events) :
    Logged after (events ++ new) := by
  cases advance with
  | quiet =>
    rw [List.append_nil]
    exact logged
  | start event starts =>
    cases logged
    exact .underway event [] starts (by simp)
  | finish event ends =>
    cases logged with
    | underway start pauses starts paused => exact .finished start pauses event starts paused ends

/-- What a task announces is about its own transfer, and takes it a step further. -/
theorem announces_advance {id : Uuid} {op : DeviceOp} {result : op.Result} {later : Phase}
    (announces : Announces id op result later) (served : starves op result = false) :
    Advance (phaseAt op) later (eventsAbout id op.emits) := by
  have still (same : later = phaseAt op) (silent : op.emits = []) :
      Advance (phaseAt op) later (eventsAbout id op.emits) := by
    rw [silent, same]
    exact .quiet _
  cases op with
  | engine op =>
    cases op with
    | emit event =>
      have mine (same : about event = id) : eventsAbout id [event] = [event] := by
        simp [eventsAbout, same]
      cases event with
      | transferStarted other fileName totalBytes =>
        obtain ⟨same, rfl⟩ := announces
        rw [DeviceOp.emits, mine same]
        exact .start _ rfl
      | transferPaused other => exact announces.elim
      | transferCompleted other digest =>
        obtain ⟨same, rfl⟩ := announces
        rw [DeviceOp.emits, mine same]
        exact .finish _ rfl
      | transferFailed other error =>
        obtain ⟨same, rfl⟩ := announces
        rw [DeviceOp.emits, mine same]
        exact .finish _ rfl
    | queue op =>
      cases op with
      | popPending =>
        cases result with
        | none => cases served
        | some entry => exact still announces rfl
      | enqueue | acquirePermit | activate | markFinished | releasePermit => exact still announces rfl
    | client | newTransferId | spawn | spawned => exact still announces rfl
  | post | handChunk | response | findSession | pause | resume | cancel | progress | server =>
    exact still announces rfl

/-- What a task announces is not about another transfer. -/
theorem announces_apart {worker id : Uuid} {op : DeviceOp} {result : op.Result} {later : Phase}
    (announces : Announces worker op result later) (apart : worker ≠ id) :
    eventsAbout id op.emits = [] := by
  have other {event : FileDropEvent} (named : about event = worker) : eventsAbout id [event] = [] := by
    have unlike : about event ≠ id := named ▸ apart
    simp [eventsAbout, unlike]
  cases op with
  | engine op =>
    cases op with
    | emit event =>
      cases event with
      | transferPaused => exact announces.elim
      | transferStarted | transferCompleted | transferFailed => exact other announces.1
    | queue | client | newTransferId | spawn | spawned => rfl
  | post | handChunk | response | findSession | pause | resume | cancel | progress | server => rfl

/-- The transfer that a program is about to announce as paused. -/
def pausing {α : Type} : Program deviceSig α → Option Uuid
  | .perform (.engine (.emit (.transferPaused id))) _ => some id
  | _ => none

/-- An operation that emits nothing announces no pause. -/
theorem pausing_silent {α : Type} {op : DeviceOp} (next : op.Result → Program deviceSig α)
    (silent : op.emits = []) : pausing (perform op next) = none := by
  cases op with
  | engine op =>
    cases op with
    | emit => cases silent
    | queue | client | newTransferId | spawn | spawned => rfl
  | post | handChunk | response | findSession | pause | resume | cancel | progress | server => rfl

/-- A task announces no pause. -/
theorem pausing_told {α : Type} {id : Uuid} {op : DeviceOp} {next : op.Result → Program deviceSig α}
    {result : op.Result} (announces : Announces id op result (phaseOf (next result))) :
    pausing (perform op next) = none := by
  cases op with
  | engine op =>
    cases op with
    | emit event =>
      cases event with
      | transferPaused => exact announces.elim
      | transferStarted | transferCompleted | transferFailed => rfl
    | queue | client | newTransferId | spawn | spawned => rfl
  | post | handChunk | response | findSession | pause | resume | cancel | progress | server => rfl

/-! ## Runs -/

section

variable {κ χ ρ Net Choice : Type}

/-- The events of a transfer so far. -/
def eventsOf (pool : Running κ χ ρ Net) (id : Uuid) : List FileDropEvent :=
  eventsAbout id pool.world.device.engine.events

/-- How far the task of a transfer has announced it. -/
def phase (pool : Running κ χ ρ Net) (id : Uuid) : Phase := phaseOf (pool.threads (.task id))

/-- A pause call announces a pause only between the start and the end of its transfer. -/
def InOrder (pool : Running κ χ ρ Net) (i : Actor κ χ ρ) (_ : DeviceChoice Choice) : Prop :=
  ∀ id, pausing (pool.threads i) = some id → phase pool id = .underway

/-- Every task is not spawned yet, or announces its own transfer only. -/
def Telling (usage : Usage κ χ ρ) (pool : Running κ χ ρ Net) : Prop :=
  ∀ id, pool.threads (.task id) = usage.program (.task id) ∨
    (pool.threads (.task id)).Always (Told id)

variable {usage : Usage κ χ ρ} {network : Meaning netSig Net Choice} {net : Net}
variable {files : FileStore Path} {before after reached : Running κ χ ρ Net}

/-- A task that starts announces its own transfer only. -/
theorem told_start {id : Uuid} {op : DeviceOp} {next : op.Result → Program deviceSig Ended}
    {result : op.Result} {world after : Tracked κ Net} {choice : DeviceChoice Choice}
    (waiting : usage.program (.task id : Actor κ χ ρ) = .perform op next)
    (ran : track network (.task id : Actor κ χ ρ) world op choice = some (result, after)) :
    (next result).Always (Told id) ∧ Announces id op result (phaseOf (next result)) := by
  injection waiting with sameOp sameNext
  subst sameOp
  obtain rfl := eq_of_heq sameNext
  obtain ⟨named, -⟩ := track_spawned ran
  have always := @task_told usage.sha256 result
  rw [named] at always
  exact ⟨always, rfl⟩

/-! ### What an actor announces -/

section

variable {op : DeviceOp} {next : op.Result → Program deviceSig Ended}

/-- A call announces nothing. -/
theorem call_silent (fit : Fit usage before) {n : κ}
    (waiting : before.threads (.call n) = .perform op next) (result : op.Result) : op.emits = [] := by
  have always := fit.calls n
  rw [waiting] at always
  rcases op.emits_cases with silent | ⟨event, rfl⟩
  · exact silent
  · exact (always.1 result).elim

/-- Nor does an upload. -/
theorem upload_silent (fit : Fit usage before) {n : ρ}
    (waiting : before.threads (.upload n) = .perform op next) : op.emits = [] := by
  have only := fit.uploads n
  rw [waiting] at only
  rcases op.emits_cases with silent | ⟨event, rfl⟩
  · exact silent
  · exact absurd only.1 Bool.false_ne_true

/-- A control call announces a pause at most. -/
theorem control_emits (fit : Fit usage before) {n : χ}
    (waiting : before.threads (.control n) = .perform op next) :
    op.emits = [] ∨ ∃ id, op = .engine (.emit (.transferPaused id)) := by
  have only := fit.controls n
  rw [waiting] at only
  rcases op.emits_cases with silent | ⟨event, rfl⟩
  · exact .inl silent
  · cases event with
    | transferPaused id => exact .inr ⟨id, rfl⟩
    | transferStarted | transferCompleted | transferFailed => exact absurd only.1 Bool.false_ne_true

variable {result : op.Result} {world : Tracked κ Net} {choice : DeviceChoice Choice} {worker : Uuid}

/-- A task announces its own transfer only. -/
theorem task_announces (telling : Telling usage before)
    (waiting : before.threads (.task worker) = .perform op next)
    (ran : track network (.task worker : Actor κ χ ρ) before.world op choice = some (result, world)) :
    Announces worker op result (phaseOf (next result)) := by
  rcases telling worker with first | always
  · rw [waiting] at first
    exact (told_start first.symm ran).2
  · rw [waiting] at always
    exact always.1 result

/-- A task that takes an entry finds one. -/
theorem task_served
    (sound : Dispatch.Sound QueuedTransfer.id maxParallelTransfers (view before))
    (waiting : before.threads (.task worker) = .perform op next)
    (ran : track network (.task worker : Actor κ χ ρ) before.world op choice = some (result, world)) :
    starves op result = false := by
  cases op with
  | engine op =>
    cases op with
    | queue op =>
      cases op with
      | popPending =>
        have permitted : (view before).stage worker = .permitted := by
          show stageOf (before.threads (.task worker)) = .permitted
          rw [waiting]
          rfl
        obtain ⟨queue, cells, moved, -⟩ := track_queue ran
        obtain ⟨found, -⟩ := Prod.mk.inj (Option.some.inj moved)
        obtain ⟨entry, rest, pending⟩ := List.exists_cons_of_ne_nil (sound.pending_ne permitted)
        have pending : before.world.device.engine.queue.pending = entry :: rest := pending
        rw [pending] at found
        subst found
        rfl
      | enqueue | acquirePermit | activate | markFinished | releasePermit => rfl
    | client | newTransferId | spawn | spawned | emit => rfl
  | post | handChunk | response | findSession | pause | resume | cancel | progress | server => rfl

end

variable [DecidableEq κ] [DecidableEq χ] [DecidableEq ρ]

/-- The tasks go on to announce their own transfers only. -/
theorem Telling.step (telling : Telling usage before) {i : Actor κ χ ρ}
    {choice : DeviceChoice Choice} (stepped : before.step (track network) i choice = some after) :
    Telling usage after := by
  intro id
  rcases telling id with first | always
  · obtain ⟨op, next, result, world, waiting, ran, rfl⟩ := Pool.step_cases stepped
    by_cases same : .task id = i
    · subst same
      rw [waiting] at first
      simp only [Function.update_self]
      exact .inr (told_start first.symm ran).1
    · simp only [Function.update_of_ne same]
      exact .inl first
  · exact .inr (Pool.step_keeps (fun _ _ result always => always.2 result) stepped always)

/-- What one step does to the events of a transfer: a pause call adds a pause, or the task takes it
further, or nothing is announced. -/
theorem step_events (fit : Fit usage before) (telling : Telling usage before)
    (sound : Dispatch.Sound QueuedTransfer.id maxParallelTransfers (view before)) {i : Actor κ χ ρ}
    {choice : DeviceChoice Choice} (stepped : before.step (track network) i choice = some after)
    (id : Uuid) :
    pausing (before.threads i) = some id ∧ phase after id = phase before id ∧
        eventsOf after id = eventsOf before id ++ [.transferPaused id] ∨
      pausing (before.threads i) ≠ some id ∧ ∃ new, Advance (phase before id) (phase after id) new ∧
        eventsOf after id = eventsOf before id ++ new := by
  obtain ⟨op, next, result, world, waiting, ran, rfl⟩ := Pool.step_cases stepped
  have added : eventsOf ⟨world, Function.update before.threads i (next result)⟩ id =
      eventsOf before id ++ eventsAbout id op.emits := by
    rw [eventsOf, deviceExec_events (track_device ran)]
    exact List.filter_append ..
  -- the other actors leave the task of the transfer alone
  have beside (other : Actor.task id ≠ i) :
      phase ⟨world, Function.update before.threads i (next result)⟩ id = phase before id := by
    simp only [phase, Function.update_of_ne other]
  have quiet (other : Actor.task id ≠ i) (unpaused : pausing (before.threads i) ≠ some id)
      (unnamed : eventsAbout id op.emits = []) :
      pausing (before.threads i) ≠ some id ∧ ∃ new, Advance (phase before id)
          (phase ⟨world, Function.update before.threads i (next result)⟩ id) new ∧
        eventsOf ⟨world, Function.update before.threads i (next result)⟩ id =
          eventsOf before id ++ new := by
    refine ⟨unpaused, [], ?_, ?_⟩
    · rw [beside other]
      exact .quiet _
    · rw [added, unnamed]
  have still (other : Actor.task id ≠ i) (silent : op.emits = []) := by
    refine quiet other ?_ (by rw [silent]; rfl)
    rw [waiting, pausing_silent next silent]
    exact nofun
  cases i with
  | call n => exact .inr (still nofun (call_silent fit waiting result))
  | upload n => exact .inr (still nofun (upload_silent fit waiting))
  | control n =>
    rcases control_emits fit waiting with silent | ⟨other, rfl⟩
    · exact .inr (still nofun silent)
    · have announced : pausing (before.threads (.control n)) = some other := by
        rw [waiting]
        rfl
      by_cases mine : other = id
      · subst mine
        have new : eventsAbout other [.transferPaused other] = [.transferPaused other] := by
          simp [eventsAbout, about]
        refine .inl ⟨announced, beside nofun, ?_⟩
        rw [added, DeviceOp.emits, new]
      · refine .inr (quiet nofun ?_ ?_)
        · rw [announced]
          exact fun same => mine (Option.some.inj same)
        · simp [DeviceOp.emits, eventsAbout, about, mine]
  | task worker =>
    have announces := task_announces telling waiting ran
    have unpaused : pausing (before.threads (.task worker)) ≠ some id := by
      rw [waiting, pausing_told announces]
      exact nofun
    by_cases mine : worker = id
    · subst mine
      refine .inr ⟨unpaused, _, ?_, added⟩
      have now : phase before worker = phaseAt op := congrArg phaseOf waiting
      have then_ : phase ⟨world, Function.update before.threads (.task worker) (next result)⟩ worker =
          phaseOf (next result) := by
        simp only [phase, Function.update_self]
      rw [now, then_]
      exact announces_advance announces (task_served sound waiting ran)
    · refine .inr (quiet ?_ unpaused (announces_apart announces mine))
      exact fun same => mine (Actor.task.inj same).symm

/-- In every run the tasks announce their own transfers only. -/
theorem telling_reached {allowed : Running κ χ ρ Net → Actor κ χ ρ → DeviceChoice Choice → Prop}
    (path : Pool.Reaches (track network) allowed (start usage net files) reached) :
    Telling usage reached := by
  induction path with
  | refl => exact fun _ => .inl rfl
  | tail _ last ih =>
    obtain ⟨i, choice, -, stepped⟩ := last
    exact ih.step stepped

/-- What one step of a run does to the events of a transfer. -/
theorem reached_events {allowed : Running κ χ ρ Net → Actor κ χ ρ → DeviceChoice Choice → Prop}
    (path : Pool.Reaches (track network) allowed (start usage net files) before) {i : Actor κ χ ρ}
    {choice : DeviceChoice Choice} (stepped : before.step (track network) i choice = some after)
    (id : Uuid) :
    pausing (before.threads i) = some id ∧ phase after id = phase before id ∧
        eventsOf after id = eventsOf before id ++ [.transferPaused id] ∨
      pausing (before.threads i) ≠ some id ∧ ∃ new, Advance (phase before id) (phase after id) new ∧
        eventsOf after id = eventsOf before id ++ new := by
  have free : ∀ pool i choice, allowed pool i choice → TakesTurn (fun _ _ => True) pool i :=
    fun _ _ _ _ _ _ _ _ _ _ => trivial
  exact step_events (device_refines free path).1 (telling_reached path) (sound_reached path) stepped id

/-- While the pauses are announced in order, the events of every transfer are as far as its task. -/
theorem logged_reached
    (path : Pool.Reaches (track network) InOrder (start usage net files) reached) (id : Uuid) :
    Logged (phase reached id) (eventsOf reached id) := by
  induction path with
  | refl => exact .ahead
  | tail rest last ih =>
    obtain ⟨i, choice, inOrder, stepped⟩ := last
    rcases reached_events rest stepped id with ⟨pauses, same, added⟩ | ⟨-, new, advance, added⟩
    · have now : phase _ id = .underway := inOrder id pauses
      rw [now] at ih same
      rw [same, added]
      exact ih.pause rfl
    · rw [added]
      exact advance.logged ih

/-- In every run whose pauses are announced between the start and the end of their transfer: the
events of every transfer are in order, and those of a task that has returned have both a start and an
end. A step keeps them in order exactly when it announces no pause elsewhere. -/
theorem events_ordered
    (path : Pool.Reaches (track network) InOrder (start usage net files) reached) :
    (∀ id, Ordered (eventsOf reached id)) ∧
      (∀ id ended, reached.threads (.task id) = .done ended → Logged .finished (eventsOf reached id)) ∧
      ∀ i choice after, reached.step (track network) i choice = some after →
        ((∀ id, Ordered (eventsOf after id)) ↔ InOrder reached i choice) := by
  refine ⟨fun id => ⟨_, logged_reached path id⟩, fun id ended done => ?_, fun i choice after stepped => ?_⟩
  · have finished : phase reached id = .finished := congrArg phaseOf done
    rw [← finished]
    exact logged_reached path id
  · constructor
    · intro ordered id pauses
      rcases reached_events path stepped id with ⟨-, -, added⟩ | ⟨other, -⟩
      · have order := ordered id
        rw [added] at order
        exact (pause_ordered_iff (logged_reached path id) rfl).mp order
      · exact absurd pauses other
    · intro inOrder id
      exact ⟨_, logged_reached (path.tail ⟨i, choice, inOrder, stepped⟩) id⟩

end

/-! ## A pause that is early -/

/-- A pause call for the first file of the sample device, in three steps. -/
def pauseSteps : List (Actor Unit Control Unit × DeviceChoice Unit) :=
  steps (.control (.pause ⟨7⟩)) 3 ⟨0⟩

instance (pool : Running Unit Control Unit Unit) (i : Actor Unit Control Unit)
    (choice : DeviceChoice Unit) : Decidable (InOrder pool i choice) :=
  match announced : pausing (pool.threads i) with
  | none => .isTrue fun id same => absurd (announced.symm.trans same) (by simp)
  | some id =>
    if now : phase pool id = .underway then
      .isTrue fun other same => by rwa [← Option.some.inj (announced.symm.trans same)]
    else .isFalse fun inOrder => now (inOrder id announced)

/-- A send that is paused while it works. -/
theorem events_ordered_paused : ∃ reached,
    Pool.run (track sampleNetwork) InOrder
        (callSteps ++ taskSteps ⟨7⟩ 5 ++ pauseSteps ++ taskSteps ⟨7⟩ 11)
        (start sampleUsage () .empty) = some reached ∧
      (eventsOf reached ⟨7⟩).length = 3 ∧ Logged .finished (eventsOf reached ⟨7⟩) := by
  have runs : (Pool.run (track sampleNetwork) InOrder
      (callSteps ++ taskSteps ⟨7⟩ 5 ++ pauseSteps ++ taskSteps ⟨7⟩ 11)
      (start sampleUsage () .empty)).map (fun reached =>
        ((eventsOf reached ⟨7⟩).length, (reached.threads (.task ⟨7⟩)).returned?.isSome)) =
          some (3, true) := by
    decide +kernel
  obtain ⟨reached, ran, shown⟩ := Option.map_eq_some_iff.mp runs
  obtain ⟨length, done⟩ := Prod.mk.inj shown
  obtain ⟨ended, returned⟩ := Option.isSome_iff_exists.mp done
  exact ⟨reached, ran, length, (events_ordered (Pool.reaches_of_run ran)).2.1 ⟨7⟩ ended
    (returned?_eq_some returned)⟩

/-- A send that is paused before it is announced: the pause comes first. -/
theorem events_ordered_broken :
    ¬∀ (usage : Usage Unit Control Unit) (network : Meaning netSig Unit Unit)
      (files : FileStore Path) (reached : Running Unit Control Unit Unit),
      Pool.Reaches (track network) (fun _ _ _ => True) (start usage () files) reached →
      ∀ id, Ordered (eventsOf reached id) := by
  intro always
  have runs : (sampleRun (callSteps ++ taskSteps ⟨7⟩ 4 ++ pauseSteps)).map
      (fun reached => eventsOf reached ⟨7⟩) = some [.transferPaused ⟨7⟩] := by
    decide +kernel
  obtain ⟨reached, ran, events⟩ := Option.map_eq_some_iff.mp runs
  have order := always _ _ _ reached (Pool.reaches_of_run ran) ⟨7⟩
  rw [events] at order
  have pauses : isPause (.transferPaused ⟨7⟩) = true := rfl
  have early : Phase.ahead = .underway := (pause_ordered_iff .ahead pauses).mp order
  cases early

end FileDrop.EventOrder
