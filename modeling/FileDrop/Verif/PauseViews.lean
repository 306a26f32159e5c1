import FileDrop.Flutter.ActiveTransfers
import FileDrop.Verif.Controllable
import FileDrop.Verif.EventOrder

/-!
# Three views of one flag

Whether a send is paused is in the flag of its session, in the app's map, which follows the events, and
in what `get_transfer_status` reports. The report never is `Paused`, and no event says that a transfer
goes on, so the map stays paused after a resume. The views agree until a pause call stores the flag, and
from the first one on they do not.
-/
namespace FileDrop.PauseViews
open FileDrop Effects Effects.Program Unix Sending Parallel Controllable EventOrder

/-! ## The app's view -/

/-- The status of a transfer in the map. -/
def statusIn (transfers : Flutter.ActiveTransfers) (id : Uuid) : Option TransferStatus :=
  (transfers.get? id.toText).map (·.status)

/-- What an event of a transfer makes of its status in the map. -/
def shows : FileDropEvent → Option TransferStatus → Option TransferStatus
  | .transferStarted .., _ => some .inProgress
  | .transferPaused _, old => old.map fun _ => .paused
  | .transferCompleted .., old => old.map fun _ => .completed
  | .transferFailed .., old => old.map fun _ => .failed

/-- The status of a transfer after its events. -/
def shown (events : List FileDropEvent) : Option TransferStatus :=
  events.foldl (fun status event => shows event status) none

/-- One event changes the status of its own transfer only. -/
theorem statusIn_handle (transfers : Flutter.ActiveTransfers) (event : FileDropEvent) (id : Uuid) :
    statusIn (Flutter.handle transfers (Flutter.toFileDropEvent event)) id =
      if about event = id then shows event (statusIn transfers id) else statusIn transfers id := by
  have texts {other : Uuid} (apart : other ≠ id) : id.toText ≠ other.toText :=
    fun same => apart (Uuid.toText_injective same).symm
  -- an event that changes the entry of its transfer, if there is one
  have changes (other : Uuid) (change : Flutter.TransferProgress → Flutter.TransferProgress)
      (status : TransferStatus) (becomes : ∀ existing, (change existing).status = status) :
      statusIn (transfers.modify other.toText change) id =
      if other = id then (statusIn transfers id).map fun _ => status else statusIn transfers id := by
    by_cases mine : other = id
    · subst mine
      rw [if_pos rfl, statusIn, statusIn, InsertionMap.get?_modify_self, Option.map_map, Option.map_map]
      exact congrArg (Option.map · _) (funext becomes)
    · rw [if_neg mine, statusIn, statusIn, InsertionMap.get?_modify_ne _ _ (texts mine)]
  cases event with
  | transferStarted other fileName totalBytes =>
    by_cases mine : other = id
    · subst mine
      rw [if_pos (by rfl)]
      simp only [Flutter.toFileDropEvent, Flutter.handle, statusIn, InsertionMap.get?_insert_self,
        Option.map_some, shows]
    · have unlike : ¬about (.transferStarted other fileName totalBytes) = id := mine
      rw [if_neg unlike]
      simp only [Flutter.toFileDropEvent, Flutter.handle, statusIn,
        InsertionMap.get?_insert_ne _ _ (texts mine)]
  | transferPaused other =>
    rw [Flutter.toFileDropEvent, Flutter.handle_transferPaused]
    exact changes other (fun existing => existing.copyWith none (some .paused) none none) .paused
      fun _ => rfl
  | transferCompleted other digest =>
    rw [Flutter.toFileDropEvent, Flutter.handle_transferCompleted]
    exact changes other (fun existing => existing.copyWith none (some .completed) none none) .completed
      fun _ => rfl
  | transferFailed other error =>
    rw [Flutter.toFileDropEvent, Flutter.handle_transferFailed]
    exact changes other (fun existing => existing.copyWith none (some .failed) none (some error)) .failed
      fun _ => rfl

/-- The map follows the events of each transfer. -/
theorem statusIn_delivered (events : List FileDropEvent) (id : Uuid) :
    statusIn (Flutter.delivered events) id = shown (eventsAbout id events) := by
  induction events using List.reverseRecOn with
  | nil => rfl
  | append_singleton events event ih =>
    have last : Flutter.delivered (events ++ [event]) =
        Flutter.handle (Flutter.delivered events) (Flutter.toFileDropEvent event) := by
      simp only [Flutter.delivered, Flutter.activeTransfers, List.map_append, List.map_singleton,
        List.foldl_append, List.foldl_cons, List.foldl_nil]
    have added : eventsAbout id (events ++ [event]) = eventsAbout id events ++ eventsAbout id [event] :=
      List.filter_append ..
    rw [last, statusIn_handle, ih, added]
    by_cases mine : about event = id
    · simp [mine, shown, eventsAbout]
    · simp [mine, shown, eventsAbout]

/-- One more event. -/
theorem shown_append (events : List FileDropEvent) (event : FileDropEvent) :
    shown (events ++ [event]) = shows event (shown events) := by
  simp only [shown, List.foldl_append, List.foldl_cons, List.foldl_nil]

/-- A transfer whose events have no pause is not shown as paused. -/
theorem shown_unpaused {events : List FileDropEvent} (none : ∀ event ∈ events, isPause event = false) :
    shown events ≠ some .paused := by
  induction events using List.reverseRecOn with
  | nil => simp [shown]
  | append_singleton events event ih =>
    have before : shown events ≠ some .paused := ih fun other member =>
      none other (List.mem_append_left _ member)
    have last : isPause event = false := none event (by simp)
    rw [shown_append]
    cases event with
    | transferStarted => simp [shows]
    | transferPaused => cases last
    | transferCompleted | transferFailed => cases shown events <;> simp [shows]

/-! ## The three views -/

section

variable {κ χ ρ Net Choice : Type}

/-- `get_transfer_status` reports a status. -/
def Reports (network : Meaning netSig Net Choice) (world : DeviceWorld Net) (id : Uuid)
    (status : TransferStatus) : Prop :=
  ∃ choices progress after, (getTransferStatus id).solo (deviceExec network) choices world =
    some (.ok (some progress), after) ∧ progress.status = status

/-- The map and the report say that a send is paused exactly when its session is. -/
structure Agrees (network : Meaning netSig Net Choice) (world : DeviceWorld Net) (id : Uuid)
    (session : TransferSession) : Prop where
  map : statusIn (Flutter.delivered world.engine.events) id = some .paused ↔
    world.engine.cells.isPaused session.cell = true
  report : Reports network world id .paused ↔ world.engine.cells.isPaused session.cell = true

/-- The report never is `Paused`. -/
theorem not_reports (network : Meaning netSig Net Choice) (world : DeviceWorld Net) (id : Uuid) :
    ¬Reports network world id .paused := by
  rintro ⟨choices, progress, after, ran, status⟩
  cases found : world.engine.queue.findSession id with
  | none =>
    simp [getTransferStatus, withSession, solo, deviceExec, found] at ran
  | some session =>
    simp only [getTransferStatus, withSession, solo, deviceExec, found, Option.bind_some,
      Option.some.injEq, Prod.mk.injEq, Except.ok.injEq] at ran
    rw [← ran.1] at status
    cases status

/-- The views agree exactly when neither the session nor the map is paused. -/
theorem agrees_iff {network : Meaning netSig Net Choice} {world : DeviceWorld Net} {id : Uuid}
    {session : TransferSession} : Agrees network world id session ↔
      world.engine.cells.isPaused session.cell = false ∧
        statusIn (Flutter.delivered world.engine.events) id ≠ some .paused := by
  have never := not_reports network world id
  constructor
  · intro agrees
    have running : ¬world.engine.cells.isPaused session.cell = true := fun paused =>
      never (agrees.report.mpr paused)
    exact ⟨Bool.eq_false_iff.mpr running, fun shown => running (agrees.map.mp shown)⟩
  · rintro ⟨running, plain⟩
    have unpaused : ¬world.engine.cells.isPaused session.cell = true := by simp [running]
    exact ⟨iff_of_false plain unpaused, iff_of_false never unpaused⟩

end

/-! ## Whose flag is stored -/

section

variable {Net Choice : Type} {network : Meaning netSig Net Choice} {world after : DeviceWorld Net}
variable {op : DeviceOp} {choice : DeviceChoice Choice} {result : op.Result}

/-- What an operation does to the active list: it takes entries away, or adds one with a new cell. -/
theorem exec_active (ran : deviceExec network world op choice = some (result, after)) :
    after.engine.queue.active ⊆ world.engine.queue.active ∨
      ∃ entry session, after.engine.queue.active = world.engine.queue.active ++ [(entry, session)] ∧
        session.id = entry.id ∧ session.cell = world.engine.cells.fresh ∧
        after.engine.cells = (world.engine.cells.allocate 0).2 := by
  cases deviceExec_touches ran with
  | activate entry session active named cell sessions cells =>
    exact .inr ⟨entry, session, active, named, cell, cells⟩
  | finish id fewer => exact .inl fewer
  | still _ active | insert _ _ _ _ _ _ active | remove _ active | pause _ active | resume _ active
  | cancel _ active =>
    left
    rw [active]
    exact List.Subset.refl _

/-- The flag of a cell that was made is set by a pause of its session only. -/
structure FlagsKept (op : DeviceOp) (before after : SessionCells) : Prop where
  fresh : before.fresh ≤ after.fresh
  paused : ∀ cell < before.fresh, after.isPaused cell = true →
    before.isPaused cell = true ∨ ∃ session, op = .pause session ∧ session.cell = cell

/-- Cells whose flags are as they were. -/
theorem FlagsKept.of_kept {before after : SessionCells} (kept : SessionCells.Kept before after) :
    FlagsKept op before after where
  fresh := kept.fresh
  paused cell made paused := .inl (by rwa [← kept.paused cell made])

/-- No operation but a pause sets the flag of a cell that was made. -/
theorem exec_flags (ran : deviceExec network world op choice = some (result, after)) :
    FlagsKept op world.engine.cells after.engine.cells := by
  cases deviceExec_touches ran with
  | still _ active sessions cells => exact .of_kept cells
  | activate queued session active named cell sessions cells =>
    rw [cells]
    exact .of_kept (SessionCells.kept_allocate ..)
  | insert transferId fileName totalBytes initial session cell active sessions cells =>
    rw [cells]
    exact .of_kept (SessionCells.kept_allocate ..)
  | finish id fewer sessions cells | remove id active sessions cells =>
    rw [cells]
    exact .of_kept (.refl _)
  | pause session active sessions cells =>
    rw [cells]
    refine ⟨Nat.le_refl _, fun cell made paused => ?_⟩
    rw [SessionCells.pause, SessionCells.isPaused_setPaused] at paused
    split at paused
    · rename_i mine
      exact .inr ⟨session, rfl, mine.symm⟩
    · exact .inl paused
  | resume session active sessions cells =>
    rw [cells]
    refine ⟨Nat.le_refl _, fun cell made paused => .inl ?_⟩
    rw [SessionCells.resume, SessionCells.isPaused_setPaused] at paused
    split at paused
    · cases paused
    · exact paused
  | cancel session active sessions cells =>
    rw [cells]
    refine ⟨Nat.le_refl _, fun cell made paused => .inl ?_⟩
    rwa [SessionCells.isPaused_cancel] at paused

/-- A session has a cell that was made, and that no active session of another transfer has. -/
def OwnCell (world : DeviceWorld Net) (session : TransferSession) : Prop :=
  session.cell < world.engine.cells.fresh ∧
    ∀ active ∈ world.engine.queue.active, active.2.cell = session.cell → active.2.id = session.id

/-- Every active session has its entry's id, and a cell of its own. -/
structure Owned (world : DeviceWorld Net) : Prop where
  named : ∀ active ∈ world.engine.queue.active, active.2.id = active.1.id
  own : ∀ active ∈ world.engine.queue.active, OwnCell world active.2

/-- A cell that was made stays that of one transfer. -/
theorem OwnCell.step {session : TransferSession} (own : OwnCell world session)
    (ran : deviceExec network world op choice = some (result, after)) : OwnCell after session := by
  refine ⟨Nat.lt_of_lt_of_le own.1 (exec_flags ran).fresh, fun active listed same => ?_⟩
  rcases exec_active ran with fewer | ⟨entry, new, added, -, cell, -⟩
  · exact own.2 active (fewer listed) same
  · rw [added] at listed
    rcases List.mem_append.mp listed with old | last
    · exact own.2 active old same
    · rw [List.mem_singleton.mp last, cell] at same
      exact absurd same.symm (Nat.ne_of_lt own.1)

/-- The active sessions keep to their own cells. -/
theorem Owned.step (owned : Owned world)
    (ran : deviceExec network world op choice = some (result, after)) : Owned after := by
  rcases exec_active ran with fewer | ⟨entry, new, added, named, cell, cells⟩
  · exact ⟨fun active listed => owned.named active (fewer listed),
      fun active listed => (owned.own active (fewer listed)).step ran⟩
  · refine ⟨fun active listed => ?_, fun active listed => ?_⟩
    · rw [added] at listed
      rcases List.mem_append.mp listed with old | last
      · exact owned.named active old
      · rw [List.mem_singleton.mp last]
        exact named
    · rw [added] at listed
      rcases List.mem_append.mp listed with old | last
      · exact (owned.own active old).step ran
      · rw [List.mem_singleton.mp last]
        refine ⟨?_, fun other there same => ?_⟩
        · rw [cells, cell]
          exact Nat.lt_succ_self _
        · rw [added] at there
          rcases List.mem_append.mp there with old | again
          · have apart := Nat.ne_of_lt (owned.own other old).1
            exact absurd (same.trans cell) apart
          · rw [List.mem_singleton.mp again]

/-- A session that is found has its own cell, under the id that was looked up. -/
theorem Owned.found (owned : Owned world) {id : Uuid} {session : TransferSession}
    (found : world.engine.queue.findSession id = some session) :
    session.id = id ∧ OwnCell world session := by
  obtain ⟨active, search, rfl⟩ := Option.map_eq_some_iff.mp found
  have listed := List.mem_of_find?_eq_some search
  have entry : active.1.id = id := by simpa using List.find?_some search
  exact ⟨(owned.named active listed).trans entry, owned.own active listed⟩

end

/-! ## Pause calls -/

/-- A pause call after its lookup. -/
def afterLookup (id : Uuid) : Option TransferSession → Program deviceSig Ended
  | some session =>
    .perform (.pause session) fun _ =>
    .perform (.engine (.emit (.transferPaused id))) fun _ => .done (.control (.ok none))
  | none => .done (.control (.error ("transfer " ++ id.toText ++ " not active")))

/-- What is left of a pause call: it looks its id up, stores the flag of the session it found, and
announces the pause. -/
inductive PauseCall (id : Uuid) : Program deviceSig Ended → Prop where
  | called : PauseCall id (.perform (.findSession id) (afterLookup id))
  | found (session : TransferSession) (named : session.id = id) :
      PauseCall id (afterLookup id (some session))
  | stored : PauseCall id
      (.perform (.engine (.emit (.transferPaused id))) fun _ => .done (.control (.ok none)))
  | returned (result : Controlled) : PauseCall id (.done (.control result))

/-- The operations of the other control calls. -/
def plainOp : DeviceOp → Bool
  | .findSession _ | .resume _ | .cancel _ | .progress .. => true
  | _ => false

/-- What is left of a control call is what is left of a pause call, or neither stores nor announces a
pause. -/
def Controlling (program : Program deviceSig Ended) : Prop :=
  (∃ id, PauseCall id program) ∨ program.Only plainOp

/-- A lookup, and what follows it. -/
theorem withSession_plain {id : Uuid} {missing : String}
    {found : TransferSession → Program deviceSig Controlled}
    (later : ∀ session, (found session).Only plainOp) :
    (withSession id missing found).Only plainOp := by
  refine ⟨rfl, fun session => ?_⟩
  cases session with
  | none => trivial
  | some session => exact later session

/-- At its beginning, a control call. -/
theorem controlling_program (control : Control) :
    Controlling (control.program.bind fun result => .done (.control result)) := by
  have returns (result : Controlled) :
      (done (Ended.control result) : Program deviceSig Ended).Only plainOp := trivial
  have other {program : Program deviceSig Controlled} (plain : program.Only plainOp) :
      (program.bind fun result => done (Ended.control result)).Only plainOp := plain.bind returns
  cases control with
  | pause id =>
    have same : (pauseTransfer id).bind (fun result => done (Ended.control result)) =
        .perform (.findSession id) (afterLookup id) := by
      show Program.perform _ _ = Program.perform _ _
      congr 1
      funext found
      cases found <;> rfl
    refine .inl ⟨id, ?_⟩
    show PauseCall id ((pauseTransfer id).bind fun result => done (Ended.control result))
    rw [same]
    exact .called
  | resume id => exact .inr (other (withSession_plain fun session => ⟨rfl, fun _ => trivial⟩))
  | cancel id => exact .inr (other (withSession_plain fun session => ⟨rfl, fun _ => trivial⟩))
  | status id => exact .inr (other (withSession_plain fun session => ⟨rfl, fun _ => trivial⟩))

section

variable {κ χ ρ Net Choice : Type} [DecidableEq κ] [DecidableEq χ] [DecidableEq ρ]
variable {usage : Usage κ χ ρ} {network : Meaning netSig Net Choice} {net : Net}
variable {files : FileStore Path} {before after reached : Running κ χ ρ Net}
variable {allowed : Running κ χ ρ Net → Actor κ χ ρ → DeviceChoice Choice → Prop}

/-- What holds of the control calls and of the sessions they can find. -/
structure Ready (pool : Running κ χ ρ Net) : Prop where
  owned : Owned pool.world.device
  calls : ∀ n, Controlling (pool.threads (.control n))
  /-- A call that is about to store a flag has found a session with a cell of its own. -/
  pausers : ∀ n session next, pool.threads (.control n) = .perform (.pause session) next →
    OwnCell pool.world.device session

/-- A call that stores a flag is about to announce the pause. -/
theorem stores_announces {session : TransferSession} {next : Unit → Program deviceSig Ended}
    (call : Controlling (.perform (.pause session) next)) : pausing (next ()) = some session.id := by
  rcases call with ⟨id, call⟩ | plain
  · cases call with
    | found _ named => exact congrArg some named.symm
  · cases plain.1

/-- What an operation of a control call leads to: the call stores the flag of a session it has found,
and announces a pause it has stored. -/
structure Proceeds (world : DeviceWorld Net) (op : DeviceOp) (rest : Program deviceSig Ended) :
    Prop where
  controlling : Controlling rest
  pausers : ∀ session next, rest = .perform (.pause session) next → OwnCell world session
  pausing : ∀ id, pausing rest = some id → ∃ session, op = .pause session ∧ session.id = id

/-- One step of a control call. -/
theorem controlling_step {op : DeviceOp} {next : op.Result → Program deviceSig Ended}
    {world last : DeviceWorld Net} {choice : DeviceChoice Choice} {result : op.Result}
    (call : Controlling (.perform op next)) (owned : Owned world)
    (ran : deviceExec network world op choice = some (result, last)) :
    Proceeds world op (next result) := by
  have ended (id : Uuid) (value : Controlled) : Proceeds world op (.done (.control value)) := by
    refine ⟨.inl ⟨id, .returned _⟩, fun session rest same => ?_, fun other same => ?_⟩
    · cases same
    · cases same
  rcases call with ⟨id, call⟩ | plain
  · cases call with
    | called =>
      obtain ⟨rfl, -⟩ := Prod.mk.inj (Option.some.inj ran)
      cases search : world.engine.queue.findSession id with
      | none => exact ended id _
      | some session =>
        obtain ⟨named, own⟩ := owned.found search
        refine ⟨.inl ⟨id, .found session named⟩, fun other rest same => ?_, fun other same => ?_⟩
        · injection same with sameOp
          injection sameOp with same
          rw [← same]
          exact own
        · cases same
    | found session named =>
      refine ⟨.inl ⟨id, .stored⟩, fun other rest same => ?_, fun other same => ?_⟩
      · cases same
      · exact ⟨session, rfl, named.trans (Option.some.inj same)⟩
    | stored => exact ended id _
  · have later := plain.2 result
    refine ⟨.inr later, fun session rest same => ?_, fun id same => ?_⟩
    · rw [same] at later
      cases later.1
    · cases left : next result with
      | done value =>
        rw [left] at same
        cases same
      | perform op rest =>
        rw [left] at later same
        have silent : op.emits = [] := by
          have kind := later.1
          cases op with
          | engine | post | handChunk | response | pause | server => cases kind
          | findSession | resume | cancel | progress => rfl
        rw [pausing_silent rest silent] at same
        cases same

/-- The control calls go on as such. -/
theorem Ready.step (ready : Ready before) {i : Actor κ χ ρ} {choice : DeviceChoice Choice}
    (stepped : before.step (track network) i choice = some after) : Ready after := by
  obtain ⟨op, next, result, world, waiting, ran, rfl⟩ := Pool.step_cases stepped
  have moved := track_device ran
  refine ⟨ready.owned.step moved, fun n => ?_, fun n session rest same => ?_⟩
  · by_cases mine : .control n = i
    · subst mine
      have call := ready.calls n
      rw [waiting] at call
      simp only [Function.update_self]
      exact (controlling_step call ready.owned moved).controlling
    · simp only [Function.update_of_ne mine]
      exact ready.calls n
  · by_cases mine : .control n = i
    · subst mine
      have call := ready.calls n
      rw [waiting] at call
      simp only [Function.update_self] at same
      exact ((controlling_step call ready.owned moved).pausers session rest same).step moved
    · simp only [Function.update_of_ne mine] at same
      exact (ready.pausers n session rest same).step moved

/-- The control calls of every run. -/
theorem ready_reached
    (path : Pool.Reaches (track network) allowed (start usage net files) reached) : Ready reached := by
  induction path with
  | refl =>
    refine ⟨⟨fun _ listed => (nomatch listed), fun _ listed => (nomatch listed)⟩,
      fun n => controlling_program (usage.controls n), fun n session next same => ?_⟩
    have first : (usage.controls n).program.bind (fun result => done (.control result)) =
        .perform (.pause session) next := same
    cases called : usage.controls n with
    | pause | resume | cancel | status =>
      rw [called] at first
      injection first with sameOp
      cases sameOp
  | tail _ last ih =>
    obtain ⟨i, choice, -, stepped⟩ := last
    exact ih.step stepped

end

/-! ## Until the first pause -/

section

variable {κ χ ρ Net Choice : Type} {usage : Usage κ χ ρ} {before : Running κ χ ρ Net}

/-- The transfer whose flag a program is about to store as paused. -/
def storing {α : Type} : Program deviceSig α → Option Uuid
  | .perform (.pause session) _ => some session.id
  | _ => none

/-- A program that stores a pause has a session of that transfer. -/
theorem storing_eq_some {α : Type} {program : Program deviceSig α} {id : Uuid}
    (stores : storing program = some id) :
    ∃ session next, program = .perform (.pause session) next ∧ session.id = id := by
  unfold storing at stores
  split at stores
  · rename_i session next
    exact ⟨session, next, rfl, Option.some.inj stores⟩
  · cases stores

/-- A step stores no pause of a transfer. -/
def Unpaused (id : Uuid) (pool : Running κ χ ρ Net) (i : Actor κ χ ρ) (_ : DeviceChoice Choice) : Prop :=
  storing (pool.threads i) ≠ some id

/-- No pause of a transfer has been stored, and so none announced. -/
structure Calm (id : Uuid) (pool : Running κ χ ρ Net) : Prop where
  flags : ∀ active ∈ (queue pool).active, active.2.id = id →
    pool.world.device.engine.cells.isPaused active.2.cell = false
  quiet : ∀ i, pausing (pool.threads i) ≠ some id
  events : ∀ event ∈ eventsOf pool id, isPause event = false

/-- Only control calls store or announce a pause. -/
theorem control_pauses (fit : Fit usage before) (telling : Telling usage before) {i : Actor κ χ ρ}
    {op : DeviceOp} {next : op.Result → Program deviceSig Ended}
    (waiting : before.threads i = .perform op next)
    (pauses : (∃ session, op = .pause session) ∨ ∃ id, op = .engine (.emit (.transferPaused id))) :
    ∃ n, i = .control n := by
  cases i with
  | control n => exact ⟨n, rfl⟩
  | call n =>
    have always := fit.calls n
    rw [waiting] at always
    rcases pauses with ⟨session, rfl⟩ | ⟨id, rfl⟩
    · exact (always.1 ()).elim
    · exact (always.1 ()).elim
  | upload n =>
    have only := fit.uploads n
    rw [waiting] at only
    rcases pauses with ⟨session, rfl⟩ | ⟨id, rfl⟩
    · cases only.1
    · cases only.1
  | task worker =>
    rcases fit.tasks worker with first | ⟨always, -⟩
    · rw [waiting] at first
      injection first with sameOp
      rcases pauses with ⟨session, rfl⟩ | ⟨id, rfl⟩
      · cases sameOp
      · cases sameOp
    · rcases telling worker with first | told
      · rw [waiting] at first
        injection first with sameOp
        rcases pauses with ⟨session, rfl⟩ | ⟨id, rfl⟩
        · cases sameOp
        · cases sameOp
      · rw [waiting] at always told
        rcases pauses with ⟨session, rfl⟩ | ⟨id, rfl⟩
        · exact (always.1.2.1 ()).elim
        · exact (told.1 ()).elim

/-- Only control calls are about to announce a pause. -/
theorem control_announces (fit : Fit usage before) (telling : Telling usage before) {i : Actor κ χ ρ}
    {id : Uuid} (announces : pausing (before.threads i) = some id) : ∃ n, i = .control n := by
  cases waiting : before.threads i with
  | done value =>
    rw [waiting] at announces
    cases announces
  | perform op next =>
    rw [waiting] at announces
    have emits : ∃ id, op = .engine (.emit (.transferPaused id)) := by
      unfold pausing at announces
      split at announces
      · rename_i other rest same
        injection same with sameOp
        exact ⟨other, sameOp⟩
      · cases announces
    exact control_pauses fit telling waiting (.inr emits)

/-- What the tasks announce is no pause. -/
theorem advance_unpaused {phase later : Phase} {new : List FileDropEvent}
    (advance : Advance phase later new) : ∀ event ∈ new, isPause event = false := by
  intro event member
  cases advance with
  | quiet => cases member
  | start only starts =>
    rw [List.mem_singleton.mp member]
    cases only with
    | transferStarted => rfl
    | transferPaused | transferCompleted | transferFailed => cases starts
  | finish only ends =>
    rw [List.mem_singleton.mp member]
    cases only with
    | transferCompleted | transferFailed => rfl
    | transferStarted | transferPaused => cases ends

end

section

variable {κ χ ρ Net Choice : Type} [DecidableEq κ] [DecidableEq χ] [DecidableEq ρ]
variable {usage : Usage κ χ ρ} {network : Meaning netSig Net Choice} {net : Net}
variable {files : FileStore Path} {before after reached : Running κ χ ρ Net}
variable {allowed : Running κ χ ρ Net → Actor κ χ ρ → DeviceChoice Choice → Prop}

/-- The sessions of a transfer stay unpaused in a step that stores no pause of it. -/
theorem Calm.flags_step {id : Uuid} (calm : Calm id before) (ready : Ready before)
    (fit : Fit usage before) (telling : Telling usage before) {i : Actor κ χ ρ}
    {choice : DeviceChoice Choice} (unpaused : Unpaused id before i choice)
    (stepped : before.step (track network) i choice = some after) :
    ∀ active ∈ (queue after).active, active.2.id = id →
      after.world.device.engine.cells.isPaused active.2.cell = false := by
  obtain ⟨op, next, result, world, waiting, ran, rfl⟩ := Pool.step_cases stepped
  have moved := track_device ran
  have kept : ∀ one ∈ (queue before).active, one.2.id = id →
      world.device.engine.cells.isPaused one.2.cell = false := by
    intro one there named
    refine Bool.eq_false_iff.mpr fun paused => ?_
    rcases (exec_flags moved).paused _ (ready.owned.own one there).1 paused with
      was | ⟨session, rfl, cell⟩
    · rw [calm.flags one there named] at was
      cases was
    · obtain ⟨n, rfl⟩ := control_pauses fit telling waiting (.inl ⟨session, rfl⟩)
      have own := ready.pausers n session next waiting
      have mine : session.id = id := (own.2 one there cell.symm).symm.trans named
      refine unpaused ?_
      rw [waiting]
      exact congrArg some mine
  intro active listed mine
  rcases exec_active moved with fewer | ⟨entry, session, added, -, cell, cells⟩
  · exact kept active (fewer listed) mine
  · have listed : active ∈ world.device.engine.queue.active := listed
    rw [added] at listed
    rcases List.mem_append.mp listed with old | new
    · exact kept active old mine
    · rw [List.mem_singleton.mp new]
      show world.device.engine.cells.isPaused session.cell = false
      rw [cell, cells]
      exact (SessionCells.allocate_calm _ _).1

/-- Nobody comes to announce a pause of it. -/
theorem Calm.quiet_step {id : Uuid} (calm : Calm id before) (ready : Ready before)
    (fit : Fit usage after) (telling : Telling usage after) {i : Actor κ χ ρ}
    {choice : DeviceChoice Choice} (unpaused : Unpaused id before i choice)
    (stepped : before.step (track network) i choice = some after) (j : Actor κ χ ρ) :
    pausing (after.threads j) ≠ some id := by
  intro announces
  obtain ⟨n, rfl⟩ := control_announces fit telling announces
  obtain ⟨op, next, result, world, waiting, ran, rfl⟩ := Pool.step_cases stepped
  by_cases mover : .control n = i
  · subst mover
    have call := ready.calls n
    rw [waiting] at call
    simp only [Function.update_self] at announces
    obtain ⟨session, rfl, named⟩ :=
      (controlling_step call ready.owned (track_device ran)).pausing id announces
    refine unpaused ?_
    rw [waiting]
    exact congrArg some named
  · simp only [Function.update_of_ne mover] at announces
    exact calm.quiet _ announces

/-- A step that stores no pause of a transfer keeps the calm. -/
theorem Calm.step {id : Uuid} (calm : Calm id before) (ready : Ready before)
    (path : Pool.Reaches (track network) allowed (start usage net files) before)
    (later : Pool.Reaches (track network) allowed (start usage net files) after)
    {i : Actor κ χ ρ} {choice : DeviceChoice Choice} (unpaused : Unpaused id before i choice)
    (stepped : before.step (track network) i choice = some after) : Calm id after := by
  have free : ∀ pool i choice, allowed pool i choice → TakesTurn (fun _ _ => True) pool i :=
    fun _ _ _ _ _ _ _ _ _ _ => trivial
  have fit := (device_refines free path).1
  have fitAfter := (device_refines free later).1
  refine ⟨calm.flags_step ready fit (telling_reached path) unpaused stepped,
    calm.quiet_step ready fitAfter (telling_reached later) unpaused stepped, fun event member => ?_⟩
  rcases reached_events path stepped id with ⟨announces, -⟩ | ⟨-, new, advance, added⟩
  · exact absurd announces (calm.quiet i)
  · rw [added] at member
    rcases List.mem_append.mp member with old | fresh
    · exact calm.events event old
    · exact advance_unpaused advance event fresh

/-- While no pause of a transfer is stored, all is calm. -/
theorem calm_reached {id : Uuid}
    (path : Pool.Reaches (track network) (Unpaused id) (start usage net files) reached) :
    Calm id reached := by
  induction path with
  | refl =>
    let allowed : Running κ χ ρ Net → Actor κ χ ρ → DeviceChoice Choice → Prop := Unpaused id
    have path : Pool.Reaches (track network) allowed (start usage net files) (start usage net files) :=
      .refl
    have ready := ready_reached path
    have free : ∀ (pool : Running κ χ ρ Net) i (choice : DeviceChoice Choice),
        allowed pool i choice → TakesTurn (fun _ _ => True) pool i :=
      fun _ _ _ _ _ _ _ _ _ _ => trivial
    refine ⟨fun _ listed => (nomatch listed), fun i announces => ?_, fun _ member => (nomatch member)⟩
    obtain ⟨n, rfl⟩ := control_announces (device_refines free path).1 (telling_reached path) announces
    have first : pausing ((usage.controls n).program.bind fun result =>
        done (Ended.control result)) = some id := announces
    cases called : usage.controls n with
    | pause | resume | cancel | status =>
      rw [called] at first
      cases first
  | tail rest last ih =>
    obtain ⟨i, choice, unpaused, stepped⟩ := last
    exact ih.step (ready_reached rest) rest (rest.tail ⟨i, choice, unpaused, stepped⟩) unpaused stepped

/-! ## From the first pause on -/

/-- What a step adds to the events of a transfer shows in the map. -/
theorem started_reached
    (path : Pool.Reaches (track network) allowed (start usage net files) reached) (id : Uuid)
    (begun : phase reached id ≠ .ahead) : (shown (eventsOf reached id)).isSome := by
  induction path with
  | refl => exact absurd rfl begun
  | tail rest last ih =>
    obtain ⟨i, choice, -, stepped⟩ := last
    rcases reached_events rest stepped id with ⟨-, same, added⟩ | ⟨-, new, advance, added⟩
    · rw [same] at begun
      rw [added, shown_append, shows, Option.isSome_map]
      exact ih begun
    · rw [added]
      generalize phase _ id = before at advance ih
      generalize phase _ id = after at advance begun
      cases advance with
      | quiet =>
        rw [List.append_nil]
        exact ih begun
      | start event starts =>
        rw [shown_append]
        cases event with
        | transferStarted => rfl
        | transferPaused | transferCompleted | transferFailed => cases starts
      | finish event ends =>
        rw [shown_append]
        have there := ih (by decide)
        cases event with
        | transferStarted | transferPaused => cases ends
        | transferCompleted | transferFailed => rwa [shows, Option.isSome_map]

/-- A pause of a transfer is about to be announced, or the map shows it. -/
def Marked (id : Uuid) (pool : Running κ χ ρ Net) : Prop :=
  (∃ i, pausing (pool.threads i) = some id) ∨ shown (eventsOf pool id) = some .paused

/-- A mark stays until the transfer has ended. -/
theorem marked_run {id : Uuid}
    (path : Pool.Reaches (track network) (fun _ _ _ => True) (start usage net files) before)
    (later : Pool.Reaches (track network) (fun _ _ _ => True) before reached)
    (begun : phase before id = .underway) (marked : Marked id before) :
    phase reached id = .finished ∨ phase reached id = .underway ∧ Marked id reached := by
  induction later with
  | refl => exact .inr ⟨begun, marked⟩
  | tail rest last ih =>
    obtain ⟨i, choice, -, stepped⟩ := last
    have whole := path.trans rest
    rcases reached_events whole stepped id with ⟨-, same, added⟩ | ⟨other, new, advance, added⟩
    · rw [same]
      rcases ih with finished | ⟨underway, -⟩
      · exact .inl finished
      · refine .inr ⟨underway, .inr ?_⟩
        have there := started_reached whole id (by rw [underway]; decide)
        obtain ⟨status, shows⟩ := Option.isSome_iff_exists.mp there
        rw [added, shown_append, shows]
        rfl
    · rcases ih with finished | ⟨underway, marked⟩
      · rw [finished] at advance
        generalize phase _ id = after at advance ⊢
        cases advance
        exact .inl rfl
      · rw [underway] at advance
        generalize left : phase _ id = after at advance ⊢
        cases advance with
        | finish => exact .inl rfl
        | quiet =>
          refine .inr ⟨rfl, ?_⟩
          rcases marked with ⟨j, announces⟩ | shows
          · obtain ⟨op, next, result, world, waiting, ran, rfl⟩ := Pool.step_cases stepped
            have apart : j ≠ i := fun same => other (same ▸ announces)
            refine .inl ⟨j, ?_⟩
            simp only [Function.update_of_ne apart]
            exact announces
          · right
            rw [added, List.append_nil]
            exact shows

/-- In every run in which no pause of a transfer has been stored, whatever else was called: while its
session is active, the map and the report agree with its flag. From the first pause on that a send
stores between its start and its end, they do not agree again as long as it is sent: not in any later
state in which no pause call is about to announce its pause. -/
theorem views_agree {begun : Running κ χ ρ Net} {id : Uuid} {session : TransferSession}
    (path : Pool.Reaches (track network) (Unpaused id) (start usage net files) begun)
    (active : Active begun.world.device id session) :
    Agrees network begun.world.device id session ∧
      ∀ i choice stored, begun.step (track network) i choice = some stored →
        ¬Unpaused id begun i choice → phase begun id = .underway →
        ∀ reached, Pool.Reaches (track network) (fun _ _ _ => True) stored reached →
          phase reached id = .underway → (∀ j, pausing (reached.threads j) ≠ some id) →
          ¬Agrees network reached.world.device id session := by
  have ready := ready_reached path
  have calm := calm_reached path
  refine ⟨agrees_iff.mpr ⟨?_, ?_⟩, ?_⟩
  · obtain ⟨entry, listed, named⟩ := active
    exact calm.flags (entry, session) listed ((ready.owned.named _ listed).trans named)
  · rw [statusIn_delivered]
    exact shown_unpaused calm.events
  · intro i choice stored stepped pauses underway reached later still quiet agrees
    have free : Pool.Reaches (track network) (fun _ _ _ => True) (start usage net files) begun :=
      Pool.reaches_mono (fun _ _ _ _ => trivial) path
    have whole := free.tail ⟨i, choice, trivial, stepped⟩
    have marked : phase stored id = .underway ∧ Marked id stored := by
      obtain ⟨session, next, waiting, named⟩ := storing_eq_some (not_not.mp pauses)
      have turns : ∀ (pool : Running κ χ ρ Net) i (_ : DeviceChoice Choice), True →
          TakesTurn (fun _ _ => True) pool i := fun _ _ _ _ _ _ _ _ _ _ => trivial
      obtain ⟨n, rfl⟩ := control_pauses (device_refines turns free).1 (telling_reached free) waiting
        (.inl ⟨session, rfl⟩)
      obtain ⟨op, rest, result, world, waits, ran, rfl⟩ := Pool.step_cases stepped
      obtain ⟨rfl, same⟩ := Program.perform.inj (waiting.symm.trans waits)
      obtain rfl := eq_of_heq same
      have call := ready.calls n
      rw [waiting] at call
      refine ⟨?_, .inl ⟨.control n, ?_⟩⟩
      · have task : Actor.task id ≠ (.control n : Actor κ χ ρ) := nofun
        simp only [phase, Function.update_of_ne task]
        exact underway
      · simp only [Function.update_self]
        rw [← named]
        exact stores_announces call
    rcases marked_run whole later marked.1 marked.2 with finished | ⟨-, ⟨j, announces⟩ | shows⟩
    · rw [finished] at still
      cases still
    · exact quiet j announces
    · refine (agrees_iff.mp agrees).2 ?_
      rw [statusIn_delivered]
      exact shows

end

/-! ## A send that is paused and resumed -/

instance (id : Uuid) (pool : Running Unit Control Unit Unit) (i : Actor Unit Control Unit)
    (choice : DeviceChoice Unit) : Decidable (Unpaused id pool i choice) :=
  inferInstanceAs (Decidable (_ ≠ _))

/-- The first file of the sample device is being sent, and a pause call for it has found its session. -/
def sampleBegun : Option (Running Unit Control Unit Unit) :=
  Pool.run (track sampleNetwork) (Unpaused ⟨7⟩)
    (callSteps ++ taskSteps ⟨7⟩ 5 ++ steps (.control (.pause ⟨7⟩)) 1 ⟨0⟩) (start sampleUsage () .empty)

/-- The pause call stores the flag, announces the pause and returns, and then a resume call for the file
runs to its end. -/
def sampleResumed (begun : Running Unit Control Unit Unit) : Option (Running Unit Control Unit Unit) :=
  Pool.run (track sampleNetwork) (fun _ _ _ => True)
    (steps (.control (.pause ⟨7⟩)) 2 ⟨0⟩ ++ steps (.control (.resume ⟨7⟩)) 2 ⟨0⟩) begun

/-- In the sample run no other control call is made. -/
theorem sample_untouched {begun reached : Running Unit Control Unit Unit} (first : sampleBegun = some begun)
    (later : sampleResumed begun = some reached) {control : Control} (other : control ≠ .pause ⟨7⟩)
    (another : control ≠ .resume ⟨7⟩) :
    reached.threads (.control control) = sampleUsage.program (.control control) := by
  have apart : (.control control : Actor Unit Control Unit) ∉ ((steps (.control (.pause ⟨7⟩)) 2 ⟨0⟩ ++
      steps (.control (.resume ⟨7⟩)) 2 ⟨0⟩).map (·.1)) := by
    simp [steps]
    exact ⟨other, another⟩
  have before : (.control control : Actor Unit Control Unit) ∉ ((callSteps ++ taskSteps ⟨7⟩ 5 ++
      steps (.control (.pause ⟨7⟩)) 1 ⟨0⟩).map (·.1)) := by
    simp [callSteps, taskSteps, steps]
    exact other
  rw [Pool.run_apart later apart, Pool.run_apart first before]
  rfl

/-- What is seen of the sample run: which sends are active before and after, what the pause call stores
next, how far the first file is, what the map says of it, and that both calls have returned. -/
structure Seen where
  active : List Uuid
  still : List Uuid
  stores : Option Uuid
  before : Phase
  after : Phase
  shown : Option TransferStatus
  paused : Bool
  resumed : Bool
  deriving DecidableEq

/-- What is seen. -/
def seen (begun reached : Running Unit Control Unit Unit) : Seen where
  active := (queue begun).active.map (·.1.id)
  still := (queue reached).active.map (·.1.id)
  stores := storing (begun.threads (.control (.pause ⟨7⟩)))
  before := phase begun ⟨7⟩
  after := phase reached ⟨7⟩
  shown := shown (eventsOf reached ⟨7⟩)
  paused := (reached.threads (.control (.pause ⟨7⟩))).returned?.isSome
  resumed := (reached.threads (.control (.resume ⟨7⟩))).returned?.isSome

/-- The sample run. -/
theorem sample_seen : ∃ begun reached, sampleBegun = some begun ∧ sampleResumed begun = some reached ∧
    seen begun reached =
      ⟨[⟨7⟩], [⟨7⟩], some ⟨7⟩, .underway, .underway, some .paused, true, true⟩ := by
  have runs : (sampleBegun.bind fun begun => (sampleResumed begun).map (seen begun)) =
      some ⟨[⟨7⟩], [⟨7⟩], some ⟨7⟩, .underway, .underway, some .paused, true, true⟩ := by
    decide +kernel
  obtain ⟨begun, first, rest⟩ := Option.bind_eq_some_iff.mp runs
  obtain ⟨reached, later, same⟩ := Option.map_eq_some_iff.mp rest
  exact ⟨begun, reached, first, later, same⟩

/-- In the sample run, each control call has returned or was not made. -/
theorem sample_settled {begun reached : Running Unit Control Unit Unit} (first : sampleBegun = some begun)
    (later : sampleResumed begun = some reached)
    (same : seen begun reached =
      ⟨[⟨7⟩], [⟨7⟩], some ⟨7⟩, .underway, .underway, some .paused, true, true⟩)
    (control : Control) : (∃ value, reached.threads (.control control) = done value) ∨
      reached.threads (.control control) = sampleUsage.program (.control control) := by
  have paused : (seen begun reached).paused = true := by rw [same]
  have resumed : (seen begun reached).resumed = true := by rw [same]
  by_cases pause : control = .pause ⟨7⟩
  · subst pause
    obtain ⟨value, returned⟩ := Option.isSome_iff_exists.mp paused
    exact .inl ⟨value, returned?_eq_some returned⟩
  · by_cases resume : control = .resume ⟨7⟩
    · subst resume
      obtain ⟨value, returned⟩ := Option.isSome_iff_exists.mp resumed
      exact .inl ⟨value, returned?_eq_some returned⟩
    · exact .inr (sample_untouched first later pause resume)

/-- A control call that has returned or was not made is not about to announce a pause. -/
theorem settled_quiet {program : Program deviceSig Ended} {control : Control}
    (settled : (∃ value, program = done value) ∨ program = sampleUsage.program (.control control)) :
    pausing program = none := by
  rcases settled with ⟨value, rfl⟩ | rfl
  · rfl
  · cases control with
    | pause | resume | cancel | status => rfl

/-- A send whose entry is active has a session. -/
theorem sample_active {pool : Running Unit Control Unit Unit}
    (active : (queue pool).active.map (·.1.id) = [⟨7⟩]) :
    ∃ session, Active pool.world.device ⟨7⟩ session := by
  obtain ⟨⟨entry, session⟩, rest, listed, named, -⟩ := List.map_eq_cons_iff.mp active
  refine ⟨session, entry, ?_, named⟩
  show (entry, session) ∈ (queue pool).active
  rw [listed]
  exact List.mem_cons_self ..

/-- The views of a send agree until it is paused; after it is resumed they do not. -/
theorem views_agree_resumed : ∃ begun session reached, sampleBegun = some begun ∧
    sampleResumed begun = some reached ∧ Active begun.world.device ⟨7⟩ session ∧
    Agrees sampleNetwork begun.world.device ⟨7⟩ session ∧
    ¬Agrees sampleNetwork reached.world.device ⟨7⟩ session := by
  obtain ⟨begun, reached, first, later, same⟩ := sample_seen
  have path := Pool.reaches_of_run first
  have stores : storing (begun.threads (.control (.pause ⟨7⟩))) = some ⟨7⟩ := congrArg Seen.stores same
  have before : phase begun ⟨7⟩ = .underway := congrArg Seen.before same
  have after : phase reached ⟨7⟩ = .underway := congrArg Seen.after same
  obtain ⟨session, active⟩ := sample_active (congrArg Seen.active same)
  obtain ⟨stored, -, stepped, rest⟩ := Pool.run_cons later
  have settled := sample_settled first later same
  have whole := (Pool.reaches_mono (fun _ _ _ _ => trivial) path).trans (Pool.reaches_of_run later)
  have free : ∀ (pool : Running Unit Control Unit Unit) i (_ : DeviceChoice Unit), True →
      TakesTurn (fun _ _ => True) pool i := fun _ _ _ _ _ _ _ _ _ _ => trivial
  have quiet : ∀ j, pausing (reached.threads j) ≠ some ⟨7⟩ := by
    intro j announces
    obtain ⟨control, rfl⟩ := control_announces (device_refines free whole).1 (telling_reached whole)
      announces
    rw [settled_quiet (settled control)] at announces
    cases announces
  have agree := views_agree path active
  exact ⟨begun, session, reached, first, later, active, agree.1,
    agree.2 _ _ stored stepped (not_not.mpr stores) before reached (Pool.reaches_of_run rest) after quiet⟩

/-- The views of a send do not agree in every run: one that is paused and then resumed is still shown as
paused. -/
theorem views_agree_broken :
    ¬∀ (usage : Usage Unit Control Unit) (network : Meaning netSig Unit Unit)
      (files : FileStore Path) (reached : Running Unit Control Unit Unit),
      Pool.Reaches (track network) (fun _ _ _ => True) (start usage () files) reached →
      (∀ control, (∃ value, reached.threads (.control control) = done value) ∨
        reached.threads (.control control) = usage.program (.control control)) →
      ∀ id session, Active reached.world.device id session → phase reached id = .underway →
        Agrees network reached.world.device id session := by
  intro always
  obtain ⟨begun, reached, first, later, same⟩ := sample_seen
  have path := Pool.reaches_of_run first
  have whole := (Pool.reaches_mono (fun _ _ _ _ => trivial) path).trans (Pool.reaches_of_run later)
  have shows : shown (eventsOf reached ⟨7⟩) = some .paused := congrArg Seen.shown same
  obtain ⟨session, active⟩ := sample_active (congrArg Seen.still same)
  have agrees := always _ _ _ reached whole (sample_settled first later same) ⟨7⟩ session active
    (congrArg Seen.after same)
  refine (agrees_iff.mp agrees).2 ?_
  rw [statusIn_delivered]
  exact shows

end FileDrop.PauseViews
