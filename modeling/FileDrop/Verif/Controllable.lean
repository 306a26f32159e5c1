import FileDrop.Verif.Parallel

/-!
# Which sessions can be controlled

The control calls look an id up in the active list of the queue, and nowhere else. A send that is
active is found there, under its own id only. The sessions of uploads are in a map that no control
call reads, so they are out of reach, although their handlers wait for the flags.
-/
namespace FileDrop.Controllable
open FileDrop Effects Effects.Program Unix Sending Parallel

section

variable {Net Choice : Type} {network : Meaning netSig Net Choice}

/-! ## What a control call does -/

/-- A device after an event. -/
def emitted (world : DeviceWorld Net) (event : FileDropEvent) : DeviceWorld Net :=
  { world with engine := { world.engine with events := world.engine.events ++ [event] } }

/-- The four calls for an id return `Ok` and work on a session: they store its flags, and report its
progress. -/
structure Controls (network : Meaning netSig Net Choice) (world : DeviceWorld Net) (id : Uuid)
    (session : TransferSession) : Prop where
  pause : ∀ choices, (pauseTransfer id).solo (deviceExec network) choices world =
    some (.ok none, emitted (world.setCells (world.engine.cells.pause session.cell))
      (.transferPaused id))
  resume : ∀ choices, (resumeTransfer id).solo (deviceExec network) choices world =
    some (.ok none, world.setCells (world.engine.cells.resume session.cell))
  cancel : ∀ choices, (cancelTransfer id).solo (deviceExec network) choices world =
    some (.ok none, world.setCells (world.engine.cells.cancel session.cell))
  status : ∀ choices, (getTransferStatus id).solo (deviceExec network) choices world =
    some (.ok (some (session.progress world.engine.cells .inProgress none)), world)

/-- A session is live under an id. -/
inductive Live (world : DeviceWorld Net) (id : Uuid) (session : TransferSession) : Prop where
  | send (entry : QueuedTransfer) (listed : (entry, session) ∈ world.engine.queue.active)
      (named : entry.id = id)
  | receive (kept : world.sessions id = some session)

/-- A session is that of a send on the active list. -/
def Active (world : DeviceWorld Net) (id : Uuid) (session : TransferSession) : Prop :=
  ∃ entry, (entry, session) ∈ world.engine.queue.active ∧ entry.id = id

/-- A session that is found is controlled. -/
theorem controls_found {world : DeviceWorld Net} {id : Uuid} {session : TransferSession}
    (found : world.engine.queue.findSession id = some session) :
    Controls network world id session where
  pause choices := by
    simp only [pauseTransfer, withSession, solo, deviceExec, found, Option.bind_some]
    rfl
  resume choices := by
    simp only [resumeTransfer, withSession, solo, deviceExec, found, Option.bind_some]
  cancel choices := by
    simp only [cancelTransfer, withSession, solo, deviceExec, found, Option.bind_some]
  status choices := by
    simp only [getTransferStatus, withSession, solo, deviceExec, found, Option.bind_some]

/-- Nothing is controlled under an id that is not found. -/
theorem controls_missing {world : DeviceWorld Net} {id : Uuid} {session : TransferSession}
    (missing : world.engine.queue.findSession id = none) (choice : DeviceChoice Choice) :
    ¬Controls network world id session := by
  intro controls
  have paused := controls.pause fun _ => choice
  simp only [pauseTransfer, withSession, solo, deviceExec, missing, Option.bind_some,
    Option.some.injEq, Prod.mk.injEq, reduceCtorEq, false_and] at paused

/-- No two cells are paused and resumed at once. -/
theorem cell_unique {cells : SessionCells} {cell other : Nat}
    (paused : cells.pause other = cells.pause cell) (resumed : cells.resume other = cells.resume cell) :
    other = cell := by
  by_contra apart
  have apart : cell ≠ other := Ne.symm apart
  have on := congrFun (congrArg SessionCells.content paused) cell
  have off := congrFun (congrArg SessionCells.content resumed) cell
  simp only [SessionCells.pause, SessionCells.resume, SessionCells.setPaused, Function.update_self,
    Function.update_of_ne apart] at on off
  have set : (cells.content cell).paused = true := congrArg SessionCell.paused on
  have reset : (cells.content cell).paused = false := congrArg SessionCell.paused off
  exact absurd (set.symm.trans reset) (by decide)

/-- Only the session that is found is controlled, or one with the same cell. -/
theorem controls_cell {world : DeviceWorld Net} {id : Uuid} {session other : TransferSession}
    (controls : Controls network world id session) (choice : DeviceChoice Choice)
    (found : world.engine.queue.findSession id = some other) : other.cell = session.cell := by
  have here : Controls network world id other := controls_found found
  have paused := (here.pause fun _ => choice).symm.trans (controls.pause fun _ => choice)
  have resumed := (here.resume fun _ => choice).symm.trans (controls.resume fun _ => choice)
  have on := congrArg (·.engine.cells) (Prod.mk.inj (Option.some.inj paused)).2
  have off := congrArg (·.engine.cells) (Prod.mk.inj (Option.some.inj resumed)).2
  exact cell_unique on off

end

/-! ## Cells of sends and cells of uploads -/

section

variable {Net Choice : Type} {network : Meaning netSig Net Choice}

/-- Every session has a cell that was made, and no upload has the cell of a send. -/
structure Apart (world : DeviceWorld Net) : Prop where
  sends : ∀ active ∈ world.engine.queue.active, active.2.cell < world.engine.cells.fresh
  receives : ∀ id session, world.sessions id = some session →
    session.cell < world.engine.cells.fresh
  apart : ∀ active ∈ world.engine.queue.active, ∀ id session, world.sessions id = some session →
    active.2.cell ≠ session.cell

/-- Sessions that go leave the others apart. -/
theorem Apart.mono {before after : DeviceWorld Net} (apart : Apart before)
    (active : after.engine.queue.active ⊆ before.engine.queue.active)
    (sessions : ∀ id session, after.sessions id = some session → before.sessions id = some session)
    (fresh : before.engine.cells.fresh ≤ after.engine.cells.fresh) : Apart after where
  sends entry listed := Nat.lt_of_lt_of_le (apart.sends entry (active listed)) fresh
  receives id session kept := Nat.lt_of_lt_of_le (apart.receives id session (sessions id session kept))
    fresh
  apart entry listed id session kept :=
    apart.apart entry (active listed) id session (sessions id session kept)

/-- An operation that leaves the sessions and the queue alone. -/
theorem Apart.still {before after : DeviceWorld Net} (apart : Apart before)
    (active : after.engine.queue.active = before.engine.queue.active)
    (sessions : after.sessions = before.sessions)
    (fresh : before.engine.cells.fresh ≤ after.engine.cells.fresh) : Apart after := by
  refine apart.mono ?_ ?_ fresh
  · rw [active]
    exact List.Subset.refl _
  · rw [sessions]
    exact fun _ _ kept => kept

/-- A send on the active list gets a cell that nobody has. -/
theorem Apart.activate {before after : DeviceWorld Net} (apart : Apart before) {queued : QueuedTransfer}
    {session : TransferSession}
    (active : after.engine.queue.active = before.engine.queue.active ++ [(queued, session)])
    (cell : session.cell = before.engine.cells.fresh) (sessions : after.sessions = before.sessions)
    (grows : before.engine.cells.fresh < after.engine.cells.fresh) : Apart after := by
  refine ⟨fun entry listed => ?_, fun id other kept => ?_, fun entry listed id other kept => ?_⟩
  · rw [active] at listed
    rcases List.mem_append.mp listed with old | new
    · exact Nat.lt_trans (apart.sends entry old) grows
    · rw [List.mem_singleton.mp new, cell]
      exact grows
  · rw [sessions] at kept
    exact Nat.lt_trans (apart.receives id other kept) grows
  · rw [sessions] at kept
    rw [active] at listed
    rcases List.mem_append.mp listed with old | new
    · exact apart.apart entry old id other kept
    · rw [List.mem_singleton.mp new, cell]
      exact (Nat.ne_of_lt (apart.receives id other kept)).symm

/-- So does an upload in the map. -/
theorem Apart.insert {before after : DeviceWorld Net} (apart : Apart before) {transferId : Uuid}
    {session : TransferSession} (cell : session.cell = before.engine.cells.fresh)
    (active : after.engine.queue.active = before.engine.queue.active)
    (sessions : after.sessions = Function.update before.sessions transferId (some session))
    (grows : before.engine.cells.fresh < after.engine.cells.fresh) : Apart after := by
  -- a session of the map is the new one, or was there before
  have cases (id : Uuid) (other : TransferSession) (kept : after.sessions id = some other) :
      other.cell = before.engine.cells.fresh ∨ before.sessions id = some other := by
    rw [sessions] at kept
    by_cases same : id = transferId
    · subst same
      rw [Function.update_self] at kept
      exact .inl (Option.some.inj kept ▸ cell)
    · rw [Function.update_of_ne same] at kept
      exact .inr kept
  refine ⟨fun entry listed => ?_, fun id other kept => ?_, fun entry listed id other kept => ?_⟩
  · rw [active] at listed
    exact Nat.lt_trans (apart.sends entry listed) grows
  · rcases cases id other kept with new | old
    · rw [new]
      exact grows
    · exact Nat.lt_trans (apart.receives id other old) grows
  · rw [active] at listed
    rcases cases id other kept with new | old
    · rw [new]
      exact Nat.ne_of_lt (apart.sends entry listed)
    · exact apart.apart entry listed id other old

/-- Every operation keeps the cells apart. -/
theorem Apart.step {before after : DeviceWorld Net} (apart : Apart before) {op : DeviceOp}
    {choice : DeviceChoice Choice} {result : op.Result}
    (ran : deviceExec network before op choice = some (result, after)) : Apart after := by
  cases deviceExec_touches ran with
  | still _ active sessions cells => exact apart.still active sessions cells.fresh
  | activate queued session active named cell sessions cells =>
    refine apart.activate active cell sessions ?_
    rw [cells]
    exact Nat.lt_succ_self _
  | finish id fewer sessions cells =>
    refine apart.mono fewer ?_ (Nat.le_of_eq (congrArg SessionCells.fresh cells).symm)
    rw [sessions]
    exact fun _ _ kept => kept
  | insert transferId fileName totalBytes initial session cell active sessions cells =>
    refine apart.insert cell active sessions ?_
    rw [cells]
    exact Nat.lt_succ_self _
  | remove transferId active sessions cells =>
    refine apart.mono ?_ (fun id session kept => ?_) (Nat.le_of_eq (congrArg SessionCells.fresh cells).symm)
    · rw [active]
      exact List.Subset.refl _
    · rw [sessions] at kept
      by_cases same : id = transferId
      · subst same
        rw [Function.update_self] at kept
        cases kept
      · rwa [Function.update_of_ne same] at kept
  | pause session active sessions cells | resume session active sessions cells
  | cancel session active sessions cells =>
    exact apart.still active sessions (Nat.le_of_eq (congrArg SessionCells.fresh cells).symm)

end

/-! ## Every reachable state -/

section

variable {κ χ ρ Net Choice : Type} [DecidableEq κ] [DecidableEq χ] [DecidableEq ρ]
variable {usage : Usage κ χ ρ} {network : Meaning netSig Net Choice} {net : Net}
variable {files : FileStore Path} {reached : Running κ χ ρ Net}

/-- The cells are apart in every run. -/
theorem apart_reached
    (path : Pool.Reaches (track network) (fun _ _ _ => True) (start usage net files) reached) :
    Apart reached.world.device := by
  induction path with
  | refl =>
    exact ⟨fun _ listed => (nomatch listed), fun _ _ kept => (nomatch kept),
      fun _ listed => (nomatch listed)⟩
  | tail _ last ih =>
    obtain ⟨i, choice, -, stepped⟩ := last
    obtain ⟨op, next, result, world, -, ran, rfl⟩ := Pool.step_cases stepped
    exact ih.step (track_device ran)

/-- A send on the active list is found under its id. -/
theorem active_found
    (path : Pool.Reaches (track network) (fun _ _ _ => True) (start usage net files) reached)
    {id : Uuid} {session : TransferSession} (active : Active reached.world.device id session) :
    (queue reached).findSession id = some session := by
  obtain ⟨entry, listed, named⟩ := active
  have found : ((queue reached).findSession id).isSome :=
    findSession_isSome (List.mem_map.mpr ⟨_, listed, named⟩)
  obtain ⟨other, same⟩ := Option.isSome_iff_exists.mp found
  obtain ⟨pair, search, rfl⟩ := Option.map_eq_some_iff.mp same
  have distinct : ((queue reached).active.map (·.1.id)).Nodup := (sound_reached path).activeOnce
  have match_ : pair.1.id = id := by simpa using List.find?_some search
  have unique : pair = (entry, session) :=
    List.inj_on_of_nodup_map distinct (List.mem_of_find?_eq_some search) listed
      (match_.trans named.symm)
  rw [same, unique]

/-- In every reachable state, a live session is controlled by the four calls for its id exactly when
it is that of a send on the active list. -/
theorem controls_iff
    (path : Pool.Reaches (track network) (fun _ _ _ => True) (start usage net files) reached)
    (choice : DeviceChoice Choice) {id : Uuid} {session : TransferSession}
    (live : Live reached.world.device id session) :
    Controls network reached.world.device id session ↔ Active reached.world.device id session := by
  constructor
  · intro controls
    cases live with
    | send entry listed named => exact ⟨entry, listed, named⟩
    | receive kept =>
      cases search : reached.world.device.engine.queue.findSession id with
      | none => exact absurd controls (controls_missing search choice)
      | some other =>
        obtain ⟨pair, found, rfl⟩ := Option.map_eq_some_iff.mp search
        have same := controls_cell controls choice search
        have apart := (apart_reached path).apart pair (List.mem_of_find?_eq_some found) id session kept
        exact absurd same apart
  · intro active
    exact controls_found (active_found path active)

end

/-! ## A send and an upload -/

/-- A send on the sample device is controlled while it is active. -/
theorem controls_iff_send : ∃ reached session, sampleRun (callSteps ++ taskSteps ⟨7⟩ 9) = some reached ∧
    Active reached.world.device ⟨7⟩ session ∧
    Controls sampleNetwork reached.world.device ⟨7⟩ session := by
  have runs : (sampleRun (callSteps ++ taskSteps ⟨7⟩ 9)).map
      (fun reached => (queue reached).active.map (·.1.id)) = some [⟨7⟩] := by
    decide +kernel
  obtain ⟨reached, ran, active⟩ := Option.map_eq_some_iff.mp runs
  obtain ⟨⟨entry, session⟩, rest, listed, named, -⟩ := List.map_eq_cons_iff.mp active
  have sends : Active reached.world.device ⟨7⟩ session := by
    refine ⟨entry, ?_, named⟩
    show (entry, session) ∈ (queue reached).active
    rw [listed]
    exact List.mem_cons_self
  have live : Live reached.world.device ⟨7⟩ session := by
    obtain ⟨entry, listed, named⟩ := sends
    exact .send entry listed named
  exact ⟨reached, session, ran, sends,
    (controls_iff (Pool.reaches_of_run ran) ⟨⟨0⟩, (), .none⟩ live).mpr sends⟩

/-- An upload cannot be paused while it is received. -/
theorem controls_broken :
    ¬∀ (usage : Usage Unit Control Unit) (network : Meaning netSig Unit Unit)
      (files : FileStore Path) (reached : Running Unit Control Unit Unit) (id : Uuid)
      (session : TransferSession),
      Pool.Reaches (track network) (fun _ _ _ => True) (start usage () files) reached →
      Live reached.world.device id session → Controls network reached.world.device id session := by
  intro always
  have runs : (sampleRun (steps (.upload ()) 3 ⟨0⟩)).map (fun reached =>
      ((reached.world.device.sessions Resume.sampleId).isSome,
        ((queue reached).findSession Resume.sampleId).isNone)) = some (true, true) := by
    decide +kernel
  obtain ⟨reached, ran, shown⟩ := Option.map_eq_some_iff.mp runs
  obtain ⟨kept, missing⟩ := Prod.mk.inj shown
  obtain ⟨session, kept⟩ := Option.isSome_iff_exists.mp kept
  have controls := always _ _ _ reached Resume.sampleId session (Pool.reaches_of_run ran)
    (.receive kept)
  exact controls_missing (Option.isNone_iff_eq_none.mp missing) ⟨⟨0⟩, (), .none⟩ controls

end FileDrop.Controllable
