import FileDrop.Verif.Parallel

/-!
# Cancelling a send

A cancel call stores a flag in the session it finds. No step of a send reads the flag, so a send that
is cancelled while it works goes on to its last chunk and is announced as completed. What a cancel
call promises holds only when there is nothing left to stop: the send has failed, or its completion is
announced, and its id has not left the active list.
-/
namespace FileDrop.Cancel
open FileDrop Effects Effects.Program Unix Sending Parallel

section

variable {κ χ ρ Net Choice : Type}

/-! ## What a cancel call promises -/

/-- An id that a call of `send_files` has returned. -/
def Returned (pool : Running κ χ ρ Net) (id : Uuid) : Prop :=
  ∃ n ids, pool.threads (.call n) = .done (.call (.ok ids)) ∧ id ∈ ids

/-- A transfer has not ended: its entry is pending, on its way to the active list, or active. -/
def Unended (pool : Running κ χ ρ Net) (id : Uuid) : Prop :=
  id ∈ (queue pool).pending.map (·.id) ∨
    (∃ task, stageOf (pool.threads (.task task)) = .taken id) ∨
    id ∈ (queue pool).active.map (·.1.id)

/-- The chunks handed to the network for an id. -/
def handedFor (pool : Running κ χ ρ Net) (id : Uuid) : List (Uuid × Bytes) :=
  pool.world.handed.filter (·.1 = id)

/-- An event announces that a transfer is complete. -/
def announces (id : Uuid) : FileDropEvent → Bool
  | .transferCompleted transferId _ => transferId = id
  | _ => false

/-- The announcements that a transfer is complete. -/
def completions (pool : Running κ χ ρ Net) (id : Uuid) : List FileDropEvent :=
  pool.world.device.engine.events.filter (announces id)

/-- A cancel call returned `Ok`, and since it returned at most one chunk is handed over for the id,
and no completion of it is announced. -/
structure Stops (id : Uuid) (result : Controlled) (returned later : Running κ χ ρ Net) : Prop where
  ok : result = .ok none
  chunks : (handedFor later id).length ≤ (handedFor returned id).length + 1
  completed : completions later id = completions returned id

variable [DecidableEq κ] [DecidableEq χ] [DecidableEq ρ]

/-- Which steps a run takes. -/
abbrev Schedule (κ χ ρ Net Choice : Type) : Type :=
  Running κ χ ρ Net → Actor κ χ ρ → DeviceChoice Choice → Prop

/-- A run in which a transfer that was returned and has not ended is cancelled: the call looks the id
up, returns, and the run goes on. -/
structure CancelRun (usage : Usage κ χ ρ) (network : Meaning netSig Net Choice)
    (allowed : Schedule κ χ ρ Net Choice) (net : Net) (files : FileStore Path) (c : χ) (id : Uuid)
    (called lookedUp : Running κ χ ρ Net) (result : Controlled)
    (returned later : Running κ χ ρ Net) : Prop where
  cancels : usage.controls c = .cancel id
  run : Pool.Reaches (track network) allowed (start usage net files) called
  calls : called.threads (.control c) = usage.program (.control c)
  known : Returned called id
  unended : Unended called id
  looksUp : ∃ choice, allowed called (.control c) choice ∧
    called.step (track network) (.control c) choice = some lookedUp
  goesOn : Pool.Reaches (track network) allowed lookedUp returned
  returns : returned.threads (.control c) = .done (.control result)
  later : Pool.Reaches (track network) allowed returned later

/-- A transfer that was returned and has not ended is only cancelled when its task is winding up and
its id is still active. -/
def CancelsLate (usage : Usage κ χ ρ) : Schedule κ χ ρ Net Choice := fun pool i _ =>
  ∀ c id, i = .control c → usage.controls c = .cancel id →
    pool.threads i = usage.program i → Returned pool id → Unended pool id →
      id ∈ (queue pool).active.map (·.1.id) ∧ winding (pool.threads (.task id))

end

/-! ## A task that is winding up -/

section

variable {κ χ ρ Net Choice : Type} {usage : Usage κ χ ρ} {network : Meaning netSig Net Choice}
variable {before : Running κ χ ρ Net} {id : Uuid}

/-- The operations that hand over a chunk for an id, or announce that it is complete. -/
def delivers (id : Uuid) : DeviceOp → Bool
  | .handChunk request _ => request.transferId = id
  | .engine (.emit event) => announces id event
  | _ => false

/-- Such an operation hands over a chunk for the id, or emits its completion. -/
theorem delivers_cases {op : DeviceOp} (delivered : delivers id op) :
    (∃ request chunk, op = .handChunk request chunk ∧ request.transferId = id) ∨
      ∃ digest, op = .engine (.emit (.transferCompleted id digest)) := by
  cases op with
  | handChunk request chunk => exact .inl ⟨request, chunk, rfl, of_decide_eq_true delivered⟩
  | engine op =>
    cases op with
    | emit event =>
      cases event with
      | transferCompleted other digest =>
        obtain rfl : other = id := of_decide_eq_true delivered
        exact .inr ⟨digest, rfl⟩
      | transferStarted | transferPaused | transferFailed => cases delivered
    | queue | client | newTransferId | spawn | spawned => cases delivered
  | post | response | findSession | pause | resume | cancel | progress | server => cases delivered

/-- Only a task hands over chunks for its id or announces that it is complete, and not when it is
winding up. -/
theorem fit_delivers (fit : Fit usage before) {i : Actor κ χ ρ} {op : DeviceOp}
    {next : op.Result → Program deviceSig Ended} (waiting : before.threads i = .perform op next)
    (wound : winding (before.threads (.task id))) : ¬delivers id op := by
  intro delivered
  have which := delivers_cases delivered
  cases i with
  | call n =>
    have always := fit.calls n
    rw [waiting] at always
    rcases which with ⟨request, chunk, rfl, -⟩ | ⟨digest, rfl⟩
    · exact always.1 ()
    · exact always.1 ()
  | task worker =>
    rcases fit.tasks worker with first | ⟨always, -⟩
    · rw [waiting] at first
      injection first with sameOp
      rcases which with ⟨request, chunk, rfl, -⟩ | ⟨digest, rfl⟩
      · cases sameOp
      · cases sameOp
    · rw [waiting] at always
      have own : worker = id := by
        rcases which with ⟨request, chunk, rfl, mine⟩ | ⟨digest, rfl⟩
        · exact always.1.1.symm.trans mine
        · exact always.1.1.symm
      rw [← own, waiting] at wound
      rcases which with ⟨request, chunk, rfl, -⟩ | ⟨digest, rfl⟩
      · cases wound
      · cases wound
  | control n =>
    have only := fit.controls n
    rw [waiting] at only
    rcases which with ⟨request, chunk, rfl, -⟩ | ⟨digest, rfl⟩
    · cases only.1
    · cases only.1
  | upload n =>
    have only := fit.uploads n
    rw [waiting] at only
    rcases which with ⟨request, chunk, rfl, -⟩ | ⟨digest, rfl⟩
    · cases only.1
    · cases only.1

/-- An operation that delivers nothing for an id emits no completion of it. -/
theorem exec_events {op : DeviceOp} {world last : DeviceWorld Net} {choice : DeviceChoice Choice}
    {result : op.Result} (nothing : ¬delivers id op)
    (ran : deviceExec network world op choice = some (result, last)) :
    last.engine.events.filter (announces id) = world.engine.events.filter (announces id) := by
  have none : ∀ event ∈ op.emits, ¬announces id event := by
    intro event emitted
    cases op with
    | engine op =>
      cases op with
      | emit only =>
        rw [List.mem_singleton.mp emitted]
        exact nothing
      | queue | client | newTransferId | spawn | spawned => cases emitted
    | post | handChunk | response | findSession | pause | resume | cancel | progress | server =>
      cases emitted
  rw [deviceExec_events ran, List.filter_append, List.filter_eq_nil_iff.mpr none, List.append_nil]

/-- An operation that delivers nothing for an id hands over no chunk of it. -/
theorem note_handed {i : Actor κ χ ρ} {op : DeviceOp} {seen : Tracked κ Net} {result : op.Result}
    (nothing : ¬delivers id op) :
    (seen.note i op result).handed.filter (·.1 = id) = seen.handed.filter (·.1 = id) := by
  cases op with
  | handChunk request chunk =>
    have other : ¬request.transferId = id := fun same => nothing (decide_eq_true same)
    have recorded : (seen.note i (.handChunk request chunk) result).handed =
        seen.handed ++ [(request.transferId, chunk)] := by
      cases i <;> rfl
    rw [recorded, List.filter_append, List.filter_singleton]
    simp [other]
  | engine | post | response | findSession | pause | resume | cancel | progress | server =>
    unfold Tracked.note
    split <;> first | rfl | contradiction

end

section

variable {κ χ ρ Net Choice : Type} [DecidableEq κ] [DecidableEq χ] [DecidableEq ρ]
variable {usage : Usage κ χ ρ} {network : Meaning netSig Net Choice} {net : Net}
variable {files : FileStore Path} {before after : Running κ χ ρ Net} {id : Uuid}

/-- A task that is winding up goes on to wind up, and nothing is delivered for its id. -/
theorem winds_step (fit : Fit usage before) (wound : winding (before.threads (.task id)))
    {i : Actor κ χ ρ} {choice : DeviceChoice Choice}
    (stepped : before.step (track network) i choice = some after) :
    winding (after.threads (.task id)) ∧ handedFor after id = handedFor before id ∧
      completions after id = completions before id := by
  obtain ⟨op, next, result, world, waiting, ran, rfl⟩ := Pool.step_cases stepped
  have nothing := fit_delivers fit waiting wound
  obtain ⟨device, -, same⟩ := track_cases ran
  have chunks : handedFor ⟨world, Function.update before.threads i (next result)⟩ id =
      handedFor before id := by
    rw [handedFor, same]
    exact note_handed nothing
  refine ⟨?_, chunks, exec_events nothing (track_device ran)⟩
  by_cases same : .task id = i
  · subst same
    simp only [Function.update_self]
    rcases fit.tasks id with first | ⟨always, -⟩
    · rw [first] at wound
      cases wound
    · rw [waiting] at always wound
      exact always.1.2.2 wound result
  · simp only [Function.update_of_ne same]
    exact wound

/-- Nothing is delivered for an id from when its task is winding up. -/
theorem winds_run {allowed : Schedule κ χ ρ Net Choice}
    (start : Pool.Reaches (track network) allowed (start usage net files) before)
    (path : Pool.Reaches (track network) allowed before after)
    (wound : winding (before.threads (.task id))) :
    winding (after.threads (.task id)) ∧ handedFor after id = handedFor before id ∧
      completions after id = completions before id := by
  induction path with
  | refl => exact ⟨wound, rfl, rfl⟩
  | tail rest last ih =>
    obtain ⟨still, chunks, announced⟩ := ih
    obtain ⟨i, choice, -, stepped⟩ := last
    have free : ∀ pool i choice, allowed pool i choice → TakesTurn (fun _ _ => True) pool i :=
      fun _ _ _ _ _ _ _ _ _ _ => trivial
    have fit := (device_refines free (start.trans rest)).1
    obtain ⟨goesOn, sameChunks, sameAnnounced⟩ := winds_step fit still stepped
    exact ⟨goesOn, sameChunks.trans chunks, sameAnnounced.trans announced⟩

/-! ## The call -/

/-- A cancel call that has found a session is about to store the flag, or has returned `Ok`. -/
def Cancelling (session : TransferSession) (program : Program deviceSig Ended) : Prop :=
  program = .perform (.cancel session) (fun _ => .done (.control (.ok none))) ∨
    program = .done (.control (.ok none))

/-- A cancel call that has found a session can only return `Ok`. -/
theorem Cancelling.next {session : TransferSession} (op : DeviceOp)
    (next : op.Result → Program deviceSig Ended) (result : op.Result)
    (cancelling : Cancelling session (.perform op next)) : Cancelling session (next result) := by
  rcases cancelling with still | ended
  · injection still with sameOp sameNext
    subst sameOp
    obtain rfl := eq_of_heq sameNext
    exact .inr rfl
  · cases ended

/-- A call that cancels an active transfer finds its session. -/
theorem cancel_finds {c : χ} {choice : DeviceChoice Choice} (cancels : usage.controls c = .cancel id)
    (calls : before.threads (.control c) = usage.program (.control c))
    (active : id ∈ (queue before).active.map (·.1.id))
    (stepped : before.step (track network) (.control c) choice = some after) :
    ∃ session, Cancelling session (after.threads (.control c)) := by
  obtain ⟨session, found⟩ := Option.isSome_iff_exists.mp (findSession_isSome active)
  obtain ⟨op, next, result, world, waiting, ran, rfl⟩ := Pool.step_cases stepped
  rw [calls, Usage.program, cancels] at waiting
  injection waiting with sameOp sameNext
  subst sameOp
  obtain rfl := eq_of_heq sameNext
  have answered := track_device ran
  obtain ⟨rfl, -⟩ := Prod.mk.inj (Option.some.inj answered)
  have answer : before.world.device.engine.queue.findSession id = some session := found
  simp only [Function.update_self, answer]
  exact ⟨session, .inl rfl⟩

/-- In every run in which transfers that have not ended are only cancelled while they are active and
wind up, a cancel call returns `Ok` and nothing of its transfer follows. -/
theorem cancel_stops {c : χ} {called lookedUp returned later : Running κ χ ρ Net}
    {result : Controlled}
    (run : CancelRun usage network (CancelsLate usage) net files c id called lookedUp result returned
      later) : Stops id result returned later := by
  obtain ⟨choice, late, looked⟩ := run.looksUp
  obtain ⟨active, wound⟩ := late c id rfl run.cancels run.calls run.known run.unended
  have first : Pool.Reaches (track network) (CancelsLate usage) called lookedUp :=
    .single ⟨_, choice, late, looked⟩
  have windsThen := (winds_run run.run (first.trans run.goesOn) wound).1
  have tillReturn := run.run.trans (first.trans run.goesOn)
  obtain ⟨-, chunks, announced⟩ := winds_run tillReturn run.later windsThen
  obtain ⟨session, found⟩ := cancel_finds run.cancels run.calls active looked
  have accepted : result = .ok none := by
    rcases Pool.reaches_keeps Cancelling.next run.goesOn found with still | ended
    · have still := run.returns.symm.trans still
      cases still
    · have same := run.returns.symm.trans ended
      injection same with same
      injection same
  have bounded : (handedFor later id).length ≤ (handedFor returned id).length + 1 := by
    rw [chunks]
    exact Nat.le_succ _
  exact ⟨accepted, bounded, announced⟩

end

/-! ## A send that fails, and one that goes on -/

/-- The sample network, but the response does not come. -/
def failingNetwork : Meaning netSig Unit Unit
  | _, .response _, _ => some (.error "connection closed", ())
  | net, op, choice => sampleNetwork net op choice

/-- A transfer is only cancelled while it is active and winds up. -/
def Late (pool : Running Unit Control Unit Unit) (i : Actor Unit Control Unit)
    (_ : DeviceChoice Unit) : Prop :=
  match i with
  | .control (.cancel id) =>
    id ∈ (queue pool).active.map (·.1.id) ∧ winding (pool.threads (.task id))
  | _ => True

instance (pool : Running Unit Control Unit Unit) (i : Actor Unit Control Unit)
    (choice : DeviceChoice Unit) : Decidable (Late pool i choice) :=
  match i with
  | .control (.cancel _) => inferInstanceAs (Decidable (_ ∧ _ = true))
  | .control (.pause _) | .control (.resume _) | .control (.status _) | .call _ | .task _
  | .upload _ => inferInstanceAs (Decidable True)

/-- The ids that the call of the sample device has returned. -/
def sampleIds (pool : Running Unit Control Unit Unit) : List Uuid :=
  match (pool.threads (.call ())).returned? with
  | some (.call (.ok ids)) => ids
  | _ => []

/-- The call that cancels the first file has returned `Ok`. -/
def sampleOk (pool : Running Unit Control Unit Unit) : Bool :=
  match (pool.threads (.control (.cancel ⟨7⟩))).returned? with
  | some (.control (.ok none)) => true
  | _ => false

/-- The four pools of a run in which the first file's task goes on for some steps, a call cancels it,
and the task goes on. -/
def cancelSample (network : Meaning netSig Unit Unit)
    (allowed : Schedule Unit Control Unit Unit Unit)
    [∀ pool i choice, Decidable (allowed pool i choice)] (first rest : Nat) :
    Option (Running Unit Control Unit Unit × Running Unit Control Unit Unit ×
      Running Unit Control Unit Unit × Running Unit Control Unit Unit) := do
  let run := Pool.run (track network) allowed
  let cancel := steps (.control (.cancel ⟨7⟩)) 1 ⟨0⟩
  let called ← run (callSteps ++ taskSteps ⟨7⟩ first) (start sampleUsage () .empty)
  let lookedUp ← run cancel called
  let returned ← run cancel lookedUp
  let later ← run (taskSteps ⟨7⟩ rest) returned
  return (called, lookedUp, returned, later)

/-- Such a run is one of a cancel call. -/
theorem sample_cancels {network : Meaning netSig Unit Unit}
    {allowed wider : Schedule Unit Control Unit Unit Unit}
    [∀ pool i choice, Decidable (allowed pool i choice)]
    (widens : ∀ pool i choice, allowed pool i choice → wider pool i choice) {first rest : Nat}
    {called lookedUp returned later : Running Unit Control Unit Unit}
    (ran : cancelSample network allowed first rest = some (called, lookedUp, returned, later))
    (known : ⟨7⟩ ∈ sampleIds called) (active : ⟨7⟩ ∈ (queue called).active.map (·.1.id))
    (ok : sampleOk returned) :
    CancelRun sampleUsage network wider () .empty (.cancel ⟨7⟩) ⟨7⟩ called lookedUp (.ok none)
      returned later := by
  obtain ⟨_, ranCalled, ran⟩ := Option.bind_eq_some_iff.mp ran
  obtain ⟨_, ranLookup, ran⟩ := Option.bind_eq_some_iff.mp ran
  obtain ⟨_, ranCancel, ran⟩ := Option.bind_eq_some_iff.mp ran
  obtain ⟨_, ranLater, same⟩ := Option.bind_eq_some_iff.mp ran
  obtain ⟨rfl, rfl, rfl, rfl⟩ : _ ∧ _ ∧ _ ∧ _ := by simpa using same
  have reaches {schedule : List (Actor Unit Control Unit × DeviceChoice Unit)}
      {before after : Running Unit Control Unit Unit}
      (ran : Pool.run (track network) allowed schedule before = some after) :
      Pool.Reaches (track network) wider before after :=
    Pool.reaches_mono widens (Pool.reaches_of_run ran)
  refine {
    cancels := rfl
    run := reaches ranCalled
    calls := Pool.run_apart ranCalled ?_
    known := ?_
    unended := .inr (.inr active)
    looksUp := ?_
    goesOn := reaches ranCancel
    returns := ?_
    later := reaches ranLater }
  · simp [callSteps, taskSteps, steps]
  · unfold sampleIds at known
    split at known
    · rename_i ids ended
      exact ⟨(), ids, returned?_eq_some ended, known⟩
    · cases known
  · simp only [steps, List.replicate, Pool.run] at ranLookup
    split at ranLookup
    · rename_i permitted
      obtain ⟨pool, stepped, same⟩ := Option.bind_eq_some_iff.mp ranLookup
      rw [Option.some.inj same] at stepped
      exact ⟨_, widens _ _ _ permitted, stepped⟩
    · cases ranLookup
  · unfold sampleOk at ok
    split at ok
    · rename_i ended
      exact returned?_eq_some ended
    · cases ok

/-- A late cancel on the sample device: the send has failed, and nothing follows. -/
theorem cancel_stops_late : ∃ called lookedUp returned later,
    cancelSample failingNetwork Late 12 3 = some (called, lookedUp, returned, later) ∧
      (handedFor returned ⟨7⟩).length = 2 ∧ Stops ⟨7⟩ (.ok none) returned later := by
  have runs : (cancelSample failingNetwork Late 12 3).map (fun (called, _, returned, _) =>
      (decide (⟨7⟩ ∈ sampleIds called), decide (⟨7⟩ ∈ (queue called).active.map (·.1.id)),
        sampleOk returned, (handedFor returned ⟨7⟩).length)) = some (true, true, true, 2) := by
    decide +kernel
  obtain ⟨⟨called, lookedUp, returned, later⟩, ran, shown⟩ := Option.map_eq_some_iff.mp runs
  obtain ⟨known, shown⟩ := Prod.mk.inj shown
  obtain ⟨active, shown⟩ := Prod.mk.inj shown
  obtain ⟨ok, chunks⟩ := Prod.mk.inj shown
  have late : ∀ pool i choice, Late pool i choice → CancelsLate sampleUsage pool i choice := by
    rintro pool _ choice late c id rfl cancels _ _ _
    have same : c = .cancel id := cancels
    subst same
    exact late
  have run := sample_cancels late ran (of_decide_eq_true known) (of_decide_eq_true active) ok
  exact ⟨called, lookedUp, returned, later, ran, chunks, cancel_stops run⟩

/-- A send that is cancelled before its first chunk is read hands over both and is complete. -/
theorem cancel_broken :
    ¬∀ (usage : Usage Unit Control Unit) (network : Meaning netSig Unit Unit)
      (files : FileStore Path) (c : Control) (id : Uuid)
      (called lookedUp returned later : Running Unit Control Unit Unit) (result : Controlled),
      CancelRun usage network (fun _ _ _ => True) () files c id called lookedUp result returned
        later → Stops id result returned later := by
  intro always
  have runs : (cancelSample sampleNetwork (fun _ _ _ => True) 9 5).map
      (fun (called, _, returned, later) =>
        (decide (⟨7⟩ ∈ sampleIds called), decide (⟨7⟩ ∈ (queue called).active.map (·.1.id)),
          sampleOk returned, (handedFor returned ⟨7⟩).length, (handedFor later ⟨7⟩).length)) =
        some (true, true, true, 0, 2) := by
    decide +kernel
  obtain ⟨⟨called, lookedUp, returned, later⟩, ran, shown⟩ := Option.map_eq_some_iff.mp runs
  obtain ⟨known, shown⟩ := Prod.mk.inj shown
  obtain ⟨active, shown⟩ := Prod.mk.inj shown
  obtain ⟨ok, shown⟩ := Prod.mk.inj shown
  obtain ⟨before, after⟩ := Prod.mk.inj shown
  have run := sample_cancels (fun _ _ _ allowed => allowed) ran (of_decide_eq_true known)
    (of_decide_eq_true active) ok
  have stops := always _ _ _ _ _ _ _ _ _ _ run
  have chunks := stops.chunks
  rw [before, after] at chunks
  omega

end FileDrop.Cancel
