import FileDrop.Ffi.Server

/-!
# One server accepts

A server's sender is in the slot from before the server is spawned on. Whatever takes it from there, a
stop that uses it or a start that overwrites and so drops it, tells the server. So a server that has not
been told is the one whose sender is in the slot.
-/
namespace FileDrop.OneServer
open FileDrop FfiServer

/-- A server has been spawned, and has not been told to shut down. -/
def Accepting (world : FfiServer) (id : Nat) : Prop :=
  world.spawned id = true ∧ world.told id = false

/-- A call has stored the sender of its server. -/
def Stored (world : FfiServer) (id : Nat) : Prop :=
  world.spawned id = true ∨ ∃ localAddr, world.calls id = some ⟨.start, .spawning localAddr⟩

/-- A sender that was stored is in the slot, or its server has been told. -/
def Kept (world : FfiServer) : Prop :=
  ∀ id, Stored world id → world.shutdown = some id ∨ world.told id = true

variable {before after world : FfiServer}

/-- A sender that leaves the slot tells its server. -/
theorem toldNow_of_kept (kept : Kept before) {id : Nat} (stored : Stored before id) :
    before.toldNow id = true := by
  have known := kept id stored
  unfold toldNow
  cases there : before.shutdown with
  | none =>
    rw [there] at known
    exact known.resolve_left nofun
  | some server =>
    by_cases same : id = server
    · subst same
      exact Function.update_self ..
    · rw [there] at known
      have told := known.resolve_left fun mine => same (Option.some.inj mine).symm
      simpa only [Function.update_of_ne same] using told

/-- What has stored its sender after a call went on to a stage at which it has not had stored it before. -/
theorem stored_of_aside {id other : Nat} {command : ServerCommand} {stage : ServerStage}
    (aside : ∀ localAddr, stage ≠ .spawning localAddr)
    (stored : before.spawned other = true ∨ ∃ localAddr,
      Function.update before.calls id (some ⟨command, stage⟩) other = some ⟨.start, .spawning localAddr⟩) :
    Stored before other := by
  rcases stored with spawned | ⟨localAddr, now⟩
  · exact .inl spawned
  · by_cases same : other = id
    · subst same
      rw [Function.update_self] at now
      cases now
      exact absurd rfl (aside localAddr)
    · rw [Function.update_of_ne same] at now
      exact .inr ⟨localAddr, now⟩

/-- Every step keeps the sender of a server where it tells. -/
theorem kept_step {move : ServerMove} (kept : Kept before) (stepped : step before move = some after) :
    Kept after := by
  cases step_cases stepped with
  | initEngine => exact kept
  | issue command =>
    intro id stored
    refine kept id (stored_of_aside (fun localAddr => ?_) stored)
    cases command with
    | start | stop => exact nofun
  | start id stage next now aside =>
    intro other stored
    refine kept other (stored_of_aside (fun localAddr same => ?_) stored)
    subst same
    exact aside
  | store id localAddr now =>
    intro other stored
    by_cases mine : other = id
    · exact .inl (congrArg some mine.symm)
    · have earlier : Stored before other := by
        rcases stored with spawned | ⟨localAddr, busy⟩
        · exact .inl spawned
        · simp only [Function.update_of_ne mine] at busy
          exact .inr ⟨localAddr, busy⟩
      exact .inr (toldNow_of_kept kept earlier)
  | spawn id localAddr now =>
    intro other stored
    by_cases mine : other = id
    · subst mine
      exact kept other (.inr ⟨localAddr, now⟩)
    · have earlier : Stored before other := by
        rcases stored with spawned | ⟨localAddr, busy⟩
        · simp only [Function.update_of_ne mine] at spawned
          exact .inl spawned
        · simp only [Function.update_of_ne mine] at busy
          exact .inr ⟨localAddr, busy⟩
      exact kept other earlier
  | stop id now =>
    intro other stored
    have earlier : Stored before other := by
      refine stored_of_aside (fun localAddr same => ?_) stored
      cases same
    exact .inr (toldNow_of_kept kept earlier)

/-- It is so in every run. -/
theorem kept_reached (path : Machine.Reaches step (fun _ _ => True) .new world) : Kept world := by
  have start : Kept .new := by
    rintro id (spawned | ⟨localAddr, now⟩)
    · cases spawned
    · cases now
  exact path.invariant start fun _ _ _ kept _ stepped => kept_step kept stepped

/-- A server that accepts is the one whose sender is in the slot. -/
theorem Kept.accepting (kept : Kept world) {id : Nat} (accepting : Accepting world id) :
    world.shutdown = some id := by
  obtain ⟨spawned, untold⟩ := accepting
  rcases kept id (.inl spawned) with there | told
  · exact there
  · rw [untold] at told
    cases told

/-! ## After a stop -/

/-- No start is in flight: each one that was issued has returned. -/
def NoneStarting (world : FfiServer) : Prop :=
  ∀ id stage, world.calls id = some ⟨.start, stage⟩ → ∃ result, stage = .started result

/-- No start is in flight, and the slot is empty. -/
def Quiet (world : FfiServer) : Prop := NoneStarting world ∧ world.shutdown = none

/-- A step in which a stop returns. -/
def StopReturns (before after : FfiServer) : Prop :=
  ∃ id stage, before.calls id = some ⟨.stop, stage⟩ ∧ stage ≠ .stopped ∧
    after.calls id = some ⟨.stop, .stopped⟩

/-- The slot is empty then. -/
theorem shutdown_of_stopReturns {move : ServerMove} (returns : StopReturns before after)
    (stepped : step before move = some after) : after.shutdown = none := by
  obtain ⟨stop, stage, waiting, unstopped, stopped⟩ := returns
  have still (id : Nat) {stage : ServerStage} (same : after.calls = Function.update before.calls id
      (some ⟨.start, stage⟩)) : False := by
    rw [same] at stopped
    by_cases mine : stop = id
    · subst mine
      rw [Function.update_self] at stopped
      cases stopped
    · rw [Function.update_of_ne mine, waiting] at stopped
      cases stopped
      exact unstopped rfl
  cases step_cases stepped with
  | initEngine =>
    rw [show before.calls stop = some ⟨.stop, .stopped⟩ from stopped] at waiting
    cases waiting
    exact absurd rfl unstopped
  | issue command =>
    by_cases mine : stop = before.issued
    · subst mine
      simp only [Function.update_self] at stopped
      cases command with
      | start | stop => cases stopped
    · simp only [Function.update_of_ne mine, waiting] at stopped
      cases stopped
      exact absurd rfl unstopped
  | start id => exact (still id rfl).elim
  | store id => exact (still id rfl).elim
  | spawn id => exact (still id rfl).elim
  | stop => rfl

/-- With no start in flight and an empty slot, only a new start changes that. -/
theorem quiet_step {move : ServerMove} (other : move ≠ .issue .start)
    (quiet : Quiet before) (stepped : step before move = some after) : Quiet after := by
  obtain ⟨none, empty⟩ := quiet
  cases move with
  | initEngine =>
    cases stepped
    exact ⟨none, empty⟩
  | issue command =>
    cases command with
    | start => exact absurd rfl other
    | stop =>
      cases stepped
      refine ⟨fun id stage now => ?_, empty⟩
      by_cases mine : id = before.issued
      · subst mine
        simp only [Function.update_self] at now
        cases now
      · simp only [Function.update_of_ne mine] at now
        exact none id stage now
  | call id choice =>
    simp only [step] at stepped
    split at stepped
    · rename_i stage now
      obtain ⟨result, rfl⟩ := none id stage now
      cases stepped
    · rename_i stage now
      cases stage with
      | taking =>
        cases stepped
        refine ⟨fun start stage starting => ?_, rfl⟩
        by_cases mine : start = id
        · subst mine
          simp only [Function.update_self] at starting
          cases starting
        · simp only [Function.update_of_ne mine] at starting
          exact none start stage starting
      | choosing | binding | storing | spawning | answering | started | stopped => cases stepped
    · cases stepped

/-- In every run of any number of calls: at most one server accepts, and it is the one whose sender is in
the slot. When a stop returns none does, and if no start is in flight then none does until another one
is issued. -/
theorem one_server (path : Machine.Reaches step (fun _ _ => True) .new world) :
    (∀ id other, Accepting world id → Accepting world other → id = other) ∧
      (∀ id, Accepting world id → world.shutdown = some id) ∧
      ∀ move stopped, step world move = some stopped → StopReturns world stopped →
        (∀ id, ¬Accepting stopped id) ∧
        (NoneStarting stopped → ∀ later,
          Machine.Reaches step (fun _ move => move ≠ .issue .start) stopped later →
            ∀ id, ¬Accepting later id) := by
  have kept := kept_reached path
  refine ⟨fun id other first second => ?_, fun id accepting => kept.accepting accepting, ?_⟩
  · have both := (kept.accepting first).symm.trans (kept.accepting second)
    exact Option.some.inj both
  · intro move stopped stepped returns
    have after : Kept stopped := kept_step kept stepped
    have empty := shutdown_of_stopReturns returns stepped
    refine ⟨fun id accepting => ?_, fun none later more id accepting => ?_⟩
    · have there := after.accepting accepting
      rw [empty] at there
      cases there
    · have start : Quiet stopped := ⟨none, empty⟩
      have quiet : Quiet later :=
        more.invariant start fun _ _ _ quiet other stepped => quiet_step other quiet stepped
      have keeps : Kept later :=
        more.invariant after fun _ _ _ kept _ stepped => kept_step kept stepped
      have there := keeps.accepting accepting
      rw [quiet.2] at there
      cases there

/-! ## Two starts and a stop -/

/-- What the network of the sample answers. -/
def sampleChoice : ServerChoice := ⟨portScanRange, .ok (), .ok ⟨"0.0.0.0", 53317⟩, ["192.168.1.20"]⟩

/-- Two starts that overlap, of which the second one stores its sender last, and a stop that is issued. -/
def overlapping : List ServerMove :=
  [.initEngine, .issue .start, .issue .start] ++ List.replicate 3 (.call 0 sampleChoice) ++
    List.replicate 5 (.call 1 sampleChoice) ++ List.replicate 2 (.call 0 sampleChoice) ++ [.issue .stop]

/-- The second server is there, and the stop returns when no start is in flight. -/
theorem overlapping_ran : ∃ world stopped, Machine.run step (fun _ _ => True) overlapping .new = some world ∧
    Accepting world 1 ∧ step world (.call 2 sampleChoice) = some stopped ∧ StopReturns world stopped ∧
      NoneStarting stopped := by
  refine ⟨_, _, rfl, ⟨rfl, rfl⟩, rfl, ⟨2, .taking, rfl, nofun, rfl⟩, ?_⟩
  -- three calls were issued
  rintro (_ | _ | _ | id) stage now
  · cases now
    exact ⟨_, rfl⟩
  · cases now
    exact ⟨_, rfl⟩
  · cases now
  · cases now

/-- Only the second of two overlapping starts leaves a server that accepts. When the stop has returned none
does, whatever follows but another start. -/
theorem one_server_overlapping : ∃ world stopped,
    Machine.run step (fun _ _ => True) overlapping .new = some world ∧ Accepting world 1 ∧
      ¬Accepting world 0 ∧ step world (.call 2 sampleChoice) = some stopped ∧
      (∀ id, ¬Accepting stopped id) ∧
      ∀ later, Machine.Reaches step (fun _ move => move ≠ .issue .start) stopped later →
        ∀ id, ¬Accepting later id := by
  obtain ⟨world, stopped, ran, second, stepped, returns, none⟩ := overlapping_ran
  obtain ⟨one, -, stop⟩ := one_server (Machine.reaches_of_run ran)
  obtain ⟨now, ever⟩ := stop _ stopped stepped returns
  refine ⟨world, stopped, ran, second, fun first => ?_, stepped, now, ever none⟩
  have same := one 0 1 first second
  cases same

end FileDrop.OneServer
