import FileDrop.Foundation.Transcript
import FileDrop.Verif.Resume
import FileDrop.Verif.Sending

/-!
# The queue of sends

Whatever the calls and however their tasks are scheduled, no task finds the queue empty, `next` returns
the entry that was taken, the entries leave the queue in the order in which they came, and no more tasks are
past the semaphore than it has permits. The active list mirrors the tasks at work only as long as each task
takes its own entry: a session is entered under the id that was popped and removed under the id the task was
spawned for.
-/
namespace FileDrop.Parallel
open FileDrop Effects Effects.Program Unix Sending

/-! ## What `next` returns -/

/-- A device with the transcripts of its actors. -/
abbrev Recorded (κ χ ρ Net : Type) : Type :=
  Pool.Transcribed (Actor κ χ ρ) deviceSig (Tracked κ Net) Ended

/-- `TransferQueue::next`, as a task waits for it. -/
def nextCall : Program deviceSig (Option (QueuedTransfer × TransferSession)) :=
  (TransferQueue.next queueCall).expand engineStep

section

variable {κ χ ρ Net : Type}

/-- `next` has returned this to the `run_queued_send` of a task, being answered what the task has been
answered since it started. -/
def NextReturned (pool : Recorded κ χ ρ Net) (id : Uuid)
    (result : Option (QueuedTransfer × TransferSession)) : Prop :=
  ∃ task answered later,
    pool.world.2 (.task id) = ⟨.engine (.spawned id), task⟩ :: (answered ++ later) ∧
      nextCall.Returns answered result

/-- The task is about to push an entry to the active list. -/
def Pushes (pool : Recorded κ χ ρ Net) (id : Uuid) (entry : QueuedTransfer) : Prop :=
  ∃ next, pool.threads (.task id) = .perform (.engine (.queue (.activate entry))) next

/-- An entry as `next` returns it. -/
def connecting (entry : QueuedTransfer) : QueuedTransfer := { entry with status := .connecting }

/-- What a task goes on with after `next`. -/
def afterNext (sha256 : Sha256) (task : SendTask) :
    Option (QueuedTransfer × TransferSession) → Program deviceSig Ended
  | none => .done .task
  | some (_, session) => ((sendWith sha256 task session).expand engineStep).bind fun _ => .done .task

/-- A task is `next` and what follows it. -/
theorem task_next (sha256 : Sha256) (task : SendTask) :
    ((sendTask sha256 task).bind fun _ => .done Ended.task) =
      nextCall.bind (afterNext sha256 task) := by
  rw [sendTask, runQueuedSend, expand_bind, bind_assoc]
  refine congrArg (nextCall.bind ·) (funext fun result => ?_)
  cases result <;> rfl

/-- A task to which `next` has returned goes on with what it returned. -/
theorem NextReturned.onward {usage : Usage κ χ ρ} {pool : Recorded κ χ ρ Net} {id : Uuid}
    {result : Option (QueuedTransfer × TransferSession)} (returned : NextReturned pool id result)
    (leaves : (usage.program (.task id)).Leaves (pool.world.2 (.task id)) (pool.threads (.task id))) :
    ∃ task later, (afterNext usage.sha256 task result).Leaves later (pool.threads (.task id)) := by
  obtain ⟨task, answered, later, transcript, returns⟩ := returned
  rw [transcript] at leaves
  cases leaves with
  | answer rest =>
    refine ⟨task, later, ?_⟩
    have goes : ((sendTask usage.sha256 task).bind fun _ => .done Ended.task).Leaves
        (answered ++ later) (pool.threads (.task id)) := rest
    rw [task_next] at goes
    exact returns.onward goes

/-- What the pops of the tasks have returned is what is recorded of them. -/
structure PopsFound (popped : List (Uuid × QueuedTransfer))
    (transcripts : Actor κ χ ρ → Transcript deviceSig) : Prop where
  found : ∀ id (result : Option QueuedTransfer),
    ⟨.engine (.queue .popPending), result⟩ ∈ transcripts (.task id) →
      ∃ entry, result = some entry ∧ (id, entry) ∈ popped
  noted : ∀ id entry, (id, entry) ∈ popped →
    ⟨.engine (.queue .popPending), some entry⟩ ∈ transcripts (.task id)

/-- What is recorded of a device. -/
abbrev Recorded.Sound (pool : Recorded κ χ ρ Net) : Prop :=
  PopsFound pool.world.1.popped pool.world.2

/-- `next` returns the entry that its pop has found. -/
theorem PopsFound.returned {pool : Recorded κ χ ρ Net} (pops : pool.Sound) {id : Uuid}
    {result : Option (QueuedTransfer × TransferSession)} (returned : NextReturned pool id result) :
    ∃ entry session, (id, entry) ∈ pool.world.1.popped ∧ result = some (connecting entry, session) := by
  obtain ⟨task, answered, later, transcript, returns⟩ := returned
  obtain ⟨permit, afterPermit, rfl, permitted⟩ := returns.perform
  obtain ⟨popped, afterPop, rfl, taken⟩ := permitted.perform
  obtain ⟨entry, rfl, member⟩ := pops.found id popped (by simp [transcript])
  obtain ⟨session, afterPush, rfl, pushed⟩ := taken.perform
  exact ⟨entry, session, member, pushed.done.2⟩

/-- A task that has been answered a pop is past it. -/
theorem leaves_popped {usage : Usage κ χ ρ} {id : Uuid} {answered : Transcript deviceSig}
    {left : Program deviceSig Ended} (leaves : (usage.program (.task id)).Leaves answered left)
    {result : Option QueuedTransfer}
    (popped : ⟨.engine (.queue .popPending), result⟩ ∈ answered) :
    ∃ task permit first later, answered = ⟨.engine (.spawned id), task⟩ ::
        ⟨.engine (.queue .acquirePermit), permit⟩ :: ⟨.engine (.queue .popPending), first⟩ :: later ∧
      (((match first with
        | none => (queueCall .releasePermit).bind fun _ => .done none
        | some queued => (queueCall (.activate (connecting queued))).bind fun session =>
          .done (some (connecting queued, session)) :
        Program engineSig (Option (QueuedTransfer × TransferSession))).expand engineStep).bind
          (afterNext usage.sha256 task)).Leaves later left := by
  rcases leaves.perform with ⟨rfl, -⟩ | ⟨task, afterStart, rfl, started⟩
  · cases popped
  have goes : ((sendTask usage.sha256 task).bind fun _ => .done Ended.task).Leaves afterStart left :=
    started
  rw [task_next] at goes
  rcases goes.perform with ⟨rfl, -⟩ | ⟨permit, afterPermit, rfl, permitted⟩
  · simp at popped
  rcases permitted.perform with ⟨rfl, -⟩ | ⟨first, later, rfl, taken⟩
  · simp at popped
  exact ⟨task, permit, first, later, rfl, taken⟩

/-- What a task has taken, it is about to push, or `next` has returned it. -/
theorem PopsFound.passed {usage : Usage κ χ ρ} {pool : Recorded κ χ ρ Net} (pops : pool.Sound)
    (once : (pool.world.1.popped.map (·.1)).Nodup) {id : Uuid} {entry : QueuedTransfer}
    (leaves : (usage.program (.task id)).Leaves (pool.world.2 (.task id)) (pool.threads (.task id)))
    (popped : (id, entry) ∈ pool.world.1.popped) :
    Pushes pool id (connecting entry) ∨
      ∃ session, NextReturned pool id (some (connecting entry, session)) := by
  obtain ⟨task, permit, first, later, transcript, leaves⟩ := leaves_popped leaves (pops.noted id entry popped)
  obtain ⟨other, rfl, also⟩ := pops.found id first (by simp [transcript])
  have same : ((id, other) : Uuid × QueuedTransfer) = (id, entry) :=
    List.inj_on_of_nodup_map once also popped rfl
  obtain ⟨-, rfl⟩ := Prod.mk.inj same
  rcases leaves.perform with ⟨-, waits⟩ | ⟨session, rest, rfl, -⟩
  · exact .inl ⟨_, waits⟩
  · refine .inr ⟨session, task, [⟨.engine (.queue .acquirePermit), permit⟩,
      ⟨.engine (.queue .popPending), some other⟩,
      ⟨.engine (.queue (.activate (connecting other))), session⟩], rest, transcript, ?_⟩
    exact .answer (.answer (.answer (.nothing _)))

/-- Only a task that takes an entry is recorded as one. -/
theorem note_popped {seen : Tracked κ Net} {i : Actor κ χ ρ} {op : DeviceOp} {result : op.Result}
    (other : ∀ id, i = .task id → takesEntry op = false) :
    (seen.note i op result).popped = seen.popped := by
  unfold Tracked.note
  split
  · rfl
  · rfl
  · exact absurd (other _ rfl) (by decide)
  · rfl
  · rfl

/-- The operation that takes an entry. -/
theorem takesEntry_eq {op : DeviceOp} (takes : takesEntry op) : op = .engine (.queue .popPending) := by
  cases op with
  | engine op =>
    cases op with
    | queue op =>
      cases op with
      | popPending => rfl
      | enqueue | acquirePermit | activate | markFinished | releasePermit => cases takes
    | client | newTransferId | spawn | spawned | emit => cases takes
  | post | handChunk | response | findSession | pause | resume | cancel | progress | server =>
    cases takes

/-- A task that looks for an entry is past the semaphore. -/
theorem permitted_of_takes {pool : Running κ χ ρ Net} {id : Uuid}
    (takes : (pool.threads (.task id)).At takesEntry) :
    stageOf (pool.threads (.task id)) = .permitted := by
  cases waiting : pool.threads (.task id) with
  | done ended =>
    rw [waiting] at takes
    exact takes.elim
  | perform op next =>
    rw [waiting] at takes
    obtain rfl := takesEntry_eq takes
    rfl

end

section

variable {κ χ ρ Net Choice : Type} [DecidableEq κ] [DecidableEq χ] [DecidableEq ρ]
variable {usage : Usage κ χ ρ} {network : Meaning netSig Net Choice} {net : Net}
variable {files : FileStore Path} {reached : Running κ χ ρ Net}

/-- The queue of a device. -/
abbrev queue (pool : Running κ χ ρ Net) : TransferQueue := pool.world.device.engine.queue

/-- The tasks spawned so far. -/
abbrev spawned (pool : Running κ χ ρ Net) : List SendTask := pool.world.device.engine.tasks

/-! ## No send is dropped -/

/-- A task has a permit: it is past the semaphore of `next` and has not returned. -/
def pastSemaphore (pool : Running κ χ ρ Net) (id : Uuid) : Prop :=
  (stageOf (pool.threads (.task id))).holds

/-- The spawned tasks that have not taken an entry. -/
def unserved (pool : Running κ χ ρ Net) : List SendTask :=
  (spawned pool).filter fun task => task.transferId ∉ pool.world.popped.map (·.1)

/-- A task that looks for an entry finds one. -/
theorem takes_pending (path : Pool.Reaches (track network) (fun _ _ _ => True) (start usage net files)
      reached) {id : Uuid} (takes : (reached.threads (.task id)).At takesEntry) :
    ∃ entry rest, (queue reached).pending = entry :: rest :=
  List.exists_cons_of_ne_nil ((sound_reached path).pending_ne (permitted_of_takes takes))

/-- The runs of a device, written down. -/
abbrev Records (network : Meaning netSig Net Choice) (usage : Usage κ χ ρ) (net : Net)
    (files : FileStore Path) : Recorded κ χ ρ Net → Prop :=
  Pool.Reaches (Pool.transcribe (track network)) (fun _ _ _ => True)
    (start usage net files).unanswered

/-- A pop that finds an entry is recorded with it. -/
theorem PopsFound.took {popped : List (Uuid × QueuedTransfer)}
    {transcripts : Actor κ χ ρ → Transcript deviceSig} (pops : PopsFound popped transcripts) (id : Uuid)
    (entry : QueuedTransfer) : PopsFound (popped ++ [(id, entry)])
      (Function.update transcripts (.task id)
        (transcripts (.task id) ++ [⟨.engine (.queue .popPending), some entry⟩])) := by
  constructor
  · intro other result member
    by_cases same : Actor.task other = (.task id : Actor κ χ ρ)
    · obtain rfl := Actor.task.inj same
      rw [Function.update_self] at member
      rcases List.mem_append.mp member with old | new
      · obtain ⟨found, rfl, listed⟩ := pops.found other result old
        exact ⟨found, rfl, List.mem_append_left _ listed⟩
      · have answer := eq_of_heq (Sigma.mk.inj (List.mem_singleton.mp new)).2
        exact ⟨entry, answer, List.mem_append_right _ (List.mem_singleton_self _)⟩
    · rw [Function.update_of_ne same] at member
      obtain ⟨found, rfl, listed⟩ := pops.found other result member
      exact ⟨found, rfl, List.mem_append_left _ listed⟩
  · intro other found member
    rcases List.mem_append.mp member with old | new
    · have listed := pops.noted other found old
      by_cases same : Actor.task other = (.task id : Actor κ χ ρ)
      · obtain rfl := Actor.task.inj same
        rw [Function.update_self]
        exact List.mem_append_left _ listed
      · rwa [Function.update_of_ne same]
    · obtain ⟨rfl, rfl⟩ := Prod.mk.inj (List.mem_singleton.mp new)
      rw [Function.update_self]
      exact List.mem_append_right _ (List.mem_singleton_self _)

/-- Any other operation is not. -/
theorem PopsFound.beside {popped : List (Uuid × QueuedTransfer)}
    {transcripts : Actor κ χ ρ → Transcript deviceSig} (pops : PopsFound popped transcripts)
    {i : Actor κ χ ρ} {op : DeviceOp} (result : op.Result)
    (other : ∀ id, i = .task id → takesEntry op = false) :
    PopsFound popped (Function.update transcripts i (transcripts i ++ [⟨op, result⟩])) := by
  constructor
  · intro id found member
    refine pops.found id found ?_
    by_cases same : Actor.task id = i
    · subst same
      rw [Function.update_self] at member
      refine (List.mem_append.mp member).resolve_right fun new => ?_
      obtain ⟨rfl, -⟩ := Sigma.mk.inj (List.mem_singleton.mp new)
      exact Bool.noConfusion (other id rfl)
    · rwa [Function.update_of_ne same] at member
  · intro id entry member
    have listed := pops.noted id entry member
    by_cases same : Actor.task id = i
    · subst same
      rw [Function.update_self]
      exact List.mem_append_left _ listed
    · rwa [Function.update_of_ne same]

/-- A step keeps the record of the pops, when there is an entry for a task that looks for one. -/
theorem PopsFound.step {before after : Recorded κ χ ρ Net} {i : Actor κ χ ρ}
    {choice : DeviceChoice Choice} (pops : before.Sound)
    (pending : ∀ id, (before.threads (.task id)).At takesEntry →
      ∃ entry rest, (queue before.bare).pending = entry :: rest)
    (stepped : before.step (Pool.transcribe (track network)) i choice = some after) : after.Sound := by
  obtain ⟨op, next, result, world, waiting, ran, rfl⟩ := Pool.transcribe_cases stepped
  by_cases taking : ∃ id, i = .task id ∧ takesEntry op
  · obtain ⟨id, rfl, takes⟩ := taking
    obtain ⟨entry, rest, first⟩ := pending id (by rw [waiting]; exact takes)
    obtain rfl := takesEntry_eq takes
    obtain ⟨queue, cells, popped, rfl⟩ := track_queue ran
    have head : before.world.1.device.engine.queue.pending.head? = result :=
      (Prod.mk.inj (Option.some.inj popped)).1
    have found : before.world.1.device.engine.queue.pending = entry :: rest := first
    rw [found] at head
    subst head
    exact pops.took id entry
  · have other : ∀ id, i = .task id → takesEntry op = false := fun id same =>
      Bool.eq_false_iff.mpr fun takes => taking ⟨id, same, takes⟩
    obtain ⟨device, -, rfl⟩ := track_cases ran
    have kept := pops.beside result other
    have same : (Tracked.note { before.world.1 with device } i op result).popped =
        before.world.1.popped := note_popped other
    rw [← same] at kept
    exact kept

/-- In every run the pops are as recorded. -/
theorem popsFound_reached {recorded : Recorded κ χ ρ Net}
    (path : Records network usage net files recorded) : recorded.Sound := by
  induction path with
  | refl => exact ⟨fun _ _ member => (nomatch member), fun _ _ member => (nomatch member)⟩
  | tail before last ih =>
    obtain ⟨i, choice, -, stepped⟩ := last
    exact ih.step
      (fun id takes => takes_pending (Pool.reaches_bare (fun _ _ _ _ => trivial) before) takes) stepped

/-- In every run: there is a pending entry for every spawned task that has not taken one, so a task
that takes one finds one; what `next` returns to a task is the entry that the task has taken, and the task
goes on with it; `next` has returned every entry that was taken and is not about to be pushed; the entries
taken and the pending ones are the enqueued ones, in order and each once; and no more tasks are past the
semaphore than it has permits. -/
theorem none_dropped {recorded : Recorded κ χ ρ Net} (path : Records network usage net files recorded) :
    (unserved recorded.bare).length ≤ (queue recorded.bare).pending.length ∧
      (∀ id, (recorded.threads (.task id)).At takesEntry →
        ∃ entry rest, (queue recorded.bare).pending = entry :: rest) ∧
      (∀ id result, NextReturned recorded id result → ∃ entry session,
        (id, entry) ∈ recorded.world.1.popped ∧ result = some (connecting entry, session) ∧
          ∃ task later, (afterNext usage.sha256 task result).Leaves later
            (recorded.threads (.task id))) ∧
      (∀ id entry, (id, entry) ∈ recorded.world.1.popped → Pushes recorded id (connecting entry) ∨
        ∃ session, NextReturned recorded id (some (connecting entry, session))) ∧
      recorded.world.1.popped.map (·.2) ++ (queue recorded.bare).pending =
        recorded.world.1.enqueued ∧
      (recorded.world.1.enqueued.map (·.id)).Nodup ∧
      ∀ ids : List Uuid, ids.Nodup → (∀ id ∈ ids, pastSemaphore recorded.bare id) →
        ids.length ≤ maxParallelTransfers := by
  have bare : Pool.Reaches (track network) (fun _ _ _ => True) (start usage net files) recorded.bare :=
    Pool.reaches_bare (fun _ _ _ _ => trivial) path
  have sound := sound_reached bare
  have pops := popsFound_reached path
  refine ⟨?_, fun id takes => takes_pending bare takes, fun id result returned => ?_,
    fun id entry popped => ?_, sound.order.symm, sound.distinct, fun ids distinct past => ?_⟩
  · have counted := sound.unserved_le
    have same : (unserved recorded.bare).length = (view recorded.bare).spawned.countP
        (fun worker => !((view recorded.bare).stage worker).served) := by
      rw [unserved, ← List.countP_eq_length_filter]
      show _ = ((spawned recorded.bare).map (·.transferId)).countP _
      rw [List.countP_map]
      refine List.countP_congr fun task _ => ?_
      have served := sound.served task.transferId
      rw [decide_eq_true_eq, Function.comp_apply, Bool.not_eq_true', ← Bool.not_eq_true]
      exact not_congr served
    rw [same]
    exact counted
  · obtain ⟨entry, session, popped, same⟩ := pops.returned returned
    exact ⟨entry, session, popped, same, returned.onward (Pool.reaches_leaves path (.task id))⟩
  · exact pops.passed sound.takenOnce (Pool.reaches_leaves path (.task id)) popped
  · exact sound.holders_le distinct past

/-! ## The active list -/

/-- A task takes an entry only when its own entry is the first one. -/
def InTurn (pool : Running κ χ ρ Net) (i : Actor κ χ ρ) (_ : DeviceChoice Choice) : Prop :=
  (pool.threads i).At takesEntry → match i with
    | .task id => (queue pool).pending.head?.map (·.id) = some id
    | _ => True

instance (pool : Running κ χ ρ Net) (i : Actor κ χ ρ) (choice : DeviceChoice Choice) :
    Decidable (InTurn pool i choice) :=
  match i with
  | .task _ => inferInstanceAs (Decidable (_ → _ = _))
  | .call _ | .control _ | .upload _ => inferInstanceAs (Decidable (_ → True))

/-- A task has returned from `next` and has not taken its id from the active list: it is inside
`send_file`, or about to enter or to leave it. -/
def atWork (pool : Running κ χ ρ Net) (id : Uuid) : Prop :=
  stageOf (pool.threads (.task id)) = .working

/-- The active list mirrors the tasks. -/
structure Mirrors (pool : Running κ χ ρ Net) : Prop where
  bounded : (queue pool).active.length ≤ maxParallelTransfers
  distinct : ((queue pool).active.map (·.1.id)).Nodup
  found : ∀ id, atWork pool id → ((queue pool).findSession id).isSome
  empty : (∀ task ∈ spawned pool, ∃ ended, pool.threads (.task task.transferId) = .done ended) →
    (queue pool).active = []

/-- An id on the active list is found. -/
theorem findSession_isSome {transfers : TransferQueue} {id : Uuid}
    (listed : id ∈ transfers.active.map (·.1.id)) : (transfers.findSession id).isSome := by
  obtain ⟨entry, member, named⟩ := List.mem_map.mp listed
  rw [TransferQueue.findSession, Option.isSome_map]
  exact List.find?_isSome.mpr ⟨entry, member, decide_eq_true named⟩

/-- While each task takes its own entry, the active list mirrors the tasks. -/
theorem active_mirrors
    (path : Pool.Reaches (track network) InTurn (start usage net files) reached) :
    Mirrors reached := by
  have turns : ∀ (pool : Running κ χ ρ Net) i (choice : DeviceChoice Choice), InTurn pool i choice →
      TakesTurn (fun id entry => entry.id = id) pool i := by
    rintro pool _ choice inTurn id rfl takes entry rest first
    have head : (queue pool).pending.head?.map (·.id) = some id := inTurn takes
    have pending : (queue pool).pending = entry :: rest := first
    rw [pending] at head
    exact Option.some.inj head
  have run := (device_refines turns path).2
  have sound := sound_reached path
  have orderly := (Dispatch.orderly_new _ _).run (Dispatch.sound_new _ _) run
  refine {
    bounded := ?_
    distinct := sound.activeOnce
    found := fun id works => findSession_isSome ((orderly.working id).mpr works)
    empty := fun ended => ?_ }
  · have bounded := orderly.active_le sound
    rwa [view, ledger, List.length_map] at bounded
  · have returned : ∀ worker ∈ (view reached).spawned, (view reached).stage worker = .returned := by
      intro worker member
      obtain ⟨task, listed, rfl⟩ := List.mem_map.mp member
      obtain ⟨last, done⟩ := ended task listed
      show stageOf (reached.threads (.task task.transferId)) = .returned
      rw [done]
      rfl
    exact List.map_eq_nil_iff.mp (orderly.idle sound returned)

end

/-! ## Two files -/

/-- A call for two files, any control call, and an upload of one byte of a file of two. -/
def sampleUsage : Usage Unit Control Unit where
  sha256 := Resume.sampleSha256
  paths := Resume.samplePaths
  parse text := .ok ⟨text⟩
  calls _ := ⟨"10.0.0.2", 9000, ⟨1⟩, ["a", "b"]⟩
  controls control := control
  uploads _ := Resume.sampleRequest none [[1]]

/-- Both files are the bytes 1 and 2, sent one by one, and the other end accepts everything. -/
def sampleNetwork : Meaning netSig Unit Unit
  | _, .client (.metadata _), _ => some (.ok 2, ())
  | _, .client (.readFile _), _ => some (.ok [1, 2], ())
  | _, .client (.openFile path), _ => some (.ok (.opened path), ())
  | _, .client (.seek file position), _ => some (file.seek position, ())
  | _, .client (.send _), _ => none
  | _, .post _, _ => some ([[1], [2]], ())
  | _, .handChunk _ _, _ => some ((), ())
  | _, .response _, _ => some (.ok ⟨200, "transfer complete"⟩, ())

/-- Some steps of one actor, and the id it makes if it makes one. -/
def steps (i : Actor Unit Control Unit) (count : Nat) (id : Uuid) :
    List (Actor Unit Control Unit × DeviceChoice Unit) :=
  List.replicate count (i, ⟨id, (), .none⟩)

/-- The call enqueues both files, under the ids 7 and 8, and spawns their tasks. -/
def callSteps : List (Actor Unit Control Unit × DeviceChoice Unit) :=
  steps (.call ()) 4 ⟨7⟩ ++ steps (.call ()) 4 ⟨8⟩

/-- Some steps of a task. -/
def taskSteps (id : Uuid) (count : Nat) : List (Actor Unit Control Unit × DeviceChoice Unit) :=
  steps (.task id) count ⟨0⟩

/-- A run of the sample device. -/
def sampleRun (schedule : List (Actor Unit Control Unit × DeviceChoice Unit)) :
    Option (Running Unit Control Unit Unit) :=
  Pool.run (track sampleNetwork) (fun _ _ _ => True) schedule (start sampleUsage () .empty)

/-- The second file's task takes the first entry, `next` returns it, and there is one left for the first
file's. -/
theorem none_dropped_two : ∃ recorded,
    Pool.run (Pool.transcribe (track sampleNetwork)) (fun _ _ _ => True) (callSteps ++ taskSteps ⟨8⟩ 4)
        (start sampleUsage () .empty).unanswered = some recorded ∧
      (∃ entry session, entry.id = ⟨7⟩ ∧ NextReturned recorded ⟨8⟩ (some (connecting entry, session))) ∧
      (unserved recorded.bare).length ≤ (queue recorded.bare).pending.length := by
  have runs : (Pool.run (Pool.transcribe (track sampleNetwork)) (fun _ _ _ => True)
      (callSteps ++ taskSteps ⟨8⟩ 4) (start sampleUsage () .empty).unanswered).map
        (fun recorded => (recorded.world.1.popped.map fun it => (it.1, it.2.id),
          decide (stageOf (recorded.threads (.task ⟨8⟩)) = .working))) = some ([(⟨8⟩, ⟨7⟩)], true) := by
    decide +kernel
  obtain ⟨recorded, ran, shown⟩ := Option.map_eq_some_iff.mp runs
  obtain ⟨popped, works⟩ := Prod.mk.inj shown
  obtain ⟨pending, -, -, passed, -⟩ := none_dropped (Pool.reaches_of_run ran)
  refine ⟨recorded, ran, ?_, pending⟩
  obtain ⟨⟨id, entry⟩, member, same⟩ : ∃ it ∈ recorded.world.1.popped, (it.1, it.2.id) = (⟨8⟩, ⟨7⟩) :=
    List.mem_map.mp (popped ▸ List.mem_singleton_self _)
  obtain ⟨rfl, named⟩ := Prod.mk.inj same
  rcases passed ⟨8⟩ entry member with ⟨next, pushes⟩ | ⟨session, returned⟩
  · have working := of_decide_eq_true works
    rw [pushes] at working
    cases working
  · exact ⟨entry, session, named, returned⟩

/-- Two tasks in turn, both at work. -/
theorem active_mirrors_two : ∃ reached,
    Pool.run (track sampleNetwork) InTurn (callSteps ++ taskSteps ⟨7⟩ 9 ++ taskSteps ⟨8⟩ 6)
        (start sampleUsage () .empty) = some reached ∧
      (queue reached).active.map (·.1.id) = [⟨7⟩, ⟨8⟩] ∧ Mirrors reached := by
  have runs : (Pool.run (track sampleNetwork) InTurn
      (callSteps ++ taskSteps ⟨7⟩ 9 ++ taskSteps ⟨8⟩ 6) (start sampleUsage () .empty)).map
        (fun reached => (queue reached).active.map (·.1.id)) = some [⟨7⟩, ⟨8⟩] := by
    decide +kernel
  obtain ⟨reached, ran, active⟩ := Option.map_eq_some_iff.mp runs
  exact ⟨reached, ran, active, active_mirrors (Pool.reaches_of_run ran)⟩

/-- A task that has taken another one's entry sends without a session under its own id. -/
theorem active_mirrors_broken :
    ¬∀ (usage : Usage Unit Control Unit) (network : Meaning netSig Unit Unit)
      (files : FileStore Path) (reached : Running Unit Control Unit Unit),
      Pool.Reaches (track network) (fun _ _ _ => True) (start usage () files) reached →
      Mirrors reached := by
  intro always
  have runs : (sampleRun (callSteps ++ taskSteps ⟨8⟩ 5)).map (fun reached =>
      (decide (stageOf (reached.threads (.task ⟨8⟩)) = .working),
        ((queue reached).findSession ⟨8⟩).isSome)) = some (true, false) := by
    decide +kernel
  obtain ⟨reached, ran, shown⟩ := Option.map_eq_some_iff.mp runs
  obtain ⟨works, missing⟩ := Prod.mk.inj shown
  have mirrors := always _ _ _ _ (Pool.reaches_of_run ran)
  have atWork : stageOf (reached.threads (.task ⟨8⟩)) = .working := of_decide_eq_true works
  have found := mirrors.found ⟨8⟩ atWork
  rw [missing] at found
  cases found

end FileDrop.Parallel
