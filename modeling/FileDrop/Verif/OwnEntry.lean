import FileDrop.Ffi.Api
import FileDrop.Foundation.Interleaving

/-!
# Each task and its queue entry

Every file of a `send_files` call is enqueued under a new id, and a task of its own is spawned for
that id; the task then takes whatever entry is first in the queue. As long as the tasks take their
entries in the order in which these were enqueued, each task obtains the entry of its own id, and
the session it sends with is that transfer's. When a task overtakes another one, both get the
other's entry and session.
-/
namespace FileDrop.OwnEntry
open FileDrop Effects Effects.Program

/-- A call of `send_files`, or the task of an id. -/
inductive Sender (κ : Type) where
  | call (n : κ)
  | task (transferId : Uuid)
  deriving DecidableEq

/-- What `next` returned to a task. -/
structure Obtained where
  transferId : Uuid
  queued : QueuedTransfer
  session : TransferSession

/-- The engine, with a record of what its queue was used for. -/
structure Observed (κ Net : Type) where
  engine : EngineWorld Net
  /-- Who made an id. -/
  owner : Uuid → Option (Sender κ)
  /-- The entries enqueued so far, in order. -/
  enqueued : List QueuedTransfer
  /-- The tasks that have taken an entry, in order, with that entry. -/
  popped : List (Uuid × QueuedTransfer)
  /-- What `next` has returned so far. -/
  obtained : List Obtained

variable {κ Net Choice : Type}

/-- Record one operation. -/
def Observed.note (seen : Observed κ Net) : Sender κ → (op : EngineOp) → op.Result → Observed κ Net
  | i, .newTransferId, id => { seen with owner := Function.update seen.owner id (some i) }
  | _, .queue (.enqueue transfer), _ => { seen with enqueued := seen.enqueued ++ [transfer] }
  | .task id, .queue .popPending, some entry => { seen with popped := seen.popped ++ [(id, entry)] }
  | .task id, .queue (.activate queued), session =>
    { seen with obtained := seen.obtained ++ [⟨id, queued, session⟩] }
  | _, _, _ => seen

/-- Carry out one operation and record it. -/
def observe (network : Meaning clientSig Net Choice) (i : Sender κ) :
    Meaning engineSig (Observed κ Net) (EngineChoice Choice) := fun seen op choice =>
  (engineExec network seen.engine op choice).map fun (result, engine) =>
    (result, { seen with engine }.note i op result)

/-- What a thread returns: a call its result, a task nothing. -/
abbrev Returned : Type := Except String (List Uuid) ⊕ Unit

/-- Calls of `send_files` on a new engine, and a task for every id that waits to be spawned. -/
def start (sha256 : Sha256) (parse : String → Except String SocketAddr) (calls : κ → SendCall)
    (net : Net) : Pool (Sender κ) engineSig (Observed κ Net) Returned where
  world := ⟨.new net, fun _ => none, [], [], []⟩
  threads
    | .call n => (sendFiles parse (calls n)).bind fun result => .done (.inl result)
    | .task id => .perform (.spawned id) fun task =>
      (runQueuedSend sha256 task).bind fun _ => .done (.inr ())

/-! ## The books -/

/-- What the argument is about: the ids, the queue and the tasks, and what was recorded. -/
structure Books (κ : Type) where
  issued : List Uuid
  owner : Uuid → Option (Sender κ)
  enqueued : List QueuedTransfer
  pending : List QueuedTransfer
  tasks : List SendTask
  popped : List (Uuid × QueuedTransfer)
  obtained : List Obtained

/-- The books of an engine. -/
def Observed.books (seen : Observed κ Net) : Books κ where
  issued := seen.engine.issued
  owner := seen.owner
  enqueued := seen.enqueued
  pending := seen.engine.queue.pending
  tasks := seen.engine.tasks
  popped := seen.popped
  obtained := seen.obtained

/-- The entry of a task's file. -/
structure Describes (entry : QueuedTransfer) (task : SendTask) : Prop where
  id : entry.id = task.transferId
  path : entry.filePath = task.path
  fileName : entry.fileName = task.fileName
  totalBytes : entry.totalBytes = task.totalBytes

/-- A task obtained the entry that was enqueued for its own file, and a session for it. -/
structure Own (books : Books κ) (obtained : Obtained) : Prop where
  entry : ∃ entry ∈ books.enqueued, entry.id = obtained.transferId ∧
    obtained.queued = { entry with status := .connecting } ∧
    ∃ task ∈ books.tasks, Describes entry task
  id : obtained.session.id = obtained.transferId
  fileName : obtained.session.fileName = obtained.queued.fileName
  totalBytes : obtained.session.totalBytes = obtained.queued.totalBytes

/-- What holds of the books at any time. -/
structure Balanced (books : Books κ) : Prop where
  /-- An id that has an owner was made. -/
  issued : ∀ id, (books.owner id).isSome → id ∈ books.issued
  /-- The id of an entry has an owner. -/
  owned : ∀ entry ∈ books.enqueued, (books.owner entry.id).isSome
  /-- No two entries have the same id. -/
  distinct : (books.enqueued.map (·.id)).Nodup
  /-- Entries are taken in the order in which they were enqueued. -/
  order : books.enqueued = books.popped.map (·.2) ++ books.pending
  /-- A task takes its own entry. -/
  own : ∀ taken ∈ books.popped, taken.2.id = taken.1
  /-- A task has an entry. -/
  tasks : ∀ task ∈ books.tasks, ∃ entry ∈ books.enqueued, Describes entry task
  /-- What a task obtained is its own. -/
  obtained : ∀ obtained ∈ books.obtained, Own books obtained

/-- What one operation of a thread does to the books. -/
inductive Booked (i : Sender κ) (pops : Prop) (books : Books κ) : Books κ → Prop where
  | same : Booked i pops books books
  | made {id : Uuid} (fresh : id ∉ books.issued) : Booked i pops books
      { books with
        issued := id :: books.issued
        owner := Function.update books.owner id (some i) }
  | enqueued {entry : QueuedTransfer} (mine : books.owner entry.id = some i)
      (fresh : ∀ other ∈ books.enqueued, other.id ≠ entry.id) : Booked i pops books
      { books with
        enqueued := books.enqueued ++ [entry]
        pending := books.pending ++ [entry] }
  | spawned {entry : QueuedTransfer} {task : SendTask} (listed : entry ∈ books.enqueued)
      (describes : Describes entry task) :
      Booked i pops books { books with tasks := books.tasks ++ [task] }
  | popped {id : Uuid} {entry : QueuedTransfer} {rest : List QueuedTransfer} (mine : i = .task id)
      (now : pops) (fresh : ∀ taken ∈ books.popped, taken.1 ≠ id)
      (first : books.pending = entry :: rest) : Booked i pops books
      { books with
        pending := rest
        popped := books.popped ++ [(id, entry)] }
  | obtained {id : Uuid} {entry : QueuedTransfer} {task : SendTask} {session : TransferSession}
      (mine : i = .task id) (taken : (id, entry) ∈ books.popped) (spawned : task ∈ books.tasks)
      (named : task.transferId = id) (sessionId : session.id = entry.id)
      (sessionName : session.fileName = entry.fileName)
      (sessionBytes : session.totalBytes = entry.totalBytes) : Booked i pops books
      { books with
        obtained := books.obtained ++ [⟨id, { entry with status := .connecting }, session⟩] }

/-- The other threads leave alone what is a thread's own, and forget nothing. -/
structure Drift (i : Sender κ) (before after : Books κ) : Prop where
  owner : ∀ id, before.owner id = some i → after.owner id = some i
  mine : ∀ id, before.owner id = some i → ∀ entry ∈ after.enqueued, entry.id = id →
    entry ∈ before.enqueued
  enqueued : before.enqueued ⊆ after.enqueued
  tasks : before.tasks ⊆ after.tasks
  popped : ∀ id, i = .task id → ∀ entry, (id, entry) ∈ after.popped ↔ (id, entry) ∈ before.popped

theorem Drift.refl (i : Sender κ) (books : Books κ) : Drift i books books :=
  ⟨fun _ => id, fun _ _ _ member _ => member, List.Subset.refl _, List.Subset.refl _,
    fun _ _ _ => Iff.rfl⟩

theorem Drift.trans {i : Sender κ} {first second third : Books κ} (near : Drift i first second)
    (far : Drift i second third) : Drift i first third where
  owner id owned := far.owner id (near.owner id owned)
  mine id owned entry member same :=
    near.mine id owned entry (far.mine id (near.owner id owned) entry member same) same
  enqueued := List.Subset.trans near.enqueued far.enqueued
  tasks := List.Subset.trans near.tasks far.tasks
  popped id mine entry := (far.popped id mine entry).trans (near.popped id mine entry)

/-- An operation of one thread is drift for every other one. -/
theorem Booked.drift {i j : Sender κ} {pops : Prop} {before after : Books κ}
    (booked : Booked i pops before after) (balanced : Balanced before) (apart : j ≠ i) :
    Drift j before after := by
  have still := Drift.refl j before
  cases booked with
  | same => exact still
  | @made id fresh =>
    refine { still with owner := fun other owned => ?_ }
    have differs : other ≠ id := by
      rintro rfl
      exact fresh (balanced.issued other (by simp [owned]))
    simpa only [Function.update_of_ne differs] using owned
  | enqueued mine fresh =>
    refine { still with mine := fun id owned entry member same => ?_, enqueued := by simp }
    rcases List.mem_append.mp member with old | new
    · exact old
    · obtain rfl := List.mem_singleton.mp new
      rw [same, owned] at mine
      exact absurd (Option.some.inj mine) apart
  | spawned => exact { still with tasks := by simp }
  | @popped id entry rest mine now fresh first =>
    refine { still with popped := fun other same taken => ?_ }
    have differs : other ≠ id := fun equal => apart (by rw [same, mine, equal])
    simp [differs]
  | obtained => exact ⟨still.owner, still.mine, still.enqueued, still.tasks, still.popped⟩

/-- Every entry enqueued before the one of an id was taken by the task of its own id. -/
def Due (books : Books κ) (id : Uuid) : Prop :=
  ∀ entry ∈ books.enqueued.takeWhile (·.id ≠ id), ∃ taken ∈ books.popped, taken.1 = entry.id

/-- A task that is due finds its own entry first in the queue. -/
theorem Balanced.first {books : Books κ} (balanced : Balanced books) {id : Uuid} (due : Due books id)
    (fresh : ∀ taken ∈ books.popped, taken.1 ≠ id) {entry : QueuedTransfer}
    {rest : List QueuedTransfer} (first : books.pending = entry :: rest) : entry.id = id := by
  by_contra other
  have order := balanced.order
  rw [first] at order
  have passed : ∀ done ∈ books.popped.map (·.2), decide (done.id ≠ id) = true := by
    intro done member
    obtain ⟨taken, listed, rfl⟩ := List.mem_map.mp member
    rw [decide_eq_true_eq, balanced.own taken listed]
    exact fresh taken listed
  have earlier : entry ∈ books.enqueued.takeWhile (·.id ≠ id) := by
    rw [order, List.takeWhile_append_of_pos passed]
    simp [other]
  obtain ⟨taken, listed, same⟩ := due entry earlier
  have distinct := balanced.distinct
  rw [order, List.map_append, List.nodup_append] at distinct
  refine distinct.2.2 taken.2.id ?_ entry.id (by simp) (by rw [balanced.own taken listed, same])
  simp only [List.map_map, List.mem_map]
  exact ⟨taken, listed, rfl⟩

/-- What is a task's own stays so when the books grow. -/
theorem Own.mono {before after : Books κ} {obtained : Obtained} (own : Own before obtained)
    (enqueued : before.enqueued ⊆ after.enqueued) (tasks : before.tasks ⊆ after.tasks) :
    Own after obtained := by
  obtain ⟨entry, listed, named, queued, task, spawned, describes⟩ := own.entry
  exact ⟨⟨entry, enqueued listed, named, queued, task, tasks spawned, describes⟩, own.id,
    own.fileName, own.totalBytes⟩

/-- An entry with a new id that its call has made keeps the books balanced. -/
theorem Balanced.enqueue {books : Books κ} (balanced : Balanced books) {i : Sender κ}
    {entry : QueuedTransfer} (mine : books.owner entry.id = some i)
    (fresh : ∀ other ∈ books.enqueued, other.id ≠ entry.id) :
    Balanced { books with
      enqueued := books.enqueued ++ [entry]
      pending := books.pending ++ [entry] } := by
  have grows : books.enqueued ⊆ books.enqueued ++ [entry] := by simp
  refine {
    issued := balanced.issued
    owned := fun other member => ?_
    distinct := ?_
    order := ?_
    own := balanced.own
    tasks := fun task member => ?_
    obtained := fun obtained member =>
      (balanced.obtained obtained member).mono grows (List.Subset.refl _) }
  · rcases List.mem_append.mp member with old | new
    · exact balanced.owned other old
    · obtain rfl := List.mem_singleton.mp new
      simp [mine]
  · rw [List.map_append, List.nodup_append]
    refine ⟨balanced.distinct, by simp, ?_⟩
    intro left old right new
    obtain ⟨other, listed, rfl⟩ := List.mem_map.mp old
    rw [List.map_singleton, List.mem_singleton] at new
    exact new ▸ fresh other listed
  · simp only [balanced.order, List.append_assoc]
  · obtain ⟨other, listed, describes⟩ := balanced.tasks task member
    exact ⟨other, grows listed, describes⟩

/-- The task of an entry that was taken is described by it. -/
theorem Balanced.describes {books : Books κ} (balanced : Balanced books) {entry : QueuedTransfer}
    {task : SendTask} (taken : (task.transferId, entry) ∈ books.popped) (spawned : task ∈ books.tasks) :
    entry ∈ books.enqueued ∧ Describes entry task := by
  have listed : entry ∈ books.enqueued := by
    rw [balanced.order]
    exact List.mem_append_left _ (List.mem_map.mpr ⟨_, taken, rfl⟩)
  obtain ⟨other, found, describes⟩ := balanced.tasks task spawned
  have same : other = entry :=
    List.inj_on_of_nodup_map balanced.distinct found listed
      (by rw [describes.id]; exact (balanced.own _ taken).symm)
  exact ⟨listed, same ▸ describes⟩

/-- Balanced books stay balanced, when a task that takes an entry is due. -/
theorem Booked.balanced {i : Sender κ} {pops : Prop} {before after : Books κ}
    (booked : Booked i pops before after) (balanced : Balanced before)
    (due : ∀ id, i = .task id → pops → Due before id) : Balanced after := by
  cases booked with
  | same => exact balanced
  | @made id fresh =>
    refine { balanced with
      issued := fun other owned => ?_
      owned := fun entry member => ?_
      obtained := fun obtained member =>
        (balanced.obtained obtained member).mono (List.Subset.refl _) (List.Subset.refl _) }
    · by_cases same : other = id
      · exact same ▸ List.mem_cons_self
      · simp only [Function.update_of_ne same] at owned
        exact List.mem_cons_of_mem _ (balanced.issued other owned)
    · by_cases same : entry.id = id
      · simp [same]
      · simp only [Function.update_of_ne same]
        exact balanced.owned entry member
  | enqueued mine fresh => exact balanced.enqueue mine fresh
  | @spawned entry task listed describes =>
    have grows : before.tasks ⊆ before.tasks ++ [task] := by simp
    refine { balanced with
      tasks := fun other member => ?_
      obtained := fun obtained member =>
        (balanced.obtained obtained member).mono (List.Subset.refl _) grows }
    rcases List.mem_append.mp member with old | new
    · exact balanced.tasks other old
    · exact ⟨entry, listed, List.mem_singleton.mp new ▸ describes⟩
  | @popped id entry rest mine now fresh first =>
    refine { balanced with
      order := ?_
      own := fun taken member => ?_
      obtained := fun obtained member =>
        (balanced.obtained obtained member).mono (List.Subset.refl _) (List.Subset.refl _) }
    · simp only [balanced.order, first, List.map_append, List.map_singleton, List.append_assoc,
        List.singleton_append]
    · rcases List.mem_append.mp member with old | new
      · exact balanced.own taken old
      · obtain rfl := List.mem_singleton.mp new
        exact balanced.first (due id mine now) fresh first
  | @obtained id entry task session mine taken spawned named sessionId sessionName sessionBytes =>
    refine { balanced with obtained := fun obtained member => ?_ }
    rcases List.mem_append.mp member with old | new
    · exact (balanced.obtained obtained old).mono (List.Subset.refl _) (List.Subset.refl _)
    · obtain rfl := List.mem_singleton.mp new
      subst named
      have ownId := balanced.own _ taken
      obtain ⟨listed, describes⟩ := balanced.describes taken spawned
      exact {
        entry := ⟨entry, listed, ownId, rfl, task, spawned, describes⟩
        id := sessionId.trans ownId
        fileName := sessionName
        totalBytes := sessionBytes }

/-! ## What a thread does -/

/-- The operation that takes the first entry. -/
def takes : engineSig.Op → Bool
  | .queue .popPending => true
  | _ => false

/-- The operations that the books say nothing about. -/
def unbooked : engineSig.Op → Bool
  | .client _ | .spawned _ | .emit _ => true
  | .queue .acquirePermit | .queue (.markFinished _) | .queue .releasePermit => true
  | _ => false

/-- An operation that is not booked leaves the books as they are. -/
theorem observe_unbooked {network : Meaning clientSig Net Choice} {i : Sender κ} {op : EngineOp}
    (quiet : unbooked op) {seen after : Observed κ Net} {choice : EngineChoice Choice}
    {result : op.Result} (ran : observe network i seen op choice = some (result, after)) :
    after.books = seen.books := by
  obtain ⟨⟨outcome, engine⟩, stepped, same⟩ := Option.map_eq_some_iff.mp ran
  obtain ⟨rfl, rfl⟩ := Prod.mk.inj same
  cases op with
  | queue inner =>
    obtain ⟨queue, cells, moved, rfl⟩ := engineExec_queue stepped
    cases inner with
    | enqueue | popPending | activate => cases quiet
    | acquirePermit =>
      obtain ⟨-, rfl, rfl⟩ := QueueOp.exec_acquirePermit moved
      cases i <;> rfl
    | markFinished | releasePermit =>
      simp only [QueueOp.exec, Option.some.injEq, Prod.mk.injEq] at moved
      obtain ⟨-, rfl, rfl⟩ := moved
      cases i <;> rfl
  | client inner =>
    obtain ⟨net, -, rfl⟩ := engineExec_client stepped
    cases i <;> rfl
  | newTransferId | spawn => cases quiet
  | spawned id =>
    obtain ⟨-, -, rfl⟩ := engineExec_spawned stepped
    cases i <;> rfl
  | emit event =>
    obtain ⟨-, rfl⟩ := Prod.mk.inj (Option.some.inj stepped)
    cases i <;> rfl

section

variable (network : Meaning clientSig Net Choice) (i : Sender κ)

/-- What a thread lets the others do. -/
def rely (_ : Program engineSig Returned) (before after : Observed κ Net) : Prop :=
  Drift i before.books after.books ∧ Balanced after.books

/-- What a thread does itself. -/
def books (program : Program engineSig Returned) (before : Observed κ Net)
    (_ : Program engineSig Returned) (after : Observed κ Net) : Prop :=
  Booked i (program.At takes) before.books after.books

/-- A thread that does nothing but what is booked. -/
abbrev Keeps : Program engineSig Returned → Observed κ Net → Prop :=
  Safe (observe network i) (rely i) (books i)

variable {network i}

/-- An operation of a thread that knows something about the books, and knows it whatever the other
threads do. -/
theorem keeps_step {op : EngineOp} {next : op.Result → Program engineSig Returned}
    {known : Books κ → Prop}
    (stable : ∀ before after, known before → Drift i before after → known after)
    (sound : ∀ seen choice result after, known seen.books → Balanced seen.books →
      observe network i seen op choice = some (result, after) →
        Booked i (takes op) seen.books after.books ∧ Keeps network i (next result) after)
    {seen : Observed κ Net} (knows : known seen.books) :
    Keeps network i (.perform op next) seen := by
  rintro later ⟨moved, balanced⟩ choice result after ran
  exact sound later choice result after (stable _ _ knows moved) balanced ran

/-- Operations that are not booked leave what a thread knows as it is. -/
theorem keeps_only {α : Type} {program : Program engineSig α}
    {rest : α → Program engineSig Returned} (quiet : program.Only unbooked) {known : Books κ → Prop}
    (stable : ∀ before after, known before → Drift i before after → known after)
    (later : ∀ value seen, known seen.books → Keeps network i (rest value) seen)
    {seen : Observed κ Net} (knows : known seen.books) :
    Keeps network i (program.bind rest) seen := by
  induction program generalizing seen with
  | done value => exact later value seen knows
  | perform op next ih =>
    refine keeps_step stable (fun before choice result after knows _ ran => ?_) knows
    have still := observe_unbooked quiet.1 ran
    refine ⟨?_, ih result (quiet.2 result) (still.symm ▸ knows)⟩
    rw [still]
    exact .same

/-- What a task does with its session is not booked. -/
theorem keeps_sendWith {sha256 : Sha256} {task : SendTask} {session : TransferSession}
    {seen : Observed κ Net} :
    Keeps network i ((sendWith sha256 task session).bind fun _ => .done (.inr ())) seen := by
  have client : ∀ op, (engineClient op).Only unbooked := fun op => ⟨rfl, fun _ => trivial⟩
  have emits : ∀ event, (emit event).Only unbooked := fun event => ⟨rfl, fun _ => trivial⟩
  have reports : ∀ result, (reportSend sha256 task result).Only unbooked := by
    intro result
    cases result with
    | error error => exact emits _
    | ok done => exact (sha256File_only (client _) sha256).bind fun digest => emits _
  have cleans : ((TransferQueue.markFinished queueCall task.transferId).bind fun _ =>
      queueCall .releasePermit).Only unbooked :=
    ⟨rfl, fun _ => ⟨rfl, fun _ => trivial⟩⟩
  have stable : ∀ before after : Books κ, True → Drift i before after → True :=
    fun _ _ _ _ => trivial
  have ends : ∀ (_ : Unit) (last : Observed κ Net), True →
      Keeps network i (.done (.inr ())) last := fun _ _ _ => trivial
  refine keeps_only ?_ stable ends trivial
  exact (emits _).bind fun _ => (sendFile_only (fun op _ => client op) _ _ _ _ _).bind fun result =>
    (reports result).bind fun _ => cleans

end

section

variable {network : Meaning clientSig Net Choice} {id : Uuid}

/-- A task has not taken an entry. -/
def Empty (id : Uuid) (books : Books κ) : Prop := ∀ taken ∈ books.popped, taken.1 ≠ id

/-- A task is spawned. -/
def Spawned (id : Uuid) (books : Books κ) : Prop := ∃ task ∈ books.tasks, task.transferId = id

/-- No other thread takes an entry for a task. -/
theorem Empty.drift (before after : Books κ) (empty : Empty id before)
    (moved : Drift (.task id) before after) : Empty id after := by
  rintro ⟨taker, entry⟩ member rfl
  exact empty _ ((moved.popped taker rfl entry).mp member) rfl

/-- A spawned task stays spawned. -/
theorem Spawned.drift {before after : Books κ} (spawned : Spawned id before) {i : Sender κ}
    (moved : Drift i before after) : Spawned id after := by
  obtain ⟨task, member, named⟩ := spawned
  exact ⟨task, moved.tasks member, named⟩

/-- A task that has taken an entry makes a session for that entry. -/
theorem keeps_activate {entry : QueuedTransfer} {next : TransferSession → Program engineSig Returned}
    (later : ∀ session (last : Observed κ Net), Keeps network (.task id) (next session) last)
    {seen : Observed κ Net} (taken : (id, entry) ∈ seen.books.popped) (spawned : Spawned id seen.books) :
    Keeps network (.task id)
      (.perform (.queue (.activate { entry with status := .connecting })) next) seen := by
  have stable : ∀ before after : Books κ, (id, entry) ∈ before.popped ∧ Spawned id before →
      Drift (.task id) before after → (id, entry) ∈ after.popped ∧ Spawned id after :=
    fun _ _ knows moved => ⟨(moved.popped id rfl entry).mpr knows.1, knows.2.drift moved⟩
  refine keeps_step stable (fun before choice session after knows _ ran => ?_) ⟨taken, spawned⟩
  obtain ⟨rfl, rfl⟩ := Prod.mk.inj (Option.some.inj ran)
  obtain ⟨popped, task, member, named⟩ := knows
  exact ⟨.obtained rfl popped member named rfl rfl rfl, later _ _⟩

/-- What a spawned task that has not taken an entry knows. -/
def Waiting (id : Uuid) (books : Books κ) : Prop := Empty id books ∧ Spawned id books

/-- It knows that until it takes one. -/
theorem Waiting.drift (before after : Books κ) (waiting : Waiting id before)
    (moved : Drift (.task id) before after) : Waiting id after :=
  ⟨waiting.1.drift _ _ moved, waiting.2.drift moved⟩

/-- A task with its permit takes the first entry. -/
theorem keeps_pop {next : Option QueuedTransfer → Program engineSig Returned}
    (nothing : ∀ last : Observed κ Net, Keeps network (.task id) (next none) last)
    (something : ∀ entry (last : Observed κ Net), (id, entry) ∈ last.books.popped →
      Spawned id last.books → Keeps network (.task id) (next (some entry)) last)
    {seen : Observed κ Net} (waiting : Waiting id seen.books) :
    Keeps network (.task id) (.perform (.queue .popPending) next) seen := by
  refine keeps_step Waiting.drift (fun before choice found after waiting _ ran => ?_) waiting
  obtain ⟨empty, spawned⟩ := waiting
  obtain ⟨rfl, rfl⟩ := Prod.mk.inj (Option.some.inj ran)
  cases pending : before.engine.queue.pending with
  | nil =>
    have unchanged : { before.books with pending := [] } = before.books := by
      rw [← show before.books.pending = [] from pending]
    have booked : Booked (.task id) (takes (.queue .popPending)) before.books
        { before.books with pending := [] } := by
      rw [unchanged]
      exact .same
    exact ⟨booked, nothing _⟩
  | cons entry rest =>
    have booked : Booked (.task id) (takes (.queue .popPending)) before.books { before.books with
        pending := rest
        popped := before.books.popped ++ [(id, entry)] } :=
      .popped rfl rfl empty pending
    refine ⟨booked, something entry _ ?_ spawned⟩
    exact List.mem_append_right _ (List.mem_singleton.mpr rfl)

/-- A task. -/
theorem keeps_task {sha256 : Sha256} {seen : Observed κ Net} (empty : Empty id seen.books) :
    Keeps network (.task id) (.perform (.spawned id) fun task =>
      (runQueuedSend sha256 task).bind fun _ => .done (.inr ())) seen := by
  refine keeps_step Empty.drift (fun before choice task after empty _ ran => ?_) empty
  have still := observe_unbooked rfl ran
  have spawned : Spawned id before.books := by
    obtain ⟨⟨outcome, engine⟩, stepped, -⟩ := Option.map_eq_some_iff.mp ran
    obtain ⟨listed, named, -⟩ := engineExec_spawned stepped
    exact ⟨outcome, listed, named⟩
  have waiting : Waiting id after.books := still ▸ ⟨empty, spawned⟩
  refine ⟨still ▸ .same, ?_⟩
  refine keeps_step Waiting.drift (fun before choice _ after waiting _ ran => ?_) waiting
  have still := observe_unbooked rfl ran
  refine ⟨still ▸ .same, keeps_pop (fun last => ?_) (fun entry last taken spawned => ?_)
    (still ▸ waiting)⟩
  · have released : (queueCall .releasePermit).Only unbooked := ⟨rfl, fun _ => trivial⟩
    have stable : ∀ before after : Books κ, True → Drift (.task id) before after → True :=
      fun _ _ _ _ => trivial
    have ends : ∀ (_ : Unit) (last : Observed κ Net), True →
        Keeps network (.task id) (.done (.inr ())) last := fun _ _ _ => trivial
    exact keeps_only released stable ends trivial
  · exact keeps_activate (fun session last => keeps_sendWith) taken spawned

end

section

variable {network : Meaning clientSig Net Choice} {n : κ}

/-- An id that a call has made and not yet used. -/
def Unused (n : κ) (id : Uuid) (books : Books κ) : Prop :=
  books.owner id = some (.call n) ∧ ∀ entry ∈ books.enqueued, entry.id ≠ id

/-- No other thread uses a call's id. -/
theorem Unused.drift {id : Uuid} (before after : Books κ) (unused : Unused n id before)
    (moved : Drift (.call n) before after) : Unused n id after := by
  refine ⟨moved.owner id unused.1, fun entry member same => ?_⟩
  exact unused.2 entry (moved.mine id unused.1 entry member same) same

/-- The loop of a call: an id, its entry and its task for each path. -/
theorem keeps_sendEach {addr : SocketAddr} {peerDeviceId : Uuid} {paths : List String}
    {ids : List Uuid} {seen : Observed κ Net} :
    Keeps network (.call n)
      ((sendEach addr peerDeviceId paths ids).bind fun result => .done (.inl result)) seen := by
  have stable : ∀ before after : Books κ, True → Drift (.call n) before after → True :=
    fun _ _ _ _ => trivial
  induction paths generalizing ids seen with
  | nil => exact trivial
  | cons path rest ih =>
    refine keeps_step stable (fun before choice found after _ _ ran => ?_) trivial
    have still := observe_unbooked rfl ran
    refine ⟨still ▸ .same, ?_⟩
    cases found with
    | error error => exact trivial
    | ok totalBytes =>
      refine keeps_step stable (fun before drawn id after _ balanced ran => ?_) trivial
      obtain ⟨⟨made, engine⟩, stepped, same⟩ := Option.map_eq_some_iff.mp ran
      obtain ⟨rfl, used, rfl⟩ := engineExec_newTransferId stepped
      obtain ⟨rfl, rfl⟩ := Prod.mk.inj same
      refine ⟨.made used, ?_⟩
      have unused : Unused n drawn.id { before.books with
          issued := drawn.id :: before.books.issued
          owner := Function.update before.books.owner drawn.id (some (.call n)) } := by
        refine ⟨Function.update_self .., fun entry member equal => used ?_⟩
        exact equal ▸ balanced.issued entry.id (balanced.owned entry member)
      refine keeps_step Unused.drift (fun before choice _ after unused _ ran => ?_) unused
      obtain ⟨-, rfl⟩ := Prod.mk.inj (Option.some.inj ran)
      refine ⟨.enqueued unused.1 unused.2, ?_⟩
      let entry : QueuedTransfer := ⟨drawn.id, path, (pathFileName path).getD "unnamed_file",
        totalBytes, peerDeviceId, .send, .queued⟩
      have kept : ∀ before after : Books κ, entry ∈ before.enqueued →
          Drift (.call n) before after → entry ∈ after.enqueued :=
        fun _ _ listed moved => moved.enqueued listed
      refine keeps_step kept (fun before choice _ after listed _ ran => ?_) ?_
      · obtain ⟨-, rfl⟩ := Prod.mk.inj (Option.some.inj ran)
        exact ⟨.spawned listed ⟨rfl, rfl, rfl, rfl⟩, ih⟩
      · exact List.mem_append_right _ (List.mem_singleton.mpr rfl)

/-- A call. -/
theorem keeps_call {parse : String → Except String SocketAddr} {given : SendCall}
    {seen : Observed κ Net} :
    Keeps network (.call n) ((sendFiles parse given).bind fun result => .done (.inl result))
      seen := by
  unfold sendFiles
  split
  · trivial
  · exact keeps_sendEach

end

/-! ## Every run -/

section

variable [DecidableEq κ] {network : Meaning clientSig Net Choice} {sha256 : Sha256}
variable {parse : String → Except String SocketAddr} {calls : κ → SendCall} {net : Net}

/-- A task takes an entry only after every task whose entry was enqueued before its own. -/
def InOrder (pool : Pool (Sender κ) engineSig (Observed κ Net) Returned) (i : Sender κ)
    (_ : EngineChoice Choice) : Prop :=
  (pool.threads i).At takes → match i with
    | .call _ => True
    | .task id => Due pool.world.books id

instance (books : Books κ) (id : Uuid) : Decidable (Due books id) :=
  inferInstanceAs (Decidable (∀ entry ∈ books.enqueued.takeWhile (·.id ≠ id),
    ∃ taken ∈ books.popped, taken.1 = entry.id))

instance (pool : Pool (Sender κ) engineSig (Observed κ Net) Returned) (i : Sender κ)
    (choice : EngineChoice Choice) : Decidable (InOrder pool i choice) :=
  match i with
  | .call _ => inferInstanceAs (Decidable (_ → True))
  | .task _ => inferInstanceAs (Decidable (_ → Due _ _))

/-- While the tasks take their entries in order, each one obtains the entry of its own transfer and a
session for it. -/
theorem ownEntry_inOrder {reached : Pool (Sender κ) engineSig (Observed κ Net) Returned}
    (path : Pool.Reaches (observe network) InOrder (start sha256 parse calls net) reached) :
    ∀ obtained ∈ reached.world.obtained, Own reached.world.books obtained := by
  have balancedStart : Balanced (start sha256 parse calls net).world.books := {
    issued := fun id owned => nomatch owned
    owned := fun entry member => nomatch member
    distinct := List.nodup_nil
    order := rfl
    own := fun taken member => nomatch member
    tasks := fun task member => nomatch member
    obtained := fun obtained member => nomatch member }
  have safeStart : ∀ i, Keeps network i ((start sha256 parse calls net).threads i)
      (start sha256 parse calls net).world := by
    intro i
    cases i with
    | call n => exact keeps_call
    | task id => exact keeps_task fun taken none => nomatch none
  have compatible : ∀ (before after : Pool (Sender κ) engineSig (Observed κ Net) Returned) i
      (choice : EngineChoice Choice), Balanced before.world.books → InOrder before i choice →
      before.step (observe network) i choice = some after →
      books i (before.threads i) before.world (after.threads i) after.world →
      Balanced after.world.books ∧ ∀ j, j ≠ i → rely j (before.threads j) before.world after.world := by
    intro before after i choice balanced ordered _ booked
    have due : ∀ id, i = .task id → (before.threads i).At takes → Due before.world.books id := by
      rintro id rfl waits
      exact ordered waits
    have kept := booked.balanced balanced due
    exact ⟨kept, fun j apart => ⟨booked.drift balanced apart, kept⟩⟩
  have balanced := (@Pool.reachable_safe engineSig (Sender κ) (Observed κ Net) (EngineChoice Choice)
    Returned _ (observe network) rely books InOrder (fun pool => Balanced pool.world.books)
    (fun pool i balanced => ⟨Drift.refl i _, balanced⟩)
    (fun i _ _ _ _ near far => ⟨near.1.trans far.1, far.2⟩)
    compatible _ balancedStart safeStart _ path).1
  exact balanced.obtained

end

/-! ## Two files -/

/-- A call for two files. -/
def sampleCall : SendCall := ⟨"10.0.0.2", 9000, ⟨1⟩, ["a", "b"]⟩

/-- A disk that knows the two files' sizes and has not answered anything else yet. -/
def sampleNetwork : Meaning clientSig Unit Unit
  | _, .metadata path, _ => some (.ok (if path = "a" then 1 else 2), ())
  | _, _, _ => none

/-- The call on a new engine. -/
def sampleStart (sha256 : Sha256) :
    Pool (Sender Unit) engineSig (Observed Unit Unit) Returned :=
  start sha256 (fun text => .ok ⟨text⟩) (fun _ => sampleCall) ()

/-- The call enqueues both files, under the ids 7 and 8, and spawns their tasks. -/
def callSteps : List (Sender Unit × EngineChoice Unit) :=
  List.replicate 4 (.call (), ⟨⟨7⟩, ()⟩) ++ List.replicate 4 (.call (), ⟨⟨8⟩, ()⟩)

/-- The tasks take their entries in order, and make their sessions in the other one. -/
def tasksInOrder : List (Sender Unit × EngineChoice Unit) :=
  callSteps ++ List.replicate 3 (.task ⟨7⟩, ⟨⟨0⟩, ()⟩) ++ List.replicate 4 (.task ⟨8⟩, ⟨⟨0⟩, ()⟩) ++
    [(.task ⟨7⟩, ⟨⟨0⟩, ()⟩)]

/-- Both tasks obtain their own entries. -/
theorem ownEntry_inOrder_two : ∃ reached,
    Pool.run (observe sampleNetwork) InOrder tasksInOrder (sampleStart fun _ => []) = some reached ∧
      reached.world.obtained.map (·.transferId) = [⟨8⟩, ⟨7⟩] ∧
      ∀ obtained ∈ reached.world.obtained, Own reached.world.books obtained := by
  have runs : (Pool.run (observe sampleNetwork) InOrder tasksInOrder (sampleStart fun _ => [])).map
      (fun reached => reached.world.obtained.map (·.transferId)) = some [⟨8⟩, ⟨7⟩] := by
    decide +kernel
  obtain ⟨reached, ran, both⟩ := Option.map_eq_some_iff.mp runs
  exact ⟨reached, ran, both, ownEntry_inOrder (Pool.reaches_of_run ran)⟩

/-- The second file's task overtakes the first one's. -/
def tasksOvertaking : List (Sender Unit × EngineChoice Unit) :=
  callSteps ++ List.replicate 4 (.task ⟨8⟩, ⟨⟨0⟩, ()⟩)

/-- A task may obtain the entry of another one. -/
theorem ownEntry_broken :
    ¬∀ (sha256 : Sha256) (parse : String → Except String SocketAddr) (calls : Unit → SendCall)
      (network : Meaning clientSig Unit Unit) (net : Unit)
      (reached : Pool (Sender Unit) engineSig (Observed Unit Unit) Returned),
      Pool.Reaches (observe network) (fun _ _ _ => True) (start sha256 parse calls net) reached →
      ∀ obtained ∈ reached.world.obtained, Own reached.world.books obtained := by
  intro always
  have runs : (Pool.run (observe sampleNetwork) (fun _ _ _ => True) tasksOvertaking
      (sampleStart fun _ => [])).map
        (fun reached => reached.world.obtained.map fun it => (it.transferId, it.queued.id)) =
      some [(⟨8⟩, ⟨7⟩)] := by
    decide +kernel
  obtain ⟨reached, ran, swapped⟩ := Option.map_eq_some_iff.mp runs
  obtain ⟨obtained, rest, listed, same, -⟩ := List.map_eq_cons_iff.mp swapped
  obtain ⟨takerId, entryId⟩ := Prod.mk.inj same
  have own := always _ _ _ _ () reached (Pool.reaches_of_run ran) obtained (by simp [listed])
  obtain ⟨entry, -, named, queued, -⟩ := own.entry
  have ownId : obtained.queued.id = obtained.transferId := by rw [queued, ← named]
  rw [takerId, entryId] at ownId
  exact absurd ownId (by decide)

end FileDrop.OwnEntry
