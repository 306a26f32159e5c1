import FileDrop.Verif.Isolation

/-!
# The received directory under concurrent uploads

Uploads with different ids, all at once, with any faults. Each of them has its id to itself, so each
keeps to what it comes to, and a name in the received directory changes only when an upload is
renamed to it: it holds what it held at the start, or the complete file of the upload that was
renamed to it last.
-/
namespace FileDrop.Received
open FileDrop Effects Effects.Program Unix Isolation Resume

section

variable {ι : Type} (sha256 : Sha256) (paths : StoragePaths) (requests : ι → TransferRequest)
variable (world : ServerWorld)

/-- Requests, all at once. -/
def receiving : Pool ι serverSig ServerWorld (Option Response) where
  world := world
  threads i := receiveTransfer sha256 paths (requests i)

/-- A request is accepted as an upload. -/
def Accepts (i : ι) (upload : Upload) : Prop :=
  acceptRequest paths (requests i).transferId (requests i).headers = some (.ok upload)

/-- What the upload of a request comes to, from what is staged at the start. -/
def comesTo (i : ι) (upload : Upload) : Outcome :=
  settle sha256 upload (requests i).body (world.files.read upload.stagingPath)

/-- No two requests have the same id. -/
def Distinct : Prop := ∀ i j, (requests i).transferId = (requests j).transferId → i = j

variable {paths requests}

/-- A request is accepted as one upload at most. -/
theorem Accepts.unique {i : ι} {upload other : Upload} (first : Accepts paths requests i upload)
    (second : Accepts paths requests i other) : other = upload :=
  Except.ok.inj (Option.some.inj (second.symm.trans first))

/-- The staging file of an upload is no other upload's, neither staged nor final. -/
theorem Accepts.apart {i j : ι} {upload other : Upload} (distinct : Distinct requests)
    (mine : Accepts paths requests i upload) (theirs : Accepts paths requests j other)
    (different : j ≠ i) : other.stagingPath ≠ upload.stagingPath ∧
      other.stagingPath ≠ upload.finalPath ∧ other.transferId ≠ upload.transferId := by
  obtain ⟨mineId, mineStaged, mineFinal, -, -, -, -⟩ := acceptRequest_ok mine
  obtain ⟨theirsId, theirsStaged, -, -, -, -, -⟩ := acceptRequest_ok theirs
  refine ⟨?_, ?_, ?_⟩
  · rw [mineStaged, theirsStaged]
    intro same
    have names := List.append_cancel_left same
    exact different (distinct j i (stagingName_injective (List.cons.inj names).1))
  · rw [mineFinal, theirsStaged]
    exact staging_ne_received paths _ _
  · rw [mineId, theirsId]
    exact fun same => different (distinct j i same)

/-- The final path of an upload is the one of its name. -/
theorem Accepts.named {i : ι} {upload : Upload} {name : String}
    (accepts : Accepts paths requests i upload) :
    upload.finalPath = paths.receivedFilesDir ++ [name] ↔ upload.safeName = name := by
  rw [(acceptRequest_ok accepts).2.2.1]
  constructor
  · intro same
    exact (List.cons.inj (List.append_cancel_left same)).1
  · rintro rfl
    rfl

/-- A received file is never a staging file. -/
theorem Accepts.notStaged {i : ι} {upload : Upload} (accepts : Accepts paths requests i upload)
    (name : String) : paths.receivedFilesDir ++ [name] ≠ upload.stagingPath := by
  rw [(acceptRequest_ok accepts).2.1]
  exact (staging_ne_received paths _ _).symm

variable (paths requests)
variable {Choice : Type} (wide : Choice → Fault)

/-- What the others leave alone of a request's upload. -/
def rely (i : ι) (_ : Handler) (before after : ServerWorld) : Prop :=
  ∀ upload, Accepts paths requests i upload → Undisturbed upload before after

/-- What an operation of a request's handler does. -/
def effect (i : ι) (handler : Handler) (before : ServerWorld) (rest : Handler)
    (after : ServerWorld) : Prop :=
  ∃ upload, Accepts paths requests i upload ∧ Effect wide sha256 upload (requests i).body
    (world.files.read upload.stagingPath) handler before rest after

/-- What holds of the uploads at any time. -/
structure Isolated (pool : Pool ι serverSig ServerWorld (Option Response)) : Prop where
  /-- What a path outside the staging files holds: what it held at the start as long as no upload is
  renamed to it, else the file of an upload that is. -/
  received : ∀ path, (∀ i upload, Accepts paths requests i upload → path ≠ upload.stagingPath) →
    pool.world.files.read path = world.files.read path ∧
        (∀ i upload, Accepts paths requests i upload → upload.finalPath = path →
          committed (pool.threads i) = false) ∨
      ∃ i upload bytes, Accepts paths requests i upload ∧ upload.finalPath = path ∧
        committed (pool.threads i) ∧
        (comesTo sha256 requests world i upload).delivered = some bytes ∧
        pool.world.files.read path = some bytes
  /-- An upload that is renamed has no staging file left. -/
  gone : ∀ i upload, Accepts paths requests i upload → committed (pool.threads i) →
    pool.world.files.read upload.stagingPath = none
  /-- The sessions of other ids are as they were. -/
  sessions : ∀ id, (∀ i upload, Accepts paths requests i upload → id ≠ upload.transferId) →
    pool.world.sessions id = world.sessions id
  /-- When nothing fails, an upload that is finished came to what it comes to. -/
  finished : Steady wide → ∀ i upload reply, Accepts paths requests i upload →
    pool.threads i = .done reply →
      reply = some (comesTo sha256 requests world i upload).reply ∧
      pool.world.files.read upload.stagingPath = (comesTo sha256 requests world i upload).staged ∧
      (Valid upload → pool.world.sessions upload.transferId = none)
  /-- An upload that cannot seek leaves the sessions alone. -/
  stuck : ∀ i upload, Accepts paths requests i upload → ¬Valid upload →
    pool.world.sessions upload.transferId = world.sessions upload.transferId
  /-- A request that is refused is answered from the start. -/
  refused : ∀ i reply, receiveTransfer sha256 paths (requests i) = .done reply →
    pool.threads i = .done reply
  /-- No handler waits for a session that is paused. -/
  awake : ∀ i, Awake (pool.threads i) pool.world

variable {sha256 paths requests world wide}

/-- An accepted request is not answered at once. -/
theorem Accepts.starts (sha256 : Sha256) {i : ι} {upload : Upload}
    (accepts : Accepts paths requests i upload) (world : ServerWorld) :
    Continues (receiveTransfer sha256 paths (requests i)) world := by
  unfold Accepts at accepts
  simp only [receiveTransfer, accepts]
  exact continues_file

/-- A request that is not accepted is answered at once. -/
theorem refused_starts (sha256 : Sha256) {i : ι}
    (never : ∀ upload, ¬Accepts paths requests i upload) :
    ∃ reply, receiveTransfer sha256 paths (requests i) = .done reply := by
  unfold Accepts at never
  unfold receiveTransfer
  cases accepted : acceptRequest paths (requests i).transferId (requests i).headers with
  | none => exact ⟨none, rfl⟩
  | some outcome =>
    cases outcome with
    | error response => exact ⟨some response, rfl⟩
    | ok upload => exact absurd accepted (never upload)

/-- At the start nothing has happened. -/
theorem isolated_start :
    Isolated sha256 paths requests world wide (receiving sha256 paths requests world) where
  received path _ := .inl ⟨rfl, fun i upload accepts _ => (accepts.starts sha256 world).early⟩
  gone i upload accepts late :=
    absurd (late.symm.trans (accepts.starts sha256 world).early) (by decide)
  sessions _ _ := rfl
  finished _ i upload reply accepts done :=
    absurd done ((accepts.starts sha256 world).waits reply)
  stuck _ _ _ _ := rfl
  refused _ _ done := done
  awake i := by
    by_cases taken : ∃ upload, Accepts paths requests i upload
    · obtain ⟨upload, accepts⟩ := taken
      exact (accepts.starts sha256 world).awake
    · obtain ⟨reply, starts⟩ := refused_starts sha256 (not_exists.mp taken)
      show Awake (receiveTransfer sha256 paths (requests i)) world
      rw [starts]
      trivial

/-- What a path outside the staging files holds after one operation. -/
theorem Isolated.received_step {before after : Pool ι serverSig ServerWorld (Option Response)} {i : ι}
    {upload : Upload} {path : Path} (isolated : Isolated sha256 paths requests world wide before)
    (others : ∀ j, j ≠ i → after.threads j = before.threads j)
    (accepts : Accepts paths requests i upload)
    (effect : Effect wide sha256 upload (requests i).body (world.files.read upload.stagingPath)
      (before.threads i) before.world (after.threads i) after.world)
    (notStaged : ∀ i upload, Accepts paths requests i upload → path ≠ upload.stagingPath) :
    after.world.files.read path = world.files.read path ∧
        (∀ i upload, Accepts paths requests i upload → upload.finalPath = path →
          committed (after.threads i) = false) ∨
      ∃ i upload bytes, Accepts paths requests i upload ∧ upload.finalPath = path ∧
        committed (after.threads i) ∧
        (comesTo sha256 requests world i upload).delivered = some bytes ∧
        after.world.files.read path = some bytes := by
  cases effect.final with
  | nothing same stays _ =>
    have unchanged : after.world.files.read path = before.world.files.read path := by
      by_cases mine : path = upload.finalPath
      · rw [mine, same]
      · exact (effect.others path (notStaged i upload accepts) mine).2
    have kept (j : ι) : committed (after.threads j) = committed (before.threads j) := by
      by_cases same : j = i
      · rw [same, stays]
      · rw [others j same]
    simp only [kept, unchanged]
    exact isolated.received path notStaged
  | commit bytes _ early late delivers _ _ there =>
    by_cases mine : upload.finalPath = path
    · exact .inr ⟨i, upload, bytes, accepts, mine, late, delivers, mine ▸ there⟩
    have unchanged := (effect.others path (notStaged i upload accepts) (Ne.symm mine)).2
    rw [unchanged]
    rcases isolated.received path notStaged with ⟨start, none⟩ |
      ⟨j, other, bytes, theirs, final, done, delivers, reads⟩
    · refine .inl ⟨start, fun j other theirs final => ?_⟩
      by_cases same : j = i
      · subst same
        exact absurd (accepts.unique theirs ▸ final) mine
      · rw [others j same]
        exact none j other theirs final
    · have different : j ≠ i := by
        rintro rfl
        exact absurd (early.symm.trans done) (by decide)
      rw [← others j different] at done
      exact .inr ⟨j, other, bytes, theirs, final, done, delivers, reads⟩

/-- One operation keeps it so. -/
theorem Isolated.step {before after : Pool ι serverSig ServerWorld (Option Response)} {i : ι}
    (isolated : Isolated sha256 paths requests world wide before) (distinct : Distinct requests)
    (others : ∀ j, j ≠ i → after.threads j = before.threads j)
    (waits : ∀ reply, before.threads i ≠ .done reply)
    (done : effect sha256 paths requests world wide i (before.threads i) before.world (after.threads i)
      after.world) : Isolated sha256 paths requests world wide after := by
  obtain ⟨upload, accepts, effect⟩ := done
  have elsewhere {j : ι} {other : Upload} (theirs : Accepts paths requests j other)
      (different : j ≠ i) :
      after.world.files.read other.stagingPath = before.world.files.read other.stagingPath := by
    obtain ⟨notStaged, notFinal, -⟩ := accepts.apart distinct theirs different
    exact (effect.others _ notStaged notFinal).2
  refine {
    received := fun path => isolated.received_step others accepts effect
    gone := fun j other theirs late => ?_
    sessions := fun id notTheirs => ?_
    finished := fun steady j other reply theirs ended => ?_
    stuck := fun j other theirs invalid => ?_
    refused := fun j reply starts => ?_
    awake := fun j => ?_ }
  · by_cases same : j = i
    · subst same
      obtain rfl := accepts.unique theirs
      cases effect.final with
      | nothing _ stays left =>
        rw [stays] at late
        rw [left late]
        exact isolated.gone j other theirs late
      | commit bytes _ _ _ _ _ gone _ => exact gone
    · rw [others j same] at late
      rw [elsewhere theirs same]
      exact isolated.gone j other theirs late
  · rw [effect.sessions id (notTheirs i upload accepts)]
    exact isolated.sessions id notTheirs
  · by_cases same : j = i
    · subst same
      obtain rfl := accepts.unique theirs
      exact effect.ends steady reply ended
    · rw [others j same] at ended
      obtain ⟨-, -, notMine⟩ := accepts.apart distinct theirs same
      rw [elsewhere theirs same, effect.sessions _ notMine]
      exact isolated.finished steady j other reply theirs ended
  · by_cases same : j = i
    · subst same
      obtain rfl := accepts.unique theirs
      rw [effect.stuck invalid]
      exact isolated.stuck j other theirs invalid
    · obtain ⟨-, -, notMine⟩ := accepts.apart distinct theirs same
      rw [effect.sessions _ notMine]
      exact isolated.stuck j other theirs invalid
  · by_cases same : j = i
    · subst same
      exact absurd (isolated.refused j reply starts) (waits reply)
    · rw [others j same]
      exact isolated.refused j reply starts
  · by_cases same : j = i
    · subst same
      exact effect.awake
    · rw [others j same]
      exact (isolated.awake j).kept effect.cells

section

variable [DecidableEq ι] {allowed : Pool ι serverSig ServerWorld (Option Response) → ι → Choice → Prop}
variable {reached : Pool ι serverSig ServerWorld (Option Response)}

/-- A thread that others may not disturb, and keeps to what its upload comes to. -/
abbrev Keeps (sha256 : Sha256) (paths : StoragePaths) (requests : ι → TransferRequest)
    (world : ServerWorld) (wide : Choice → Fault) (i : ι) : Handler → ServerWorld → Prop :=
  Safe (faulty wide) (rely paths requests i) (effect sha256 paths requests world wide i)

variable (wide)

/-- Every run of uploads with different ids keeps them isolated. -/
theorem isolated_reached (distinct : Distinct requests)
    (path : Pool.Reaches (fun _ => faulty wide) allowed (receiving sha256 paths requests world)
      reached) : Isolated sha256 paths requests world wide reached ∧
        ∀ i, Keeps sha256 paths requests world wide i (reached.threads i) reached.world := by
  have safeStart : ∀ i, Keeps sha256 paths requests world wide i
      ((receiving sha256 paths requests world).threads i)
      (receiving sha256 paths requests world).world := by
    intro i
    show Keeps sha256 paths requests world wide i (receiveTransfer sha256 paths (requests i)) world
    by_cases taken : ∃ upload, Accepts paths requests i upload
    · obtain ⟨upload, accepts⟩ := taken
      exact (tidy_receive accepts).mono (fun _ _ _ moved => moved upload accepts)
        fun _ _ _ _ done => ⟨upload, accepts, done⟩
    · obtain ⟨reply, starts⟩ := refused_starts sha256 (not_exists.mp taken)
      rw [starts]
      trivial
  refine @Pool.reachable_safe serverSig ι ServerWorld Choice (Option Response) _
    (fun _ => faulty wide) (rely paths requests) (effect sha256 paths requests world wide) allowed
    (Isolated sha256 paths requests world wide) ?_ ?_ ?_ _ isolated_start safeStart reached path
  · exact fun pool i _ upload _ => .refl upload pool.world
  · exact fun i _ _ _ _ near far upload accepts => (near upload accepts).trans (far upload accepts)
  · intro before after i choice isolated _ stepped done
    obtain ⟨op, next, result, last, waiting, -, rfl⟩ := Pool.step_cases stepped
    have others : ∀ j, j ≠ i →
        Function.update before.threads i (next result) j = before.threads j :=
      fun j different => Function.update_of_ne different _ _
    have waits : ∀ reply, before.threads i ≠ .done reply := by
      intro reply ended
      rw [waiting] at ended
      cases ended
    refine ⟨isolated.step distinct others waits done, fun j different other theirs => ?_⟩
    obtain ⟨upload, accepts, effect⟩ := done
    obtain ⟨notStaged, notFinal, notMine⟩ := accepts.apart distinct theirs different
    obtain ⟨entry, staged⟩ := effect.others _ notStaged notFinal
    exact ⟨entry, staged, effect.sessions _ notMine, effect.cells⟩

/-- Every step of such a run is an operation of an accepted upload. -/
theorem isolated_effect (distinct : Distinct requests)
    (path : Pool.Reaches (fun _ => faulty wide) allowed (receiving sha256 paths requests world)
      reached) {after : Pool ι serverSig ServerWorld (Option Response)} {i : ι} {choice : Choice}
    (stepped : reached.step (fun _ => faulty wide) i choice = some after) :
    effect sha256 paths requests world wide i (reached.threads i) reached.world (after.threads i)
      after.world := by
  have settled : rely paths requests i (reached.threads i) reached.world reached.world :=
    fun upload _ => .refl upload reached.world
  exact (Pool.step_guarantee settled ((isolated_reached wide distinct path).2 i) stepped).1

/-! ## One upload alone -/

section

variable {request : TransferRequest} {upload : Upload} {after : ServerWorld} {choices : Nat → Choice}

/-- One upload alone, as a run of its handler. -/
theorem solo_runs {reply : Option Response}
    (ran : (receiveTransfer sha256 paths request).solo (faulty wide) choices world =
      some (reply, after)) :
    Pool.Reaches (fun _ => faulty wide) (fun _ _ _ => True)
      (receiving sha256 paths (fun _ : Unit => request) world) ⟨after, fun _ => .done reply⟩ := by
  have permitted : ∀ (_ : Pool Unit serverSig ServerWorld (Option Response)) (_ : Choice), True :=
    fun _ _ => trivial
  have ends : Pool.Reaches (fun _ : Unit => faulty wide) (fun _ _ _ => True)
      (receiving sha256 paths (fun _ => request) world)
      ⟨after, Function.update (receiving sha256 paths (fun _ => request) world).threads ()
        (.done reply)⟩ := Pool.reaches_solo permitted rfl ran
  have alone : Function.update (receiving sha256 paths (fun _ : Unit => request) world).threads ()
      (.done reply) = fun _ => .done reply := funext fun _ => Function.update_self ..
  rwa [alone] at ends

/-- One request has the only id. -/
theorem distinct_one : Distinct fun _ : Unit => request := fun _ _ _ => rfl

variable {response : Response}

/-- After an upload that is answered as complete nothing is staged for it. -/
theorem answered_unstaged
    (accepted : acceptRequest paths request.transferId request.headers = some (.ok upload))
    (ran : (receiveTransfer sha256 paths request).solo (faulty wide) choices world =
      some (some response, after)) (complete : response.status = 200) :
    after.files.read upload.stagingPath = none := by
  have path := solo_runs wide ran
  have isolated := (isolated_reached wide distinct_one path).1
  have accepts : Accepts paths (fun _ : Unit => request) () upload := accepted
  refine isolated.gone () upload accepts ?_
  simpa [committed] using complete

/-- An upload that is answered as complete is at its final path as it comes to. -/
theorem answered_delivered
    (accepted : acceptRequest paths request.transferId request.headers = some (.ok upload))
    (ran : (receiveTransfer sha256 paths request).solo (faulty wide) choices world =
      some (some response, after)) (complete : response.status = 200) :
    ∃ bytes, (settle sha256 upload request.body
        (world.files.read upload.stagingPath)).delivered = some bytes ∧
      after.files.read upload.finalPath = some bytes := by
  have path := solo_runs wide ran
  have isolated := (isolated_reached wide distinct_one path).1
  have accepts : Accepts paths (fun _ : Unit => request) () upload := accepted
  have final := accepts.named.mpr rfl
  have notStaged : ∀ (i : Unit) (other : Upload), Accepts paths (fun _ : Unit => request) i other →
      upload.finalPath ≠ other.stagingPath := by
    intro i other theirs
    rw [final]
    exact theirs.notStaged upload.safeName
  rcases isolated.received upload.finalPath notStaged with
    ⟨-, never⟩ | ⟨i, other, bytes, theirs, -, -, gives, reads⟩
  · have early : committed (.done (some response)) = false := never () upload accepts rfl
    simp [committed, complete] at early
  · obtain rfl := accepts.unique theirs
    exact ⟨bytes, gives, reads⟩

end

/-! ## Files appear at once -/

/-- A request is for a complete file of a name. -/
def Completes (sha256 : Sha256) (paths : StoragePaths) (requests : ι → TransferRequest) (i : ι)
    (name : String) (bytes : Bytes) : Prop :=
  ∃ upload, Accepts paths requests i upload ∧ upload.safeName = name ∧
    Complete sha256 upload (requests i).body bytes

/-- What a name in the received directory holds. -/
def receivedFile (paths : StoragePaths) (world : ServerWorld) (name : String) : Option Bytes :=
  world.files.read (paths.receivedFilesDir ++ [name])

/-- One step of a request renames its complete staged file to its name, and changes no other name. -/
structure Commits (sha256 : Sha256) (paths : StoragePaths) (requests : ι → TransferRequest) (i : ι)
    (name : String) (bytes : Bytes)
    (before after : Pool ι serverSig ServerWorld (Option Response)) : Prop where
  waits : (before.threads i).At renames
  early : committed (before.threads i) = false
  late : committed (after.threads i)
  completes : Completes sha256 paths requests i name bytes
  staged : before.world.files.read (paths.stagingDir ++ [stagingName (requests i).transferId]) =
    some bytes
  there : receivedFile paths after.world name = some bytes
  others : ∀ other, other ≠ name →
    receivedFile paths after.world other = receivedFile paths before.world other

/-- A step of a run renames an upload, or it changes no received file and no handler's answer. -/
theorem step_commits (distinct : Distinct requests)
    (path : Pool.Reaches (fun _ => faulty wide) allowed (receiving sha256 paths requests world)
      reached) {after : Pool ι serverSig ServerWorld (Option Response)} {i : ι} {choice : Choice}
    (stepped : reached.step (fun _ => faulty wide) i choice = some after) :
    (∃ name bytes, Commits sha256 paths requests i name bytes reached after) ∨
      (∀ name, receivedFile paths after.world name = receivedFile paths reached.world name) ∧
        committed (after.threads i) = committed (reached.threads i) := by
  obtain ⟨upload, accepts, effect⟩ := isolated_effect wide distinct path stepped
  have other (name : String) (different : upload.safeName ≠ name) :
      receivedFile paths after.world name = receivedFile paths reached.world name := by
    refine (effect.others _ (accepts.notStaged name) ?_).2
    exact fun final => different (accepts.named.mp final.symm)
  cases effect.final with
  | nothing same stays =>
    refine .inr ⟨fun name => ?_, stays⟩
    by_cases mine : upload.safeName = name
    · rw [receivedFile, receivedFile, ← accepts.named.mpr mine]
      exact same
    · exact other name mine
  | commit bytes waits early late delivers staged _ there =>
    obtain ⟨-, -, complete⟩ := settle_delivered delivers
    obtain ⟨-, staging, final, -, -, -, -⟩ := acceptRequest_ok accepts
    refine .inl ⟨upload.safeName, bytes, ?_⟩
    exact {
      waits := waits
      early := early
      late := late
      completes := ⟨upload, accepts, rfl, complete⟩
      staged := staging ▸ staged
      there := by rw [receivedFile, ← final]; exact there
      others := fun name different => other name different.symm }

/-- Whatever fails and wherever the run stops: a name in the received directory holds what it held at
the start or a complete staged file, and one step changes a name only by renaming such a file to it. -/
theorem received_atomic (distinct : Distinct requests)
    (path : Pool.Reaches (fun _ => serverExec) (fun _ _ _ => True)
      (receiving sha256 paths requests world) reached) :
    (∀ name, receivedFile paths reached.world name = receivedFile paths world name ∨
      ∃ i bytes, Completes sha256 paths requests i name bytes ∧ committed (reached.threads i) ∧
        receivedFile paths reached.world name = some bytes) ∧
    ∀ i fault after, reached.step (fun _ => serverExec) i fault = some after →
      (∃ name bytes, Commits sha256 paths requests i name bytes reached after) ∨
      ∀ name, receivedFile paths after.world name = receivedFile paths reached.world name := by
  constructor
  · intro name
    have isolated := (isolated_reached id distinct path).1
    rcases isolated.received _ (fun i upload accepts => accepts.notStaged name) with
      ⟨start, -⟩ | ⟨i, upload, bytes, accepts, final, late, delivers, reads⟩
    · exact .inl start
    · obtain ⟨-, -, complete⟩ := settle_delivered delivers
      exact .inr ⟨i, bytes, ⟨upload, accepts, accepts.named.mp final, complete⟩, late, reads⟩
  · intro i fault after stepped
    rcases step_commits id distinct path stepped with commits | ⟨same, -⟩
    · exact .inl commits
    · exact .inr same

/-! ## How long a delivered file stays -/

/-- A thread that has not moved is where it was. -/
theorem step_others {exec : ι → Meaning serverSig ServerWorld Choice}
    {before after : Pool ι serverSig ServerWorld (Option Response)} {i j : ι} {choice : Choice}
    (stepped : before.step exec i choice = some after) (different : j ≠ i) :
    after.threads j = before.threads j := by
  obtain ⟨op, next, result, world, -, -, rfl⟩ := Pool.step_cases stepped
  exact Function.update_of_ne different _ _

/-- An upload that is renamed stays so. -/
theorem committed_stays (distinct : Distinct requests)
    {before after : Pool ι serverSig ServerWorld (Option Response)}
    (path : Pool.Reaches (fun _ => faulty wide) allowed (receiving sha256 paths requests world)
      before)
    (later : Pool.Reaches (fun _ => faulty wide) allowed before after) {i : ι}
    (done : committed (before.threads i)) : committed (after.threads i) := by
  induction later with
  | refl => exact done
  | tail rest last ih =>
    obtain ⟨j, choice, -, stepped⟩ := last
    by_cases same : i = j
    · subst same
      rcases step_commits wide distinct (path.trans rest) stepped with
        ⟨name, bytes, commits⟩ | ⟨-, stays⟩
      · exact commits.late
      · rw [stays]
        exact ih
    · rw [step_others stepped same]
      exact ih

/-- An upload that is renamed was renamed in a step of the run. -/
theorem committed_once (distinct : Distinct requests)
    (path : Pool.Reaches (fun _ => faulty wide) allowed (receiving sha256 paths requests world)
      reached) {i : ι} (done : committed (reached.threads i)) :
    ∃ before choice mid name bytes,
      Pool.Reaches (fun _ => faulty wide) allowed (receiving sha256 paths requests world) before ∧
      before.step (fun _ => faulty wide) i choice = some mid ∧
      Commits sha256 paths requests i name bytes before mid ∧
      Pool.Reaches (fun _ => faulty wide) allowed mid reached := by
  induction path with
  | refl =>
    have start : committed (receiveTransfer sha256 paths (requests i)) = true := done
    by_cases taken : ∃ upload, Accepts paths requests i upload
    · obtain ⟨upload, accepts⟩ := taken
      rw [(accepts.starts sha256 world).early] at start
      cases start
    · unfold receiveTransfer at start
      split at start
      · cases start
      · rename_i response refused
        have status := acceptRequest_error refused
        simp [committed, status] at start
      · rename_i upload accepted
        exact absurd ⟨upload, accepted⟩ taken
  | tail rest last ih =>
    rename_i middle final
    by_cases already : committed (middle.threads i)
    · obtain ⟨before, choice, mid, name, bytes, first, stepped, commits, later⟩ := ih already
      exact ⟨before, choice, mid, name, bytes, first, stepped, commits, later.tail last⟩
    · obtain ⟨j, choice, permitted, stepped⟩ := last
      by_cases same : i = j
      · subst same
        rcases step_commits wide distinct rest stepped with ⟨name, bytes, commits⟩ | ⟨-, stays⟩
        · exact ⟨middle, choice, final, name, bytes, rest, stepped, commits, .refl⟩
        · exact absurd (stays.symm.trans done) already
      · rw [step_others stepped same] at done
        exact absurd done already

/-- A name keeps its file while no further upload is renamed to it. -/
theorem received_stays (distinct : Distinct requests) {name : String}
    {before after : Pool ι serverSig ServerWorld (Option Response)}
    (path : Pool.Reaches (fun _ => faulty wide) allowed (receiving sha256 paths requests world)
      before)
    (later : Pool.Reaches (fun _ => faulty wide) allowed before after)
    (unreplaced : ∀ i upload, Accepts paths requests i upload → upload.safeName = name →
      committed (after.threads i) → committed (before.threads i)) :
    receivedFile paths after.world name = receivedFile paths before.world name := by
  induction later with
  | refl => rfl
  | tail rest last ih =>
    rename_i middle final
    have still := ih fun i upload accepts named done =>
      unreplaced i upload accepts named
        (committed_stays wide distinct (path.trans rest) (.single last) done)
    obtain ⟨i, choice, permitted, stepped⟩ := last
    rw [← still]
    rcases step_commits wide distinct (path.trans rest) stepped with
      ⟨other, bytes, commits⟩ | ⟨same, -⟩
    · by_cases mine : name = other
      · subst mine
        obtain ⟨upload, accepts, named, -⟩ := commits.completes
        have earlier := unreplaced i upload accepts named commits.late
        have done := committed_stays wide distinct path rest earlier
        exact absurd (commits.early.symm.trans done) (by decide)
      · exact commits.others name mine
    · exact same name

/-- A file that was delivered by an upload answered 200 stays under its name until another upload is
renamed to that name. -/
theorem delivered_until_replaced (distinct : Distinct requests) {i : ι} {response : Response}
    (path : Pool.Reaches (fun _ => serverExec) (fun _ _ _ => True)
      (receiving sha256 paths requests world) reached)
    (answered : reached.threads i = .done (some response)) (complete : response.status = 200) :
    ∃ before fault mid name bytes,
      Pool.Reaches (fun _ => serverExec) (fun _ _ _ => True)
        (receiving sha256 paths requests world) before ∧
      before.step (fun _ => serverExec) i fault = some mid ∧
      Commits sha256 paths requests i name bytes before mid ∧
      Pool.Reaches (fun _ => serverExec) (fun _ _ _ => True) mid reached ∧
      ((∀ j upload, Accepts paths requests j upload → upload.safeName = name →
          committed (reached.threads j) → committed (mid.threads j)) →
        receivedFile paths reached.world name = some bytes) := by
  have done : committed (reached.threads i) := by
    rw [answered]
    simpa [committed] using complete
  obtain ⟨before, fault, mid, name, bytes, first, stepped, commits, later⟩ :=
    committed_once id distinct path done
  refine ⟨before, fault, mid, name, bytes, first, stepped, commits, later, fun unreplaced => ?_⟩
  have whole := first.tail ⟨i, fault, trivial, stepped⟩
  rw [received_stays id distinct whole later unreplaced]
  exact commits.there

end

end

/-! ## Two uploads of one name -/

/-- The two files of the sample runs, of one byte each. -/
def sampleFile (first : Bool) : Bytes := if first then [1] else [2]

/-- Two requests under different ids, each with a file of one byte, its digest and the name `a`. -/
def sampleFiles (first : Bool) : TransferRequest where
  transferId := if first then sampleId else ⟨8⟩
  headers := {
    filename := some ⟨some "a"⟩
    totalSize := some ⟨some "1"⟩
    sha256 := some ⟨some (sha256Hex sampleSha256 (sampleFile first))⟩
    contentRange := none }
  body := ⟨[sampleFile first], none⟩

/-- The sample requests have different ids. -/
theorem sampleFiles_distinct : Distinct sampleFiles := by
  intro i j
  cases i <;> cases j <;> decide

/-- The sample requests, at a server that has received nothing. -/
def sampleReceiving : Pool Bool serverSig ServerWorld (Option Response) :=
  receiving sampleSha256 samplePaths sampleFiles emptyServer

/-- The name of the sample files. -/
theorem sampleFiles_name {first : Bool} {upload : Upload}
    (accepts : Accepts samplePaths sampleFiles first upload) : upload.safeName = "a" := by
  obtain ⟨-, -, -, name, -, -, -⟩ := acceptRequest_ok accepts
  have named : ((sampleFiles first).headers.filename.bind HeaderValue.toStr).bind sanitizeFilename =
      some "a" := by
    cases first <;> decide +kernel
  exact Option.some.inj (name.symm.trans named)

/-- What a sample run shows: whether each handler has renamed its file, and what is received. -/
def shows (pool : Pool Bool serverSig ServerWorld (Option Response)) :
    Bool × Bool × Option Bytes :=
  (committed (pool.threads true), committed (pool.threads false),
    receivedFile samplePaths pool.world "a")

/-- The first upload is renamed while the second one is written, and its write fails. -/
def sampleRun : List (Bool × Fault) :=
  List.replicate 6 (false, .none) ++ List.replicate 11 (true, .none) ++
    [(false, .error ⟨"No space left on device (os error 28)"⟩ 0)]

/-- The first file is there after the sample run, and every step from there is atomic. -/
theorem received_atomic_sample : ∃ reached,
    Pool.run (fun _ => serverExec) (fun _ _ _ => True) sampleRun sampleReceiving = some reached ∧
      shows reached = (true, false, some [1]) ∧
      ∀ i fault after, reached.step (fun _ => serverExec) i fault = some after →
        (∃ name bytes, Commits sampleSha256 samplePaths sampleFiles i name bytes reached after) ∨
        ∀ name, receivedFile samplePaths after.world name =
          receivedFile samplePaths reached.world name := by
  have runs : (Pool.run (fun _ => serverExec) (fun _ _ _ => True) sampleRun sampleReceiving).map
      shows = some (true, false, some [1]) := by
    decide +kernel
  obtain ⟨reached, ran, shown⟩ := Option.map_eq_some_iff.mp runs
  exact ⟨reached, ran, shown,
    (received_atomic sampleFiles_distinct (Pool.reaches_of_run ran)).2⟩

/-- The first upload is answered, then the second one is written. -/
def answeredRun : List (Bool × Fault) :=
  List.replicate 12 (true, .none) ++ List.replicate 8 (false, .none)

/-- The status of a handler's answer, if it has answered. -/
def status : Handler → Option Nat
  | .done reply => reply.map (·.status)
  | .perform .. => none

/-- A handler with a status has answered with it. -/
theorem done_of_status {handler : Handler} {code : Nat} (answered : status handler = some code) :
    ∃ response, handler = .done (some response) ∧ response.status = code := by
  cases handler with
  | done reply =>
    obtain ⟨response, rfl, same⟩ := Option.map_eq_some_iff.mp answered
    exact ⟨response, rfl, same⟩
  | perform op next => cases answered

/-- The file of an answered upload is still there while the second one is written. -/
theorem delivered_until_replaced_sample : ∃ reached name bytes,
    Pool.run (fun _ => serverExec) (fun _ _ _ => True) answeredRun sampleReceiving = some reached ∧
      status (reached.threads true) = some 200 ∧
      Completes sampleSha256 samplePaths sampleFiles true name bytes ∧
      receivedFile samplePaths reached.world name = some bytes := by
  have runs : (Pool.run (fun _ => serverExec) (fun _ _ _ => True) answeredRun sampleReceiving).map
      (fun pool => (status (pool.threads true), committed (pool.threads false))) =
        some (some 200, false) := by
    decide +kernel
  obtain ⟨reached, ran, shown⟩ := Option.map_eq_some_iff.mp runs
  obtain ⟨answered, waiting⟩ := Prod.mk.inj shown
  obtain ⟨response, done, complete⟩ := done_of_status answered
  obtain ⟨before, fault, mid, name, bytes, -, -, commits, -, stays⟩ := delivered_until_replaced
    sampleFiles_distinct (Pool.reaches_of_run ran) done complete
  refine ⟨reached, name, bytes, ran, answered, commits.completes, stays fun j upload _ _ late => ?_⟩
  cases j with
  | true => exact commits.late
  | false => exact absurd (waiting.symm.trans late) (by decide)

/-- The second upload replaces the file of the first one. -/
theorem delivered_lost :
    ¬∀ (sha256 : Sha256) (paths : StoragePaths) (requests : Bool → TransferRequest)
      (world : ServerWorld) (mid reached : Pool Bool serverSig ServerWorld (Option Response))
      (i : Bool) (response : Response) (name : String) (bytes : Bytes), Distinct requests →
      Pool.Reaches (fun _ => serverExec) (fun _ _ _ => True)
        (receiving sha256 paths requests world) mid →
      mid.threads i = .done (some response) → response.status = 200 →
      ((requests i).headers.filename.bind HeaderValue.toStr).bind sanitizeFilename = some name →
      receivedFile paths mid.world name = some bytes →
      Pool.Reaches (fun _ => serverExec) (fun _ _ _ => True) mid reached →
      ∃ other, receivedFile paths reached.world other = some bytes := by
  intro always
  have runs : ((Pool.run (fun _ => serverExec) (fun _ _ _ => True)
      (List.replicate 12 (true, .none)) sampleReceiving).bind fun mid =>
        (Pool.run (fun _ => serverExec) (fun _ _ _ => True) (List.replicate 12 (false, .none)) mid).map
          fun reached => (status (mid.threads true), receivedFile samplePaths mid.world "a",
            receivedFile samplePaths reached.world "a")) =
      some (some 200, some [1], some [2]) := by
    decide +kernel
  obtain ⟨mid, first, rest⟩ := Option.bind_eq_some_iff.mp runs
  obtain ⟨reached, second, shown⟩ := Option.map_eq_some_iff.mp rest
  obtain ⟨answered, shown⟩ := Prod.mk.inj shown
  obtain ⟨early, late⟩ := Prod.mk.inj shown
  obtain ⟨response, done, complete⟩ := done_of_status answered
  have named : ((sampleFiles true).headers.filename.bind HeaderValue.toStr).bind sanitizeFilename =
      some "a" := by
    decide +kernel
  have toMid := Pool.reaches_of_run first
  have later := Pool.reaches_of_run second
  obtain ⟨other, kept⟩ := always _ _ _ _ mid reached true response "a" [1] sampleFiles_distinct toMid
    done complete named early later
  by_cases same : other = "a"
  · subst same
    rw [late] at kept
    exact absurd kept (by decide)
  · have isolated := (isolated_reached id sampleFiles_distinct (toMid.trans later)).1
    rcases isolated.received _ (fun i upload accepts => accepts.notStaged other) with
      ⟨start, -⟩ | ⟨i, upload, found, accepts, final, -, -, -⟩
    · have absent : emptyServer.files.read (samplePaths.receivedFilesDir ++ [other]) = none := rfl
      exact nomatch absent.symm.trans (start.symm.trans kept)
    · exact same ((accepts.named.mp final).symm.trans (sampleFiles_name accepts))

end FileDrop.Received
