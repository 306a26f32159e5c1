import FileDrop.Foundation.Interleaving
import FileDrop.Transfer.Status
import FileDrop.Verif.Received

/-!
# What a resuming sender is told

A server that uploads keep arriving at, one at a time for each id. The handler takes its session out
of the map before it answers that an upload was cut short, so the status of an upload that can be
resumed is that it is unknown.
-/
namespace FileDrop.Status
open FileDrop Effects Effects.Program Unix Resume

/-! ## A server over time -/

/-- The handlers of a server, one for each id. -/
abbrev Serving : Type := Pool Uuid serverSig ServerWorld (Option Response)

section

variable (sha256 : Sha256) (paths : StoragePaths)

/-- A server that no upload has arrived at. -/
def idle (world : ServerWorld) : Serving := ⟨world, fun _ => .done none⟩

/-- An upload arrives. -/
def arrive (pool : Serving) (request : TransferRequest) : Serving where
  world := pool.world
  threads := Function.update pool.threads request.transferId (receiveTransfer sha256 paths request)

/-- What may happen next: a handler performs an operation, or an upload arrives for an id whose last
upload has been answered. -/
inductive Event (before after : Serving) : Prop where
  | step (id : Uuid) (fault : Fault) (stepped : before.step (fun _ => serverExec) id fault = some after)
  | post (request : TransferRequest) (reply : Option Response)
      (answered : before.threads request.transferId = .done reply)
      (arrives : arrive sha256 paths before request = after)

/-- Everything that may happen. -/
abbrev Happens : Serving → Serving → Prop := Relation.ReflTransGen (Event sha256 paths)

/-- An upload was cut short: bytes are missing, or its stream failed. -/
def CutShort (response : Response) : Prop :=
  response.status = 206 ∨
    response.status = 400 ∧ "stream error: ".toList <+: response.body.toList

instance (response : Response) : Decidable (CutShort response) :=
  inferInstanceAs (Decidable (_ ∨ _))

/-- The status of a transfer is the number of bytes in its staging file. -/
def TellsTruth (world : ServerWorld) (transferId : Uuid) : Prop :=
  ∃ answer staged, transferStatus world transferId = .ok answer ∧
    world.files.read (paths.stagingDir ++ [stagingName transferId]) = some staged ∧
    answer.bytesReceived.toNat = staged.length

/-! ## The last operation of a handler -/

/-- The session that an operation is about. -/
def aboutSession (id : Uuid) : ServerOp → Prop
  | .insertSession transferId .. | .removeSession transferId => transferId = id
  | .file _ | .nextChunk | .isCancelled _ | .awaitResumed _ | .addBytes .. => True

/-- A handler has answered that its upload was cut short. -/
def cutAnswer : Handler → Prop
  | .done (some response) => CutShort response
  | .done none | .perform .. => False

/-- A handler of an id works on the session of that id, and takes it away before it answers that the
upload was cut short. -/
def Forgets (id : Uuid) : Handler → Prop
  | .done _ => True
  | .perform op next => aboutSession id op ∧ ∀ result, cutAnswer (next result) → op = .removeSession id

/-- A handler that has its session to take away before such an answer. -/
structure Owes (id : Uuid) (handler : Handler) : Prop where
  always : handler.Always (Forgets id)
  unanswered : ¬cutAnswer handler

variable {sha256 paths} {upload : Upload} {id : Uuid}

/-- An operation on the handler's session, before anything that owes. -/
theorem owes_perform {op : ServerOp} {next : op.Result → Handler} (about : aboutSession id op)
    (later : ∀ result, Owes id (next result)) : Owes id (.perform op next) :=
  ⟨⟨⟨about, fun result cut => absurd cut (later result).unanswered⟩,
    fun result => (later result).always⟩, not_false⟩

/-- An answer that is not about a cut. -/
theorem owes_respond {status : Nat} {text : String} (missing : status ≠ 206) (stream : status ≠ 400) :
    Owes id (respond status text) := by
  refine ⟨trivial, fun cut => ?_⟩
  rcases cut with short | ⟨bad, -⟩
  · exact missing short
  · exact stream bad

/-- Whatever is answered after the session is taken away. -/
theorem owes_dropSession (mine : upload.transferId = id) {next : Handler}
    (later : next.Always (Forgets id)) : Owes id (dropSession upload next) :=
  ⟨⟨⟨mine, fun _ _ => congrArg ServerOp.removeSession mine⟩, fun _ => later⟩, not_false⟩

/-- The rename. -/
theorem owes_commit (mine : upload.transferId = id) : Owes id (commitUpload upload) := by
  refine owes_perform trivial fun result => ?_
  cases result with
  | error error => exact owes_respond (by decide) (by decide)
  | ok done => exact owes_dropSession mine trivial

/-- Removing the staging file of an upload that is refused. -/
theorem owes_discard {status : Nat} {text : String} (missing : status ≠ 206)
    (stream : status ≠ 400) :
    Owes id ((serverFile (.remove upload.stagingPath)).bind fun _ => respond status text) :=
  owes_perform trivial fun _ => owes_respond missing stream

/-- The comparison of digests. -/
theorem owes_checkDigest (mine : upload.transferId = id) {expected actual : String} :
    Owes id (checkDigest upload expected actual) := by
  unfold checkDigest
  split
  · exact owes_dropSession mine (owes_discard (by decide) (by decide)).always
  · exact owes_commit mine

/-- The digest of a complete upload. -/
theorem owes_verify (mine : upload.transferId = id) {hasher : Sha256Hasher} :
    Owes id (verifyUpload sha256 upload hasher) := by
  unfold verifyUpload
  split
  · exact owes_commit mine
  · split
    · exact owes_checkDigest mine
    · refine owes_perform trivial fun result => ?_
      cases result with
      | error error => exact owes_respond (by decide) (by decide)
      | ok bytes => exact owes_checkDigest mine

/-- What follows the chunk loop. -/
theorem owes_finish (mine : upload.transferId = id) {hasher : Sha256Hasher} {written : UInt64}
    {file : Handle} : Owes id (finishUpload sha256 upload hasher written file) := by
  refine owes_perform trivial fun result => ?_
  cases result with
  | error error => exact owes_respond (by decide) (by decide)
  | ok done =>
    show Owes id (ite _ _ (verifyUpload sha256 upload hasher))
    split
    · exact owes_dropSession mine trivial
    · exact owes_verify mine

/-- The chunk loop. -/
theorem owes_chunkLoop (mine : upload.transferId = id) {session : TransferSession}
    {failure : Option String} {rest : List Bytes} {hasher : Sha256Hasher} {written : UInt64}
    {file : Handle} :
    Owes id (chunkLoop sha256 upload session failure rest hasher written file) := by
  induction rest generalizing hasher written file with
  | nil =>
    refine owes_perform trivial fun _ => ?_
    cases failure with
    | some error => exact owes_dropSession mine trivial
    | none => exact owes_finish mine
  | cons chunk rest ih =>
    refine owes_perform trivial fun _ => owes_perform trivial fun cancelled => ?_
    cases cancelled with
    | true => exact owes_dropSession mine (owes_discard (by decide) (by decide)).always
    | false =>
      refine owes_perform trivial fun _ => owes_perform trivial fun result => ?_
      cases result with
      | error error => exact owes_dropSession mine trivial
      | ok moved => exact owes_perform trivial fun _ => ih

/-- The opening and everything after it. -/
theorem owes_openStaging (mine : upload.transferId = id) {body : Body} :
    Owes id (openStaging sha256 upload body) := by
  have stream {file : Handle} : Owes id (streamUpload sha256 upload body file) :=
    owes_perform mine fun _ => owes_chunkLoop mine
  refine owes_perform trivial fun result => ?_
  cases result with
  | error error => exact owes_respond (by decide) (by decide)
  | ok file =>
    show Owes id (ite _ _ (streamUpload sha256 upload body file))
    split
    · refine owes_perform trivial fun result => ?_
      cases result with
      | error error => exact owes_respond (by decide) (by decide)
      | ok positioned => exact stream
    · exact stream

/-- A handler takes its session away before it answers that its upload was cut short. -/
theorem owes_receive (request : TransferRequest) :
    Owes request.transferId (receiveTransfer sha256 paths request) := by
  unfold receiveTransfer
  split
  · exact ⟨trivial, not_false⟩
  · rename_i response refused
    have named : ¬CutShort response := by
      rcases acceptRequest_refused refused with rfl | rfl <;> decide
    exact ⟨trivial, named⟩
  · rename_i upload accepted
    have mine := (acceptRequest_ok accepted).1
    refine owes_perform trivial fun result => ?_
    cases result with
    | error error => exact owes_respond (by decide) (by decide)
    | ok created => exact owes_openStaging mine

/-! ## Every run -/

/-- What holds of a server at any time. -/
structure Forgetful (pool : Serving) : Prop where
  always : ∀ id, (pool.threads id).Always (Forgets id)
  forgotten : ∀ id, cutAnswer (pool.threads id) → pool.world.sessions id = none

/-- An operation about one session leaves the others alone. -/
theorem sessions_others {op : ServerOp} (about : aboutSession id op) {before after : ServerWorld}
    {fault : Fault} {result : op.Result} (ran : serverExec before op fault = some (result, after))
    {other : Uuid} (different : other ≠ id) : after.sessions other = before.sessions other := by
  cases op with
  | file op => rw [(serverExec_file_sessions ran).1]
  | insertSession transferId fileName totalBytes initial =>
    obtain rfl : transferId = id := about
    obtain ⟨-, rfl⟩ := Prod.mk.inj (Option.some.inj ran)
    exact Function.update_of_ne different _ _
  | removeSession transferId =>
    obtain rfl : transferId = id := about
    obtain ⟨-, rfl⟩ := Prod.mk.inj (Option.some.inj ran)
    exact Function.update_of_ne different _ _
  | nextChunk | isCancelled | addBytes =>
    obtain ⟨-, rfl⟩ := Prod.mk.inj (Option.some.inj ran)
    rfl
  | awaitResumed session =>
    obtain ⟨-, rfl⟩ := serverExec_awaitResumed ran
    rfl

/-- An operation keeps the server forgetful. -/
theorem Forgetful.step {before after : Serving} (forgetful : Forgetful before) {fault : Fault}
    (stepped : before.step (fun _ => serverExec) id fault = some after) : Forgetful after := by
  constructor
  · intro other
    exact Pool.step_keeps (fun _ _ result always => always.2 result) stepped (forgetful.always other)
  · intro other cut
    obtain ⟨op, next, result, world, waiting, ran, rfl⟩ := Pool.step_cases stepped
    have always := forgetful.always id
    rw [waiting] at always
    obtain ⟨⟨about, forgets⟩, -⟩ := always
    by_cases same : other = id
    · subst same
      simp only [Function.update_self] at cut
      obtain rfl := forgets result cut
      obtain ⟨-, rfl⟩ := Prod.mk.inj (Option.some.inj ran)
      exact Function.update_self ..
    · simp only [Function.update_of_ne same] at cut
      rw [sessions_others about ran same]
      exact forgetful.forgotten other cut

/-- An upload that arrives keeps the server forgetful. -/
theorem Forgetful.arrive {before : Serving} (forgetful : Forgetful before)
    (request : TransferRequest) : Forgetful (arrive sha256 paths before request) := by
  have owes : Owes request.transferId (receiveTransfer sha256 paths request) :=
    owes_receive request
  constructor
  · intro other
    by_cases same : other = request.transferId
    · subst same
      simpa only [Status.arrive, Function.update_self] using owes.always
    · simpa only [Status.arrive, Function.update_of_ne same] using forgetful.always other
  · intro other cut
    by_cases same : other = request.transferId
    · subst same
      simp only [Status.arrive, Function.update_self] at cut
      exact absurd cut owes.unanswered
    · simp only [Status.arrive, Function.update_of_ne same] at cut
      exact forgetful.forgotten other cut

/-- A server is forgetful at any time. -/
theorem forgetful_happens {world : ServerWorld} {pool : Serving}
    (happens : Happens sha256 paths (idle world) pool) : Forgetful pool := by
  induction happens with
  | refl => exact ⟨fun _ => trivial, fun _ cut => cut.elim⟩
  | tail _ last ih =>
    cases last with
    | step id fault stepped => exact ih.step stepped
    | post request reply answered arrives => exact arrives ▸ ih.arrive request

/-- Whenever the last upload of an id was cut short, its status is that it is unknown, whatever its
staging file holds. -/
theorem status_never {world : ServerWorld} {pool : Serving}
    (happens : Happens sha256 paths (idle world) pool) {response : Response}
    (answered : pool.threads id = .done (some response)) (cut : CutShort response) :
    transferStatus pool.world id = .error ⟨404, "unknown transfer"⟩ ∧
      ¬TellsTruth paths pool.world id := by
  have gone : pool.world.sessions id = none :=
    (forgetful_happens happens).forgotten id (by rw [answered]; exact cut)
  have unknown : transferStatus pool.world id = .error ⟨404, "unknown transfer"⟩ := by
    unfold transferStatus
    rw [gone]
  refine ⟨unknown, ?_⟩
  rintro ⟨answer, staged, told, -⟩
  rw [unknown] at told
  cases told

/-- Steps of the handlers are something that may happen. -/
theorem happens_reaches {before after : Serving}
    (path : Pool.Reaches (fun _ => serverExec) (fun _ _ _ => True) before after) :
    Happens sha256 paths before after := by
  induction path with
  | refl => exact .refl
  | tail _ last ih =>
    obtain ⟨id, fault, -, stepped⟩ := last
    exact ih.tail (.step id fault stepped)

end

/-! ## A sample upload, cut short -/

/-- A server at which the first byte of the sample file has arrived. -/
def sampleServing : Option Serving :=
  Pool.run (fun _ => serverExec) (fun _ _ _ => True) (List.replicate 11 (sampleId, .none))
    (arrive sampleSha256 samplePaths (idle emptyServer) (sampleRequest none [[1]]))

/-- The sample upload may happen. -/
theorem sample_happens {pool : Serving} (ran : sampleServing = some pool) :
    Happens sampleSha256 samplePaths (idle emptyServer) pool :=
  .head (.post (sampleRequest none [[1]]) none rfl rfl) (happens_reaches (Pool.reaches_of_run ran))

/-- What the sample upload shows: its answer, and its staging file. -/
theorem sample_shows : ∃ pool response, sampleServing = some pool ∧
    pool.threads sampleId = .done (some response) ∧ response.status = 206 ∧
    pool.world.files.read (samplePaths.stagingDir ++ [stagingName sampleId]) = some [1] := by
  have runs : sampleServing.map (fun pool => (Received.status (pool.threads sampleId),
      pool.world.files.read (samplePaths.stagingDir ++ [stagingName sampleId]))) =
      some (some 206, some [1]) := by
    decide +kernel
  obtain ⟨pool, ran, shown⟩ := Option.map_eq_some_iff.mp runs
  obtain ⟨answered, staged⟩ := Prod.mk.inj shown
  obtain ⟨response, done, short⟩ := Received.done_of_status answered
  exact ⟨pool, response, ran, done, short, staged⟩

/-- One byte of the sample file is staged, and its status is unknown. -/
theorem status_never_sample : ∃ pool, sampleServing = some pool ∧
    pool.world.files.read (samplePaths.stagingDir ++ [stagingName sampleId]) = some [1] ∧
    transferStatus pool.world sampleId = .error ⟨404, "unknown transfer"⟩ := by
  obtain ⟨pool, response, ran, done, short, staged⟩ := sample_shows
  exact ⟨pool, ran, staged, (status_never (sample_happens ran) done (.inl short)).1⟩

/-- A resuming sender is not told what is staged. -/
theorem status_broken :
    ¬∀ (sha256 : Sha256) (paths : StoragePaths) (world : ServerWorld) (pool : Serving) (id : Uuid)
      (response : Response) (staged : Bytes), Happens sha256 paths (idle world) pool →
      pool.threads id = .done (some response) → CutShort response →
      pool.world.files.read (paths.stagingDir ++ [stagingName id]) = some staged →
      TellsTruth paths pool.world id := by
  intro always
  obtain ⟨pool, response, ran, done, short, staged⟩ := sample_shows
  obtain ⟨answer, other, told, -⟩ := always sampleSha256 samplePaths emptyServer pool sampleId
    response [1] (sample_happens ran) done (.inl short) staged
  have forgotten := (forgetful_happens (sample_happens ran)).forgotten sampleId
    (by rw [done]; exact .inl short)
  unfold transferStatus at told
  rw [forgotten] at told
  cases told

end FileDrop.Status
