import FileDrop.Foundation.Exclusive
import FileDrop.Verif.Resume

/-!
# Verified uploads under concurrency

Uploads under one id share their staging file. A fresh upload is verified by the digest of the bytes
it received, so another upload that empties or writes the file between the open and the rename gets
other bytes delivered under that digest. A handler is in the section from its open of the staging
file to its reply; while handlers take turns there, what a handler knows about the file stays true,
and a complete answer to an upload with a digest means that digest on disk.
-/
namespace FileDrop.Verified
open FileDrop Effects Effects.Program Unix Resume

/-- From the open of the staging file to the reply. -/
def stagedSection : Section serverSig where
  inside
    | .file (.createDirAll _) | .file (.openWrite ..) => false
    | _ => true
  enters
    | .file (.openWrite ..) => true
    | _ => false

/-- What an answer to an upload means. -/
structure Verdict (sha256 : Sha256) (upload : Upload) (body : Body) (response : Response)
    (world : ServerWorld) : Prop where
  /-- A complete upload has as many bytes as it announced, and its file is there with its digest;
  a fresh one is the file of the body. -/
  complete : response.status = 200 → body.failure = none ∧
    upload.resumeOffset + .ofNat body.chunks.flatten.length = upload.totalSize ∧
    ∃ bytes, world.files.read upload.finalPath = some bytes ∧
      (∀ expected ∈ upload.expectedSha256, sha256Hex sha256 bytes = expected) ∧
      (upload.resumeOffset = 0 → bytes = body.chunks.flatten)
  /-- A partial upload came with a whole body of another size. -/
  incomplete : response.status = 206 → body.failure = none ∧
    upload.resumeOffset + .ofNat body.chunks.flatten.length ≠ upload.totalSize
  /-- There is no third answer of the success class. -/
  success : response.status < 300 → response.status = 200 ∨ response.status = 206

/-- A handler that waits at an operation has not answered; one that is finished has its verdict. -/
def Ends (sha256 : Sha256) (upload : Upload) (body : Body) (handler : Handler)
    (world : ServerWorld) : Prop :=
  ∀ response, handler = .done (some response) → Verdict sha256 upload body response world

/-- A handler that ends with its verdict, when no other handler is in the section with it. -/
def Sound (sha256 : Sha256) (upload : Upload) (body : Body) (handler : Handler)
    (world : ServerWorld) : Prop :=
  Ends sha256 upload body handler world ∧
    stagedSection.Keeps serverExec ServerWorld.files (fun _ _ => True)
      (fun _ _ rest after => Ends sha256 upload body rest after) handler world

section

variable {sha256 : Sha256} {upload : Upload} {body : Body} {world : ServerWorld}
variable {hasher : Sha256Hasher} {written : UInt64} {file : Handle}

/-- An answer that is none of the success class. -/
theorem sound_respond {status : Nat} {text : String} (failed : 300 ≤ status) :
    Sound sha256 upload body (respond status text) world := by
  refine ⟨?_, trivial⟩
  rintro response ⟨⟩
  have notOk : status ≠ 200 := by omega
  have notPartial : status ≠ 206 := by omega
  have notSuccess : ¬status < 300 := by omega
  exact ⟨fun ok => absurd ok notOk, fun short => absurd short notPartial,
    fun success => absurd success notSuccess⟩

/-- An operation inside the section: nothing changes the files before it. -/
theorem sound_inside {op : ServerOp} {next : op.Result → Handler}
    (within : stagedSection.inside op)
    (sound : ∀ seen fault result after, seen.files = world.files →
      serverExec seen op fault = some (result, after) → Sound sha256 upload body (next result) after) :
    Sound sha256 upload body (.perform op next) world := by
  have waits : Ends sha256 upload body (.perform op next) world := fun response done => nomatch done
  refine ⟨waits, ?_⟩
  have stable : ∀ before seen : ServerWorld, before.files = world.files → True →
      seen.files = before.files → seen.files = world.files :=
    fun before seen same _ still => still.trans same
  exact Section.Keeps.inside within stable sound rfl

/-- An operation outside the section: anything may change before it. -/
theorem sound_outside {op : ServerOp} {next : op.Result → Handler}
    (sound : ∀ seen fault result after, serverExec seen op fault = some (result, after) →
      (stagedSection.enters op ∨
        after.files = seen.files ∧ ¬(next result).At stagedSection.inside) ∧
      Sound sha256 upload body (next result) after) :
    Sound sha256 upload body (.perform op next) world := by
  have waits : Ends sha256 upload body (.perform op next) world := fun response done => nomatch done
  refine ⟨waits, ?_⟩
  have stable : ∀ before seen : ServerWorld, True → True → True := fun _ _ _ _ => trivial
  have step : ∀ seen fault result after, True →
      serverExec seen op fault = some (result, after) →
        Ends sha256 upload body (next result) after ∧
          (stagedSection.enters op ∨
            after.files = seen.files ∧ ¬(next result).At stagedSection.inside) ∧
          stagedSection.Keeps serverExec ServerWorld.files (fun _ _ => True)
            (fun _ _ rest later => Ends sha256 upload body rest later) (next result) after := by
    intro seen fault result after _ ran
    obtain ⟨entry, ends, keeps⟩ := sound seen fault result after ran
    exact ⟨ends, entry, keeps⟩
  exact Section.Keeps.outside stable step trivial

/-- An operation inside the section that changes no file. -/
theorem sound_quiet {op : ServerOp} {next : op.Result → Handler}
    (within : stagedSection.inside op)
    (quiet : ∀ inner, op = .file inner → inner.harmless)
    (sound : ∀ result after, after.files = world.files → Sound sha256 upload body (next result) after) :
    Sound sha256 upload body (.perform op next) world := by
  refine sound_inside within fun seen fault result after same ran => ?_
  refine sound result after (Eq.trans ?_ same)
  cases op with
  | file inner => exact serverExec_harmless (quiet inner rfl) ran
  | insertSession | removeSession | nextChunk | isCancelled | awaitResumed | addBytes =>
    exact serverExec_files (fun inner => by simp) ran

/-- Dropping the session touches no file. -/
theorem sound_dropSession {next : Handler}
    (sound : ∀ after, after.files = world.files → Sound sha256 upload body next after) :
    Sound sha256 upload body (dropSession upload next) world :=
  sound_quiet rfl (fun _ same => nomatch same) fun _ after same => sound after same

/-- The rename of an upload whose staged bytes are the verified ones. -/
theorem sound_commit (ended : body.failure = none)
    (counted : upload.resumeOffset + .ofNat body.chunks.flatten.length = upload.totalSize)
    (verified : ∀ bytes, world.files.read upload.stagingPath = some bytes →
      (∀ expected ∈ upload.expectedSha256, sha256Hex sha256 bytes = expected) ∧
        (upload.resumeOffset = 0 → bytes = body.chunks.flatten)) :
    Sound sha256 upload body (commitUpload upload) world := by
  refine sound_inside rfl fun seen fault result after same ran => ?_
  rcases FileOp.exec_rename (serverExec_file ran) with ⟨error, rfl, -⟩ | ⟨rfl, renamed⟩
  · exact sound_respond (by decide)
  · refine sound_dropSession fun final still => ⟨?_, trivial⟩
    rintro response ⟨⟩
    obtain ⟨-, -, -, found⟩ := FileStore.rename_cases renamed
    obtain ⟨inode, leads⟩ := Option.isSome_iff_exists.mp found
    have staged : seen.files.read upload.stagingPath = some (seen.files.contents inode) := by
      rw [FileStore.read, leads, Option.map_some]
    have delivered : final.files.read upload.finalPath = some (seen.files.contents inode) := by
      rw [still, FileStore.read_rename_target renamed, staged]
    have known := staged
    rw [same] at known
    obtain ⟨digest, whole⟩ := verified _ known
    rw [← same] at digest whole
    exact ⟨fun _ => ⟨ended, counted, _, delivered, digest, whole⟩,
      fun short => absurd short (by decide), fun _ => .inl rfl⟩

/-- The comparison of a digest that is the one of the staged bytes. -/
theorem sound_checkDigest {expected actual : String}
    (announced : upload.expectedSha256 = some expected) (ended : body.failure = none)
    (counted : upload.resumeOffset + .ofNat body.chunks.flatten.length = upload.totalSize)
    (staged : ∀ bytes, world.files.read upload.stagingPath = some bytes →
      sha256Hex sha256 bytes = actual ∧
        (upload.resumeOffset = 0 → bytes = body.chunks.flatten)) :
    Sound sha256 upload body (checkDigest upload expected actual) world := by
  unfold checkDigest
  split
  · refine sound_dropSession fun after _ => ?_
    refine sound_inside rfl fun seen fault result later _ _ => ?_
    exact sound_respond (by decide)
  · rename_i agree
    have same : actual = expected := of_not_not agree
    refine sound_commit ended counted fun bytes found => ?_
    obtain ⟨digest, whole⟩ := staged bytes found
    refine ⟨fun other given => ?_, whole⟩
    rw [announced] at given
    rw [digest, same, Option.some.inj given]

/-- What a handler knows while it streams: a fresh upload has the bytes of its body on disk. -/
def Streams (upload : Upload) (absorbed : Bytes) (file : Handle) (files : FileStore Path) : Prop :=
  upload.resumeOffset = 0 → files.entries upload.stagingPath = some file.inode ∧
    files.read upload.stagingPath = some absorbed ∧ file.position = absorbed.length

/-- A write appends to what a fresh upload has on disk. -/
theorem Streams.write {absorbed chunk : Bytes} {files : FileStore Path}
    (streams : Streams upload absorbed file files) :
    Streams upload (absorbed ++ chunk) (files.write file chunk).1 (files.write file chunk).2 := by
  intro fresh
  obtain ⟨leads, reads, position⟩ := streams fresh
  refine ⟨leads, ?_, ?_⟩
  · rw [FileStore.read_write files chunk leads reads, position, overlay_end]
  · rw [FileStore.write_position, position, List.length_append]

/-- The verification of an upload of the announced size. -/
theorem sound_verify (ended : body.failure = none)
    (counted : upload.resumeOffset + .ofNat body.chunks.flatten.length = upload.totalSize)
    (received : body.chunks.flatten = hasher.absorbed)
    (streams : Streams upload hasher.absorbed file world.files) :
    Sound sha256 upload body (verifyUpload sha256 upload hasher) world := by
  have whole : ∀ bytes, world.files.read upload.stagingPath = some bytes →
      upload.resumeOffset = 0 → bytes = body.chunks.flatten := by
    intro bytes found fresh
    obtain ⟨-, reads, -⟩ := streams fresh
    rw [received, Option.some.inj (found.symm.trans reads)]
  unfold verifyUpload
  split
  · rename_i unannounced
    refine sound_commit ended counted fun bytes found => ⟨?_, whole bytes found⟩
    rw [unannounced]
    exact fun expected none => nomatch none
  · rename_i expected announced
    split
    · rename_i fresh
      refine sound_checkDigest announced ended counted fun bytes found => ⟨?_, whole bytes found⟩
      rw [Sha256Hasher.finalizeHex, ← received, whole bytes found fresh]
    · rename_i resumed
      refine sound_inside rfl fun seen fault result after same ran => ?_
      have still := serverExec_harmless rfl ran
      rcases FileOp.exec_read (serverExec_file ran) with ⟨error, rfl⟩ | ⟨bytes, rfl, reads⟩
      · exact sound_respond (by decide)
      · refine sound_checkDigest announced ended counted fun found staged => ⟨?_, ?_⟩
        · rw [still] at staged
          rw [Option.some.inj (staged.symm.trans reads)]
        · exact fun fresh => absurd fresh resumed

/-- The end of the body. -/
theorem sound_finish (ended : body.failure = none)
    (counted : written = upload.resumeOffset + .ofNat body.chunks.flatten.length)
    (received : body.chunks.flatten = hasher.absorbed)
    (streams : Streams upload hasher.absorbed file world.files) :
    Sound sha256 upload body (finishUpload sha256 upload hasher written file) world := by
  refine sound_quiet rfl (fun inner same => by cases same; rfl) fun result after same => ?_
  cases result with
  | error error => exact sound_respond (by decide)
  | ok done =>
    by_cases all : written = upload.totalSize
    · simp only [all, ne_eq, not_true_eq_false, if_false]
      exact sound_verify ended (counted ▸ all) received (same ▸ streams)
    · simp only [all, ne_eq, not_false_eq_true, if_true]
      refine sound_dropSession fun later _ => ⟨?_, trivial⟩
      rintro response ⟨⟩
      have partly : (206 : Nat) ≠ 200 := by decide
      exact ⟨fun ok => absurd ok partly, fun _ => ⟨ended, counted ▸ all⟩, fun _ => .inr rfl⟩

/-- The chunk loop on what is left of the body. -/
theorem sound_chunkLoop {session : TransferSession} {rest : List Bytes}
    (counted : written = upload.resumeOffset + .ofNat hasher.absorbed.length)
    (received : body.chunks.flatten = hasher.absorbed ++ rest.flatten)
    (streams : Streams upload hasher.absorbed file world.files) :
    Sound sha256 upload body
      (chunkLoop sha256 upload session body.failure rest hasher written file) world := by
  induction rest generalizing world hasher written file with
  | nil =>
    refine sound_quiet rfl (fun inner same => nomatch same) fun result after same => ?_
    split
    · refine sound_dropSession fun later _ => ?_
      exact sound_respond (by decide)
    · rename_i ended
      have whole : body.chunks.flatten = hasher.absorbed := by simpa using received
      exact sound_finish ended (whole ▸ counted) whole (same ▸ streams)
  | cons chunk rest ih =>
    refine sound_quiet rfl (fun inner same => nomatch same) fun result after same => ?_
    refine sound_quiet rfl (fun inner same => nomatch same) fun cancelled unmoved still => ?_
    have streaming : Streams upload hasher.absorbed file unmoved.files := by
      rw [still, same]
      exact streams
    split
    · refine sound_dropSession fun later _ => ?_
      refine sound_inside rfl fun seen fault result later _ _ => ?_
      exact sound_respond (by decide)
    · refine sound_quiet rfl (fun inner same => nomatch same) fun result resumed awake => ?_
      refine sound_inside rfl fun seen fault result later known ran => ?_
      rcases FileOp.exec_write (serverExec_file ran) with ⟨error, rfl⟩ | ⟨rfl, wrote⟩
      · exact sound_dropSession fun final _ => sound_respond (by decide)
      · refine sound_quiet rfl (fun inner same => nomatch same) fun result final unchanged => ?_
        have before : Streams upload hasher.absorbed file seen.files := by
          rw [known, awake]
          exact streaming
        refine ih ?_ ?_ ?_
        · simp only [Sha256Hasher.update, counted, List.length_append, UInt64.ofNat_add,
            UInt64.add_assoc]
        · rw [received, List.flatten_cons, Sha256Hasher.update, List.append_assoc]
        · rw [unchanged, wrote]
          exact before.write

/-- A handler whose staging file is open and positioned. -/
theorem sound_stream (streams : Streams upload [] file world.files) :
    Sound sha256 upload body (streamUpload sha256 upload body file) world := by
  refine sound_quiet rfl (fun inner same => nomatch same) fun session after same => ?_
  have counted : upload.resumeOffset = upload.resumeOffset + .ofNat Sha256Hasher.new.absorbed.length := by
    simp [Sha256Hasher.new]
  exact sound_chunkLoop counted rfl (same ▸ streams)

/-- A handler that enters the section. -/
theorem sound_open : Sound sha256 upload body (openStaging sha256 upload body) world := by
  refine sound_outside fun seen fault result after ran => ⟨.inl rfl, ?_⟩
  rcases FileOp.exec_openWrite (serverExec_file ran) with ⟨error, rfl, -, -⟩ | ⟨rfl, opened⟩
  · exact sound_respond (by decide)
  · simp only [bind_done]
    split
    · rename_i resumed
      have notFresh : upload.resumeOffset ≠ 0 := by
        rintro zero
        exact absurd (zero ▸ resumed) (by decide)
      refine sound_quiet rfl (fun inner same => by cases same; rfl) fun result final _ => ?_
      cases result with
      | error error => exact sound_respond (by decide)
      | ok positioned => exact sound_stream fun fresh => absurd fresh notFresh
    · refine sound_stream fun fresh => ⟨?_, ?_, ?_⟩
      · rw [opened]
        exact seen.files.openWrite_entries _ _
      · rw [opened, FileStore.read_openWrite, fresh]
        rfl
      · exact seen.files.openWrite_position _ _

/-- An accepted upload. -/
theorem sound_receive {paths : StoragePaths} {request : TransferRequest}
    (accepted : acceptRequest paths request.transferId request.headers = some (.ok upload)) :
    Sound sha256 upload request.body (receiveTransfer sha256 paths request) world := by
  simp only [receiveTransfer, accepted]
  refine sound_outside fun seen fault result after ran => ?_
  have still := serverExec_harmless rfl ran
  cases result with
  | error error =>
    have finished : ¬(serverError error).At stagedSection.inside := id
    exact ⟨.inr ⟨still, finished⟩, sound_respond (by decide)⟩
  | ok created =>
    have waits : ¬(openStaging sha256 upload request.body).At stagedSection.inside := by
      intro inside
      cases inside
    exact ⟨.inr ⟨still, waits⟩, sound_open⟩

end

/-! ## Handlers side by side -/

/-- What it means that a request's handler has performed its last operation. -/
def HandlerEnds (sha256 : Sha256) (paths : StoragePaths) (request : TransferRequest)
    (handler : Handler) (world : ServerWorld) : Prop :=
  ∀ response, handler = .done (some response) → ∃ upload,
    acceptRequest paths request.transferId request.headers = some (.ok upload) ∧
      Verdict sha256 upload request.body response world

/-- Every handler ends with its verdict, when no other one is in the section with it. -/
theorem keeps_receive {sha256 : Sha256} {paths : StoragePaths} {request : TransferRequest}
    {world : ServerWorld} :
    stagedSection.Keeps serverExec ServerWorld.files (fun _ _ => True)
      (fun _ _ rest after => HandlerEnds sha256 paths request rest after)
      (receiveTransfer sha256 paths request) world := by
  cases accepted : acceptRequest paths request.transferId request.headers with
  | none =>
    simp only [receiveTransfer, accepted]
    trivial
  | some outcome =>
    cases outcome with
    | error refusal =>
      simp only [receiveTransfer, accepted]
      trivial
    | ok upload =>
      have same : ∀ rest after, HandlerEnds sha256 paths request rest after ↔
          Ends sha256 upload request.body rest after := by
        intro rest after
        constructor
        · intro ends response done
          obtain ⟨other, given, verdict⟩ := ends response done
          have equal := Except.ok.inj (Option.some.inj (accepted.symm.trans given))
          rw [equal]
          exact verdict
        · exact fun ends response done => ⟨upload, accepted, ends response done⟩
      simp only [same]
      exact (sound_receive accepted).2

/-- A handler with nothing beside it: an answer of the success class is the verdict on an accepted
upload. -/
theorem receive_solo {sha256 : Sha256} {paths : StoragePaths} {request : TransferRequest}
    {faults : Nat → Fault} {world after : ServerWorld} {response : Response}
    (ran : (receiveTransfer sha256 paths request).solo serverExec faults world =
      some (some response, after)) (success : response.status < 300) :
    ∃ upload, acceptRequest paths request.transferId request.headers = some (.ok upload) ∧
      Verdict sha256 upload request.body response after := by
  cases accepted : acceptRequest paths request.transferId request.headers with
  | none => simp [receiveTransfer, accepted, solo] at ran
  | some outcome =>
    cases outcome with
    | error refusal =>
      simp only [receiveTransfer, accepted, solo, Option.some.injEq, Prod.mk.injEq] at ran
      have refused := acceptRequest_error accepted
      rw [ran.1] at refused
      omega
    | ok upload =>
      have sound : Sound sha256 upload request.body (receiveTransfer sha256 paths request) world :=
        sound_receive accepted
      obtain ⟨starts, keeps⟩ := sound
      have settled : ∀ (handler : Handler) (seen : ServerWorld),
          stagedSection.rely ServerWorld.files (fun _ _ => True) handler seen seen :=
        fun _ _ => ⟨trivial, fun _ => rfl⟩
      have ends : ∀ handler before reply later,
          stagedSection.guarantee ServerWorld.files
            (fun _ _ rest final => Ends sha256 upload request.body rest final) handler before
            (.done reply) later → Ends sha256 upload request.body (.done reply) later :=
        fun _ _ _ _ kept => kept.1
      have started : ∀ reply, receiveTransfer sha256 paths request = .done reply →
          Ends sha256 upload request.body (.done reply) world :=
        fun reply same => same ▸ starts
      have verdict := Safe.solo settled ends started keeps ran
      exact ⟨upload, rfl, verdict response rfl⟩

/-- A handler starts outside the section. -/
theorem receive_outside (sha256 : Sha256) (paths : StoragePaths) (request : TransferRequest) :
    ¬(receiveTransfer sha256 paths request).At stagedSection.inside := by
  unfold receiveTransfer
  split
  · exact id
  · exact id
  · exact fun inside => nomatch inside

section

variable {ι : Type} (sha256 : Sha256) (paths : StoragePaths) (transferId : Uuid)
variable (headers : ι → TransferHeaders) (bodies : ι → Body) (world : ServerWorld)

/-- Requests for one id, all at once. -/
def uploads : Pool ι serverSig ServerWorld (Option Response) where
  world := world
  threads i := receiveTransfer sha256 paths ⟨transferId, headers i, bodies i⟩

/-- The file at the final path has a digest. -/
def DeliveredAs (request : TransferHeaders) (expected : String) (world : ServerWorld) : Prop :=
  ∃ name bytes, (request.filename.bind HeaderValue.toStr).bind sanitizeFilename = some name ∧
    world.files.read (paths.receivedFilesDir ++ [name]) = some bytes ∧
    sha256Hex sha256 bytes = expected

/-- A handler opens the staging file only while no other handler is between its own open and its
reply. -/
abbrev InTurn (pool : Pool ι serverSig ServerWorld (Option Response)) (i : ι) (_ : Fault) : Prop :=
  stagedSection.Respected pool i

variable {sha256 paths transferId headers bodies world}

/-- While the handlers take turns, an upload with a digest that is answered as complete is on disk
with that digest when it is answered. -/
theorem verified_inTurn [DecidableEq ι]
    {before after : Pool ι serverSig ServerWorld (Option Response)} {i : ι} {fault : Fault}
    {response : Response} {expected : String}
    (path : Pool.Reaches (fun _ => serverExec) InTurn
      (uploads sha256 paths transferId headers bodies world) before)
    (stepped : before.step (fun _ => serverExec) i fault = some after)
    (answered : after.threads i = .done (some response)) (complete : response.status = 200)
    (announced : (headers i).sha256.bind HeaderValue.toStr = some expected) :
    DeliveredAs sha256 paths (headers i) expected after.world := by
  have alone : stagedSection.Alone (uploads sha256 paths transferId headers bodies world) := by
    intro j k inside _
    exact absurd inside (receive_outside sha256 paths ⟨transferId, headers j, bodies j⟩)
  have keeps : ∀ j, stagedSection.Keeps serverExec ServerWorld.files (fun _ _ => True)
      (fun _ _ rest later => HandlerEnds sha256 paths ⟨transferId, headers j, bodies j⟩ rest later)
      ((uploads sha256 paths transferId headers bodies world).threads j) world :=
    fun j => keeps_receive
  have ends := Section.reachable_step (fun _ _ => trivial) (fun _ _ _ _ _ _ => trivial)
    (fun _ _ _ turn => turn) (fun _ _ _ _ _ _ _ _ => trivial) alone keeps path stepped
  obtain ⟨upload, accepted, verdict⟩ := ends response answered
  obtain ⟨-, -, final, name, -, digest, -⟩ := acceptRequest_ok accepted
  obtain ⟨-, -, bytes, delivered, agrees, -⟩ := verdict.complete complete
  rw [final] at delivered
  exact ⟨upload.safeName, bytes, name, delivered, agrees expected (digest.trans announced)⟩

end

/-- Two requests of one byte each, with their digests, for the same file. -/
def sampleBytes (first : Bool) : Bytes := if first then [1] else [2]

/-- The headers of the sample requests. -/
def sampleHeaders (first : Bool) : TransferHeaders where
  filename := some ⟨some "a"⟩
  totalSize := some ⟨some "1"⟩
  sha256 := some ⟨some (sha256Hex sampleSha256 (sampleBytes first))⟩
  contentRange := none

/-- The sample requests, at a server that has received nothing. -/
def sampleUploads : Pool Bool serverSig ServerWorld (Option Response) :=
  uploads sampleSha256 samplePaths sampleId sampleHeaders (fun first => ⟨[sampleBytes first], none⟩)
    emptyServer

/-- The answer of a handler that is finished. -/
def answer : Handler → Option Response
  | .done reply => reply
  | .perform .. => none

/-- A handler with an answer is finished. -/
theorem done_of_answer {handler : Handler} {response : Response}
    (answered : answer handler = some response) : handler = .done (some response) := by
  cases handler with
  | done reply => rw [← answered, answer]
  | perform op next => cases answered

/-- What the sample runs end with: the first handler's status, the digest it was to have, and the
file that both requests name. -/
def outcome (pool : Pool Bool serverSig ServerWorld (Option Response)) :
    Option Nat × Option Bytes :=
  ((answer (pool.threads true)).map (·.status),
    pool.world.files.read (samplePaths.receivedFilesDir ++ ["a"]))

/-- The second handler waits with its staging file closed while the first one does its work. -/
def uploadsInTurn : List (Bool × Fault) :=
  (false, .none) :: List.replicate 11 (true, .none)

/-- The first request's byte is on disk when it is answered. -/
theorem verified_inTurn_first : ∃ before after response expected,
    Pool.run (fun _ => serverExec) InTurn uploadsInTurn sampleUploads = some before ∧
      before.step (fun _ => serverExec) true .none = some after ∧
      after.threads true = .done (some response) ∧
      DeliveredAs sampleSha256 samplePaths (sampleHeaders true) expected after.world := by
  have runs : ((Pool.run (fun _ => serverExec) InTurn uploadsInTurn sampleUploads).bind fun before =>
      before.step (fun _ => serverExec) true .none).map outcome = some (some 200, some [1]) := by
    decide +kernel
  have announced : (sampleHeaders true).sha256.bind HeaderValue.toStr =
      some (sha256Hex sampleSha256 (sampleBytes true)) := by
    decide +kernel
  obtain ⟨after, ran, ended⟩ := Option.map_eq_some_iff.mp runs
  obtain ⟨before, path, stepped⟩ := Option.bind_eq_some_iff.mp ran
  obtain ⟨response, found, complete⟩ := Option.map_eq_some_iff.mp (Prod.mk.inj ended).1
  have answered := done_of_answer found
  exact ⟨before, after, response, _, path, stepped, answered,
    verified_inTurn (Pool.reaches_of_run path) stepped answered complete announced⟩

/-- The second handler empties and writes the staging file after the first one has written it and
before it is renamed. -/
def uploadsMixed : List (Bool × Fault) :=
  List.replicate 10 (true, .none) ++ List.replicate 7 (false, .none) ++ [(true, .none)]

/-- Another upload's bytes may be delivered under a verified digest. -/
theorem verified_broken :
    ¬∀ (sha256 : Sha256) (paths : StoragePaths) (transferId : Uuid) (headers : Bool → TransferHeaders)
      (bodies : Bool → Body) (world : ServerWorld)
      (before after : Pool Bool serverSig ServerWorld (Option Response)) (i : Bool) (fault : Fault)
      (response : Response) (expected : String),
      Pool.Reaches (fun _ => serverExec) (fun _ _ _ => True)
        (uploads sha256 paths transferId headers bodies world) before →
      before.step (fun _ => serverExec) i fault = some after →
      after.threads i = .done (some response) → response.status = 200 →
      (headers i).sha256.bind HeaderValue.toStr = some expected →
      DeliveredAs sha256 paths (headers i) expected after.world := by
  intro always
  have runs : ((Pool.run (fun _ => serverExec) (fun _ _ _ => True) uploadsMixed sampleUploads).bind
      fun before => before.step (fun _ => serverExec) true .none).map outcome =
        some (some 200, some [2]) := by
    decide +kernel
  have announced : (sampleHeaders true).sha256.bind HeaderValue.toStr =
      some (sha256Hex sampleSha256 (sampleBytes true)) := by
    decide +kernel
  obtain ⟨after, ran, ended⟩ := Option.map_eq_some_iff.mp runs
  obtain ⟨before, path, stepped⟩ := Option.bind_eq_some_iff.mp ran
  obtain ⟨status, reads⟩ := Prod.mk.inj ended
  obtain ⟨response, found, complete⟩ := Option.map_eq_some_iff.mp status
  obtain ⟨name, bytes, sanitized, delivered, agrees⟩ := always _ _ _ _ _ _ before after true .none
    response _ (Pool.reaches_of_run path) stepped (done_of_answer found) complete announced
  have named : ((sampleHeaders true).filename.bind HeaderValue.toStr).bind sanitizeFilename = some "a" := by
    decide +kernel
  obtain rfl := Option.some.inj (named.symm.trans sanitized)
  obtain rfl := Option.some.inj (reads.symm.trans delivered)
  have differs : sha256Hex sampleSha256 [2] ≠ sha256Hex sampleSha256 (sampleBytes true) := by
    decide +kernel
  exact differs agrees

end FileDrop.Verified
