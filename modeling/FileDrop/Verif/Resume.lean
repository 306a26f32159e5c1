import Mathlib.Logic.Relation
import FileDrop.Transfer.Server

/-!
# Resumed uploads

A resumed upload writes at an offset its sender chooses into a file that earlier uploads left, and
completion is judged from the offset and the body's length alone. As long as no offset lies past
the end of the staged file, the staged file is a prefix of the sender's file in every state, and a
complete upload delivers the sender's file. An offset past the end leaves a gap, and the upload is
answered as complete all the same.
-/
namespace FileDrop.Resume
open FileDrop Effects Effects.Program Unix

/-- The staging file, if there is one, holds a prefix of the sender's file. -/
def PartPrefix (staging : Path) (whole : Bytes) (world : ServerWorld) : Prop :=
  ∀ bytes, world.files.read staging = some bytes → bytes <+: whole

/-- The length of the staging file, zero when there is none. -/
def partLength (staging : Path) (world : ServerWorld) : Nat :=
  ((world.files.read staging).getD []).length

/-- A prefix is no longer than the sender's file. -/
theorem PartPrefix.length_le {staging : Path} {whole : Bytes} {world : ServerWorld}
    (part : PartPrefix staging whole world) : partLength staging world ≤ whole.length := by
  unfold partLength
  cases found : world.files.read staging with
  | none => exact Nat.zero_le _
  | some bytes => exact (part bytes found).length_le

/-- An upload that sends a part of the file as what it is. -/
structure Sends (sha256 : Sha256) (whole : Bytes) (upload : Upload) (body : Body) : Prop where
  /-- The announced size is the size of the file. -/
  size : upload.totalSize.toNat = whole.length
  /-- A digest, when there is one, is the digest of the file. -/
  digest : ∀ expected ∈ upload.expectedSha256, expected = sha256Hex sha256 whole
  /-- The body is the file's content from the offset on, or the beginning of it. -/
  content : body.chunks.flatten <+: whole.drop upload.resumeOffset.toNat
  /-- The staging file is not the final one. -/
  apart : upload.stagingPath ≠ upload.finalPath

/-- The body arrives with everything that is missing from a file offset on. -/
structure Arrives (whole : Bytes) (upload : Upload) (body : Body) : Prop where
  ended : body.failure = none
  length : upload.resumeOffset.toNat + body.chunks.flatten.length = whole.length
  valid : upload.resumeOffset.toNat < offsetLimit

/-- How an upload of a part is answered: it is complete exactly when everything has arrived, and
then the file is at its final path. -/
structure Answered (whole : Bytes) (upload : Upload) (body : Body) (reply : Option Response)
    (world : ServerWorld) : Prop where
  staged : PartPrefix upload.stagingPath whole world
  reply : ∃ response, reply = some response ∧ response.status ≠ 422 ∧
    (response.status = 200 ↔ Arrives whole upload body) ∧
    (response.status = 200 → world.files.read upload.finalPath = some whole)

/-- What the handler knows while it streams: the staging file is a prefix that reaches its write
position, and the position counts what it was sent. -/
structure Streaming (whole : Bytes) (upload : Upload) (absorbed : Bytes) (written : UInt64)
    (file : Handle) (world : ServerWorld) : Prop where
  leads : world.files.entries upload.stagingPath = some file.inode
  staged : ∃ bytes, world.files.read upload.stagingPath = some bytes ∧ bytes <+: whole ∧
    file.position ≤ bytes.length
  position : file.position = upload.resumeOffset.toNat + absorbed.length
  counted : written.toNat = file.position
  valid : upload.resumeOffset.toNat < offsetLimit

section

variable {sha256 : Sha256} {whole : Bytes} {upload : Upload} {body : Body} {world : ServerWorld}
variable {absorbed : Bytes} {written : UInt64} {file : Handle}

/-- The staging file holds a prefix while the handler streams. -/
theorem Streaming.part (streaming : Streaming whole upload absorbed written file world) :
    PartPrefix upload.stagingPath whole world := by
  intro bytes reads
  obtain ⟨staged, found, partly, -⟩ := streaming.staged
  rw [found, Option.some.injEq] at reads
  exact reads ▸ partly

/-- The answer to an upload that has not arrived whole. -/
theorem Answered.incomplete {status : Nat} {text : String}
    (part : PartPrefix upload.stagingPath whole world) (cut : ¬Arrives whole upload body)
    (notOk : status ≠ 200) (notMismatch : status ≠ 422) :
    Answered whole upload body (some ⟨status, text⟩) world where
  staged := part
  reply := ⟨_, rfl, notMismatch, ⟨fun ok => absurd ok notOk, fun arrives => absurd arrives cut⟩,
    fun ok => absurd ok notOk⟩

/-- Once everything has arrived the staging file is the sender's file. -/
theorem Streaming.complete (streaming : Streaming whole upload absorbed written file world)
    (size : upload.totalSize.toNat = whole.length) (all : written = upload.totalSize) :
    world.files.read upload.stagingPath = some whole := by
  obtain ⟨staged, found, partly, reach⟩ := streaming.staged
  have counted := streaming.counted
  rw [all, size] at counted
  have same := partly.eq_of_length (by have := partly.length_le; omega)
  rw [found, same]

/-- The rename of a complete upload. -/
theorem total_commit (sends : Sends sha256 whole upload body)
    (streaming : Streaming whole upload absorbed written file world)
    (all : written = upload.totalSize) (arrives : Arrives whole upload body) :
    Total reliableExec (PartPrefix upload.stagingPath whole) (Answered whole upload body)
      (commitUpload upload) world := by
  have complete := streaming.complete sends.size all
  obtain ⟨moved, renamed⟩ := Option.ne_none_iff_exists'.mp fun none =>
    absurd ((world.files.rename_eq_none upload.stagingPath upload.finalPath).mp none)
      (by simp [complete])
  have gone : PartPrefix upload.stagingPath whole { world with files := moved } := by
    intro bytes reads
    have absent := FileStore.read_rename_source sends.apart renamed
    exact absurd (absent.symm.trans reads) (by simp)
  have delivered := (FileStore.read_rename_target renamed).trans complete
  intro choice
  refine ⟨.ok (), { world with files := moved }, ?_, gone, fun choice => ⟨_, _, rfl, gone, ?_⟩⟩
  · simp [reliableExec, serverExec, FileOp.exec, FileOp.carryOut, renamed]
  · exact ⟨gone, _, rfl, by decide, ⟨fun _ => arrives, fun _ => rfl⟩, fun _ => delivered⟩

/-- The digests of a complete upload agree, in memory and on disk. -/
theorem total_verify {hasher : Sha256Hasher} (sends : Sends sha256 whole upload body)
    (streaming : Streaming whole upload hasher.absorbed written file world)
    (all : written = upload.totalSize) (arrives : Arrives whole upload body)
    (received : body.chunks.flatten = hasher.absorbed) :
    Total reliableExec (PartPrefix upload.stagingPath whole) (Answered whole upload body)
      (verifyUpload sha256 upload hasher) world := by
  have commit := total_commit sends streaming all arrives
  unfold verifyUpload
  split
  · exact commit
  · rename_i expected announced
    have digest := sends.digest expected announced
    split
    · rename_i fresh
      have content := sends.content
      have length := arrives.length
      have zero : upload.resumeOffset.toNat = 0 := by rw [fresh]; rfl
      rw [zero, List.drop_zero] at content
      have same : hasher.absorbed = whole := by
        rw [← received]
        exact content.eq_of_length (by omega)
      have equal : hasher.finalizeHex sha256 = expected := by
        rw [digest, Sha256Hasher.finalizeHex, same]
      simpa only [checkDigest, equal, ne_eq, not_true_eq_false, if_false] using commit
    · have reads := streaming.complete sends.size all
      refine fun choice => ⟨.ok whole, world, ?_, streaming.part, ?_⟩
      · simp [reliableExec, serverExec, FileOp.exec, FileOp.carryOut, reads]
      · simpa only [bind_done, checkDigest, digest, ne_eq, not_true_eq_false, if_false] using commit

/-- The end of the body: an upload is complete or stays resumable. -/
theorem total_finish {hasher : Sha256Hasher} (sends : Sends sha256 whole upload body)
    (streaming : Streaming whole upload hasher.absorbed written file world)
    (ended : body.failure = none) (received : body.chunks.flatten = hasher.absorbed) :
    Total reliableExec (PartPrefix upload.stagingPath whole) (Answered whole upload body)
      (finishUpload sha256 upload hasher written file) world := by
  have part := streaming.part
  have position := streaming.position
  have counted := streaming.counted
  have size := sends.size
  refine fun choice => ⟨.ok (), world, rfl, part, ?_⟩
  by_cases all : written = upload.totalSize
  · have arrives : Arrives whole upload body := by
      rw [all] at counted
      exact ⟨ended, by rw [received]; omega, streaming.valid⟩
    simpa only [bind_done, all, ne_eq, not_true_eq_false, if_false] using
      total_verify sends streaming all arrives received
  · have missing : ¬Arrives whole upload body := by
      rintro ⟨-, length, -⟩
      rw [received] at length
      exact all (UInt64.toNat_inj.mp (by omega))
    simp only [bind_done, all, ne_eq, not_false_eq_true, if_true]
    exact fun choice => ⟨_, _, rfl, part, .incomplete part missing (by decide) (by decide)⟩

/-- Writing the next chunk of the file keeps the staging file a prefix. -/
theorem Streaming.write {chunk : Bytes}
    (streaming : Streaming whole upload absorbed written file world)
    (size : upload.totalSize.toNat = whole.length)
    (next : chunk <+: whole.drop file.position) :
    Streaming whole upload (absorbed ++ chunk) (written + .ofNat chunk.length)
      (world.files.write file chunk).1 { world with files := (world.files.write file chunk).2 } where
  leads := streaming.leads
  staged := by
    obtain ⟨bytes, found, partly, reach⟩ := streaming.staged
    refine ⟨_, FileStore.read_write _ chunk streaming.leads found,
      overlay_prefix partly reach next, ?_⟩
    rw [overlay_length bytes file.position chunk reach, FileStore.write_position]
    omega
  position := by
    have position := streaming.position
    simp only [FileStore.write_position, List.length_append]
    omega
  counted := by
    have counted := streaming.counted
    obtain ⟨bytes, -, partly, reach⟩ := streaming.staged
    have fits := next.length_le
    have inside := partly.length_le
    have bound := upload.totalSize.toNat_lt
    rw [List.length_drop] at fits
    rw [FileStore.write_position, UInt64.toNat_add, UInt64.toNat_ofNat']
    omega
  valid := streaming.valid

/-- The chunk loop on what is left of the body. -/
theorem total_chunkLoop {session : TransferSession} {hasher : Sha256Hasher} {rest : List Bytes}
    (sends : Sends sha256 whole upload body)
    (streaming : Streaming whole upload hasher.absorbed written file world)
    (calm : world.cells.isPaused session.cell = false ∧
      world.cells.isCancelled session.cell = false)
    (received : body.chunks.flatten = hasher.absorbed ++ rest.flatten) :
    Total reliableExec (PartPrefix upload.stagingPath whole) (Answered whole upload body)
      (chunkLoop sha256 upload session body.failure rest hasher written file) world := by
  induction rest generalizing world hasher written file with
  | nil =>
    have part := streaming.part
    refine fun choice => ⟨(), world, rfl, part, ?_⟩
    split
    · rename_i error failed
      have cut : ¬Arrives whole upload body := fun arrives => by simp [arrives.ended] at failed
      exact fun choice => ⟨_, _, rfl, part, .incomplete part cut (by decide) (by decide)⟩
    · rename_i ended
      exact total_finish sends streaming ended (by simpa using received)
  | cons chunk rest ih =>
    have part := streaming.part
    have position := streaming.position
    have next : chunk <+: whole.drop file.position := by
      obtain ⟨later, joined⟩ := sends.content
      rw [received, List.flatten_cons, List.append_assoc, List.append_assoc] at joined
      have dropped := congrArg (List.drop hasher.absorbed.length) joined
      rw [List.drop_left, List.drop_drop, ← position] at dropped
      exact ⟨rest.flatten ++ later, dropped⟩
    have moved : Streaming whole upload (hasher.update chunk).absorbed
        (written + .ofNat chunk.length) (world.files.write file chunk).1
        { world with files := (world.files.write file chunk).2 } :=
      streaming.write sends.size next
    refine fun choice => ⟨(), world, rfl, part, ?_⟩
    refine fun choice => ⟨false, world, ?_, part, ?_⟩
    · simp [reliableExec, serverExec, calm.2]
    refine fun choice => ⟨(), world, ?_, part, ?_⟩
    · simp [reliableExec, serverExec, calm.1]
    refine fun choice => ⟨.ok _, _, rfl, moved.part, ?_⟩
    refine fun choice => ⟨(), _, rfl, moved.part, ?_⟩
    refine ih ⟨moved.leads, moved.staged, moved.position, moved.counted, moved.valid⟩ ?_ ?_
    · simpa using calm
    · simpa [Sha256Hasher.update] using received

/-- An upload whose staging file is open and positioned inside it. -/
theorem total_stream (sends : Sends sha256 whole upload body)
    (streaming : Streaming whole upload [] upload.resumeOffset file world) :
    Total reliableExec (PartPrefix upload.stagingPath whole) (Answered whole upload body)
      (streamUpload sha256 upload body file) world := by
  refine fun choice => ⟨_, _, rfl, streaming.part, ?_⟩
  have inserted : Streaming whole upload Sha256Hasher.new.absorbed upload.resumeOffset file
      { world with
        cells := (world.cells.allocate upload.resumeOffset).2
        sessions := Function.update world.sessions upload.transferId (some
          ⟨upload.transferId, upload.safeName, upload.totalSize, .receive,
            (world.cells.allocate upload.resumeOffset).1⟩) } :=
    ⟨streaming.leads, streaming.staged, streaming.position, streaming.counted, streaming.valid⟩
  exact total_chunkLoop sends inserted (world.cells.allocate_calm upload.resumeOffset) rfl

/-- An upload that starts inside a staging file that holds a prefix. -/
theorem total_open (sends : Sends sha256 whole upload body)
    (inside : upload.resumeOffset.toNat ≤ partLength upload.stagingPath world)
    (part : PartPrefix upload.stagingPath whole world) :
    Total reliableExec (PartPrefix upload.stagingPath whole) (Answered whole upload body)
      (openStaging sha256 upload body) world := by
  let opened := world.files.openWrite upload.stagingPath (upload.resumeOffset = 0)
  have leads : opened.2.entries upload.stagingPath = some opened.1.inode :=
    world.files.openWrite_entries _ _
  have start : opened.1.position = 0 := world.files.openWrite_position _ _
  have reads : opened.2.read upload.stagingPath = some (if upload.resumeOffset = 0 then []
      else (world.files.read upload.stagingPath).getD []) := by
    simpa using world.files.read_openWrite upload.stagingPath (upload.resumeOffset = 0)
  have partly : (if upload.resumeOffset = 0 then []
      else (world.files.read upload.stagingPath).getD []) <+: whole := by
    split
    · exact List.nil_prefix
    · cases found : world.files.read upload.stagingPath with
      | none => exact List.nil_prefix
      | some bytes => exact part bytes found
  have kept : PartPrefix upload.stagingPath whole { world with files := opened.2 } := by
    intro bytes found
    rw [reads, Option.some.injEq] at found
    exact found ▸ partly
  refine fun choice => ⟨.ok opened.1, { world with files := opened.2 }, rfl, kept, ?_⟩
  simp only [bind_done]
  split
  · rename_i positive
    have resumed : upload.resumeOffset ≠ 0 := by
      rintro zero
      exact absurd (zero ▸ positive) (by decide)
    rw [if_neg resumed] at reads partly
    by_cases valid : upload.resumeOffset.toNat < offsetLimit
    · refine fun choice => ⟨.ok ⟨opened.1.inode, upload.resumeOffset.toNat⟩, _, ?_, kept,
        total_stream sends ?_⟩
      · simp only [reliableExec, serverExec, FileOp.exec, FileOp.carryOut_seek _ valid]
      · exact ⟨leads, ⟨_, reads, partly, inside⟩, rfl, rfl, valid⟩
    · have cut : ¬Arrives whole upload body := fun arrives => valid arrives.valid
      refine fun choice => ⟨.error .invalidArgument, { world with files := opened.2 }, ?_, kept,
        .incomplete kept cut (by decide) (by decide)⟩
      simp only [reliableExec, serverExec, FileOp.exec, FileOp.carryOut, valid, if_false]
  · rename_i notPositive
    have zero : upload.resumeOffset.toNat = 0 := by
      have le := UInt64.not_lt.mp notPositive
      simpa [UInt64.le_iff_toNat_le] using le
    refine total_stream sends ⟨leads, ⟨_, reads, partly, ?_⟩, ?_, ?_, ?_⟩
    · simp [start]
    · simp [start, zero]
    · simp [start, zero]
    · rw [zero]
      decide

end

/-- A request that is accepted as an upload inside a staging file that holds a prefix. -/
theorem total_receive {sha256 : Sha256} {paths : StoragePaths} {whole : Bytes} {upload : Upload}
    {request : TransferRequest} {world : ServerWorld}
    (accepted : acceptRequest paths request.transferId request.headers = some (.ok upload))
    (sends : Sends sha256 whole upload request.body)
    (inside : upload.resumeOffset.toNat ≤ partLength upload.stagingPath world)
    (part : PartPrefix upload.stagingPath whole world) :
    Total reliableExec (PartPrefix upload.stagingPath whole) (Answered whole upload request.body)
      (receiveTransfer sha256 paths request) world := by
  simp only [receiveTransfer, accepted]
  exact fun choice => ⟨.ok (), world, rfl, part, total_open sends inside part⟩

/-! ## Uploads one after another -/

/-- Handle a request with nothing beside it. -/
def serve (sha256 : Sha256) (paths : StoragePaths) (world : ServerWorld)
    (request : TransferRequest) : Option (Option Response × ServerWorld) :=
  (receiveTransfer sha256 paths request).solo reliableExec (fun _ => ()) world

/-- Where the staging file of a transfer is. -/
def stagingPath (paths : StoragePaths) (transferId : Uuid) : Path :=
  paths.stagingDir ++ [stagingName transferId]

/-- The offset a request asks to continue from. -/
def offset (request : TransferRequest) : Nat := ((parseResumeOffset request.headers).getD 0).toNat

/-- A request that sends a part of the file under the transfer's id, without a digest. -/
structure Part (whole : Bytes) (transferId : Uuid) (request : TransferRequest) : Prop where
  transferId : request.transferId = transferId
  unchecked : request.headers.sha256 = none
  announced : ∃ size, (request.headers.totalSize.bind HeaderValue.toStr).bind parseU64 = some size ∧
    size.toNat = whole.length
  within : offset request ≤ whole.length
  content : request.body.chunks.flatten <+: whole.drop (offset request)

/-- The offset is inside the staging file as it is. -/
def Inside (paths : StoragePaths) (transferId : Uuid) (world : ServerWorld)
    (request : TransferRequest) : Prop :=
  offset request ≤ partLength (stagingPath paths transferId) world

/-- One request of a sequence that `permits` it. -/
def Uploads (permits : ServerWorld → TransferRequest → Prop) (sha256 : Sha256)
    (paths : StoragePaths) (whole : Bytes) (transferId : Uuid) (before after : ServerWorld) : Prop :=
  ∃ request reply, Part whole transferId request ∧ permits before request ∧
    serve sha256 paths before request = some (reply, after)

/-- The file the answered request names holds the whole file. -/
def Delivered (paths : StoragePaths) (whole : Bytes) (request : TransferRequest)
    (world : ServerWorld) : Prop :=
  ∃ name, (request.headers.filename.bind HeaderValue.toStr).bind sanitizeFilename = some name ∧
    world.files.read (paths.receivedFilesDir ++ [name]) = some whole

/-- A part that continues inside the staging file keeps it a prefix, and delivers the whole file
when it is answered as complete. -/
theorem upload_step {sha256 : Sha256} {paths : StoragePaths} {whole : Bytes} {transferId : Uuid}
    {request : TransferRequest} {reply : Option Response} {before after : ServerWorld}
    (part : Part whole transferId request) (inside : Inside paths transferId before request)
    (staged : PartPrefix (stagingPath paths transferId) whole before)
    (served : serve sha256 paths before request = some (reply, after)) :
    PartPrefix (stagingPath paths transferId) whole after ∧
      ∀ response, reply = some response → response.status = 200 →
        Delivered paths whole request after := by
  cases accepted : acceptRequest paths request.transferId request.headers with
  | none =>
    simp only [serve, receiveTransfer, accepted, solo, Option.some.injEq, Prod.mk.injEq] at served
    obtain ⟨rfl, rfl⟩ := served
    exact ⟨staged, fun response none => by cases none⟩
  | some outcome =>
    cases outcome with
    | error refusal =>
      simp only [serve, receiveTransfer, accepted, solo, Option.some.injEq, Prod.mk.injEq] at served
      obtain ⟨rfl, rfl⟩ := served
      refine ⟨staged, fun response same ok => ?_⟩
      rw [← Option.some.inj same, acceptRequest_error accepted] at ok
      cases ok
    | ok upload =>
      obtain ⟨id, staging, final, name, size, digest, resume⟩ := acceptRequest_ok accepted
      obtain ⟨announced, parsed, length⟩ := part.announced
      rw [part.transferId] at id staging
      have located : upload.stagingPath = stagingPath paths transferId := staging
      have sends : Sends sha256 whole upload request.body := {
        size := by rw [← length, Option.some.inj (size.symm.trans parsed)]
        digest := by simp [digest, part.unchecked]
        content := by rw [resume]; exact part.content
        apart := by rw [staging, final]; exact staging_ne_received paths _ _ }
      have within : upload.resumeOffset.toNat ≤ partLength upload.stagingPath before := by
        rw [resume, staging]
        exact inside
      obtain ⟨value, world, ran, answered, -⟩ :=
        (total_receive accepted sends within (located ▸ staged)).solo fun _ => ()
      obtain ⟨rfl, rfl⟩ := Prod.mk.inj (Option.some.inj (ran.symm.trans served))
      refine ⟨located ▸ answered.staged, fun response same ok => ⟨upload.safeName, name, ?_⟩⟩
      obtain ⟨other, found, -, -, delivered⟩ := answered.reply
      rw [← final]
      exact delivered (Option.some.inj (found.symm.trans same) ▸ ok)

/-- Requests that continue inside the staging file keep it a prefix. -/
theorem uploads_staged {sha256 : Sha256} {paths : StoragePaths} {whole : Bytes} {transferId : Uuid}
    {start reached : ServerWorld}
    (fresh : start.files.read (stagingPath paths transferId) = none)
    (path : Relation.ReflTransGen
      (Uploads (Inside paths transferId) sha256 paths whole transferId) start reached) :
    PartPrefix (stagingPath paths transferId) whole reached := by
  induction path with
  | refl =>
    intro bytes found
    rw [fresh] at found
    cases found
  | tail _ last ih =>
    obtain ⟨request, reply, part, inside, served⟩ := last
    exact (upload_step part inside ih served).1

/-- When every request continues inside the staging file as it finds it, an upload that is answered
as complete has delivered the whole file. -/
theorem resume_sound {sha256 : Sha256} {paths : StoragePaths} {whole : Bytes} {transferId : Uuid}
    {start before after : ServerWorld} {request : TransferRequest} {response : Response}
    (fresh : start.files.read (stagingPath paths transferId) = none)
    (path : Relation.ReflTransGen
      (Uploads (Inside paths transferId) sha256 paths whole transferId) start before)
    (part : Part whole transferId request) (inside : Inside paths transferId before request)
    (served : serve sha256 paths before request = some (some response, after))
    (complete : response.status = 200) : Delivered paths whole request after :=
  (upload_step part inside (uploads_staged fresh path) served).2 response rfl complete

/-! ## A sample transfer -/

/-- The application directory of the sample runs. -/
def samplePaths : StoragePaths := ⟨["data"]⟩

/-- SHA-256 on the inputs of the sample runs, which are the bytes 1, 2, and both. -/
def sampleSha256 : Sha256 := fun bytes =>
  if bytes = [1] then
    [75, 245, 18, 47, 52, 69, 84, 197, 59, 222, 46, 187, 140, 210, 183, 227,
      209, 96, 10, 214, 49, 195, 133, 165, 215, 204, 226, 60, 119, 133, 69, 154]
  else if bytes = [2] then
    [219, 193, 180, 201, 0, 255, 228, 141, 87, 91, 93, 165, 198, 56, 4, 1,
      37, 246, 93, 176, 254, 62, 36, 73, 75, 118, 234, 152, 100, 87, 217, 134]
  else if bytes = [1, 2] then
    [161, 40, 113, 254, 226, 16, 251, 134, 25, 41, 30, 174, 161, 148, 88, 28,
      189, 37, 49, 228, 178, 55, 89, 210, 37, 246, 128, 105, 35, 246, 50, 34]
  else []

/-- A server that has received nothing. -/
def emptyServer : ServerWorld := ⟨.empty, fun _ => none, .none⟩

/-- The transfer of the sample runs. -/
def sampleId : Uuid := ⟨7⟩

/-- A request for a file of the two bytes 1 and 2, with the text of its `Content-Range` and its body. -/
def sampleRequest (contentRange : Option String) (chunks : List Bytes) : TransferRequest where
  transferId := sampleId
  headers := {
    filename := some ⟨some "a"⟩
    totalSize := some ⟨some "2"⟩
    sha256 := none
    contentRange := contentRange.map fun text => ⟨some text⟩ }
  body := ⟨chunks, none⟩

/-- A request of the sample sends a part of the file. -/
theorem sampleRequest_part {contentRange : Option String} {chunks : List Bytes} (position : Nat)
    (asks : offset (sampleRequest contentRange chunks) = position) (within : position ≤ 2)
    (content : chunks.flatten <+: [1, 2].drop position) :
    Part [1, 2] sampleId (sampleRequest contentRange chunks) where
  transferId := rfl
  unchecked := rfl
  announced := by
    have parsed : (some "2").bind parseU64 = some 2 := by decide +kernel
    exact ⟨2, parsed, rfl⟩
  within := asks ▸ within
  content := asks ▸ content

/-- The first byte in one request and the second in another one. -/
theorem resume_sound_twoParts : ∃ before response after,
    Uploads (Inside samplePaths sampleId) (fun _ => []) samplePaths [1, 2] sampleId emptyServer
        before ∧
      serve (fun _ => []) samplePaths before (sampleRequest (some "bytes 1-1/2") [[2]]) =
        some (some response, after) ∧
      Delivered samplePaths [1, 2] (sampleRequest (some "bytes 1-1/2") [[2]]) after := by
  have runs : ((serve (fun _ => []) samplePaths emptyServer (sampleRequest none [[1]])).bind
      fun first => (serve (fun _ => []) samplePaths first.2
        (sampleRequest (some "bytes 1-1/2") [[2]])).map fun second =>
          (partLength (stagingPath samplePaths sampleId) first.2, second.1.map (·.status))) =
      some (1, some 200) := by
    decide +kernel
  obtain ⟨⟨reply, before⟩, first, rest⟩ := Option.bind_eq_some_iff.mp runs
  obtain ⟨⟨answer, after⟩, second, outcome⟩ := Option.map_eq_some_iff.mp rest
  obtain ⟨length, answered⟩ := Prod.mk.inj outcome
  obtain ⟨response, rfl, complete⟩ := Option.map_eq_some_iff.mp answered
  have restart : offset (sampleRequest none [[1]]) = 0 := rfl
  have continues : offset (sampleRequest (some "bytes 1-1/2") [[2]]) = 1 := by decide +kernel
  have uploads : Uploads (Inside samplePaths sampleId) (fun _ => []) samplePaths [1, 2] sampleId
      emptyServer before :=
    ⟨_, reply, sampleRequest_part 0 restart (by decide) (by decide), Nat.zero_le _, first⟩
  refine ⟨before, response, after, uploads, second, ?_⟩
  exact resume_sound rfl (.single uploads) (sampleRequest_part 1 continues (by decide) (by decide))
    (by rw [Inside, continues]; exact length.ge) second complete

/-- A request may ask to continue past the end of what is staged, and is then answered as complete
with a gap in the file. -/
theorem resume_sound_broken :
    ¬∀ (sha256 : Sha256) (paths : StoragePaths) (whole : Bytes) (transferId : Uuid)
      (start before after : ServerWorld) (request : TransferRequest) (response : Response),
      start.files.read (stagingPath paths transferId) = none →
      Relation.ReflTransGen (Uploads (fun _ _ => True) sha256 paths whole transferId) start before →
      Part whole transferId request →
      serve sha256 paths before request = some (some response, after) →
      response.status = 200 → Delivered paths whole request after := by
  intro always
  have runs : (serve (fun _ => []) samplePaths emptyServer
      (sampleRequest (some "bytes 1-1/2") [[2]])).map (fun served =>
        (served.1.map (·.status), served.2.files.read (samplePaths.receivedFilesDir ++ ["a"]))) =
      some (some 200, some [0, 2]) := by
    decide +kernel
  obtain ⟨⟨reply, after⟩, served, outcome⟩ := Option.map_eq_some_iff.mp runs
  obtain ⟨answered, reads⟩ := Prod.mk.inj outcome
  obtain ⟨response, rfl, complete⟩ := Option.map_eq_some_iff.mp answered
  have continues : offset (sampleRequest (some "bytes 1-1/2") [[2]]) = 1 := by decide +kernel
  obtain ⟨name, sanitized, delivered⟩ := always _ samplePaths [1, 2] sampleId emptyServer _ after _
    response rfl .refl (sampleRequest_part 1 continues (by decide) (by decide)) served complete
  have named : ((sampleRequest (some "bytes 1-1/2") [[2]]).headers.filename.bind HeaderValue.toStr).bind
      sanitizeFilename = some "a" := by
    decide +kernel
  obtain rfl := Option.some.inj (named.symm.trans sanitized)
  exact absurd (reads.symm.trans delivered) (by decide)

end FileDrop.Resume
