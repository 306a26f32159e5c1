import FileDrop.Core.Header
import FileDrop.Foundation.Program
import FileDrop.Security.Checksum
import FileDrop.Security.SafeJoin
import FileDrop.Transfer.Session

/-!
# The receiving server

The upload handler of the HTTP server. What it does before it touches the disk is a pure function
of the request; everything after is a program that stops at each await point. The body is the list
of its chunks, with the error that ends it when it is cut short, and a session's flags are read
where the loop reads them.
-/
namespace FileDrop

open Effects Unix

/-! ## Requests and responses -/

/-- The headers `receive_transfer` reads: of each the first value, if there is one. -/
structure TransferHeaders where
  /-- `X-FileDrop-Filename`. -/
  filename : Option HeaderValue
  /-- `X-FileDrop-Total-Size`. -/
  totalSize : Option HeaderValue
  /-- `X-FileDrop-Sha256`. -/
  sha256 : Option HeaderValue
  /-- `Content-Range`. -/
  contentRange : Option HeaderValue
  deriving DecidableEq

/-- A request body as its stream yields it. -/
structure Body where
  chunks : List Bytes
  /-- The stream's error after the last chunk, when the body did not arrive whole. -/
  failure : Option String
  deriving DecidableEq

/-- A `POST` to `/api/v1/transfer/:transfer_id`. -/
structure TransferRequest where
  transferId : Uuid
  headers : TransferHeaders
  body : Body
  deriving DecidableEq

/-- A status code with a text. -/
structure Response where
  status : Nat
  body : String
  deriving DecidableEq, Repr

/-- `server::parse_resume_offset`. -/
def parseResumeOffset (headers : TransferHeaders) : Option UInt64 := do
  let value ← headers.contentRange
  let raw ← value.toStr
  let label := "bytes ".toList
  if label <+: raw.toList then
    parseU64 (.ofList ((raw.toList.drop label.length).takeWhile (· != '-')))
  else none

/-- After the label the offset ends at the first dash. -/
theorem parseResumeOffset_range {headers : TransferHeaders} {value : HeaderValue}
    {first rest : List Char} (given : headers.contentRange = some value)
    (reads : value.toStr = some (.ofList ("bytes ".toList ++ (first ++ '-' :: rest))))
    (plain : ∀ c ∈ first, c ≠ '-') : parseResumeOffset headers = parseU64 (.ofList first) := by
  have labelled : "bytes ".toList <+: "bytes ".toList ++ (first ++ '-' :: rest) :=
    List.prefix_append _ _
  have kept : ∀ c ∈ first, (c != '-') = true := fun c member => bne_iff_ne.mpr (plain c member)
  have number : (("bytes ".toList ++ (first ++ '-' :: rest)).drop "bytes ".toList.length).takeWhile
      (· != '-') = first := by
    rw [List.drop_left, List.takeWhile_append_of_pos kept]
    simp
  simp only [parseResumeOffset, given, reads, String.toList_ofList, Option.bind_eq_bind,
    Option.bind_some, labelled, if_true, number]

/-- A request the handler has accepted, before it touches the disk. -/
structure Upload where
  transferId : Uuid
  safeName : String
  totalSize : UInt64
  expectedSha256 : Option String
  stagingPath : Path
  finalPath : Path
  resumeOffset : UInt64
  deriving DecidableEq

/-- `receive_transfer` up to its first await point: no result is a panic of the sanitizer. -/
def acceptRequest (paths : StoragePaths) (transferId : Uuid) (headers : TransferHeaders) :
    Option (Except Response Upload) :=
  match headers.filename.bind HeaderValue.toStr with
  | none => some (.error ⟨400, "missing X-FileDrop-Filename"⟩)
  | some rawFilename =>
    match (headers.totalSize.bind HeaderValue.toStr).bind parseU64 with
    | none => some (.error ⟨400, "missing X-FileDrop-Total-Size"⟩)
    | some totalSize =>
      match sanitizeFilename rawFilename with
      | none => none
      | some safeName =>
        match safeJoin paths.stagingDir (stagingName transferId) with
        | .error error => some (.error ⟨400, error.toText⟩)
        | .ok stagingPath =>
          match safeJoin paths.receivedFilesDir safeName with
          | .error error => some (.error ⟨400, error.toText⟩)
          | .ok finalPath => some (.ok {
              transferId, safeName, totalSize, stagingPath, finalPath
              expectedSha256 := headers.sha256.bind HeaderValue.toStr
              resumeOffset := (parseResumeOffset headers).getD 0 })

/-- Where an accepted upload goes, and what it was asked for. -/
theorem acceptRequest_ok {paths : StoragePaths} {transferId : Uuid} {headers : TransferHeaders}
    {upload : Upload} (accepted : acceptRequest paths transferId headers = some (.ok upload)) :
    upload.transferId = transferId ∧
      upload.stagingPath = paths.stagingDir ++ [stagingName transferId] ∧
      upload.finalPath = paths.receivedFilesDir ++ [upload.safeName] ∧
      (headers.filename.bind HeaderValue.toStr).bind sanitizeFilename = some upload.safeName ∧
      (headers.totalSize.bind HeaderValue.toStr).bind parseU64 = some upload.totalSize ∧
      upload.expectedSha256 = headers.sha256.bind HeaderValue.toStr ∧
      upload.resumeOffset = (parseResumeOffset headers).getD 0 := by
  unfold acceptRequest at accepted
  split at accepted
  · cases accepted
  · rename_i rawFilename name
    split at accepted
    · cases accepted
    · rename_i totalSize size
      split at accepted
      · cases accepted
      · rename_i safeName sanitized
        simp only [safeJoin_staging, safeJoin_sanitized _ sanitized, Option.some.injEq,
          Except.ok.injEq] at accepted
        subst accepted
        have named : (headers.filename.bind HeaderValue.toStr).bind sanitizeFilename = some safeName := by
          rw [name, Option.bind_some, sanitized]
        exact ⟨rfl, rfl, rfl, named, size, rfl, rfl⟩

/-- What the handler accepts: a name that sanitizes and a size that parses. -/
theorem acceptRequest_of {paths : StoragePaths} {transferId : Uuid} {headers : TransferHeaders}
    {rawFilename safeName : String} {totalSize : UInt64}
    (name : headers.filename.bind HeaderValue.toStr = some rawFilename)
    (size : (headers.totalSize.bind HeaderValue.toStr).bind parseU64 = some totalSize)
    (sanitized : sanitizeFilename rawFilename = some safeName) :
    acceptRequest paths transferId headers = some (.ok {
      transferId, safeName, totalSize
      stagingPath := paths.stagingDir ++ [stagingName transferId]
      finalPath := paths.receivedFilesDir ++ [safeName]
      expectedSha256 := headers.sha256.bind HeaderValue.toStr
      resumeOffset := (parseResumeOffset headers).getD 0 }) := by
  unfold acceptRequest
  simp only [name, size, sanitized, safeJoin_staging, safeJoin_sanitized _ sanitized]

/-- A request is refused for a missing header only. -/
theorem acceptRequest_refused {paths : StoragePaths} {transferId : Uuid} {headers : TransferHeaders}
    {response : Response}
    (refused : acceptRequest paths transferId headers = some (.error response)) :
    response = ⟨400, "missing X-FileDrop-Filename"⟩ ∨
      response = ⟨400, "missing X-FileDrop-Total-Size"⟩ := by
  unfold acceptRequest at refused
  split at refused
  · exact .inl (Except.error.inj (Option.some.inj refused)).symm
  · split at refused
    · exact .inr (Except.error.inj (Option.some.inj refused)).symm
    · split at refused
      · cases refused
      · rename_i sanitized
        simp only [safeJoin_staging, safeJoin_sanitized _ sanitized, Option.some.injEq,
          reduceCtorEq] at refused

/-- A refused request is a bad one. -/
theorem acceptRequest_error {paths : StoragePaths} {transferId : Uuid} {headers : TransferHeaders}
    {response : Response}
    (refused : acceptRequest paths transferId headers = some (.error response)) :
    response.status = 400 := by
  rcases acceptRequest_refused refused with rfl | rfl
  · rfl
  · rfl

/-- A staging file never is a received file. -/
theorem staging_ne_received (paths : StoragePaths) (staged received : String) :
    paths.stagingDir ++ [staged] ≠ paths.receivedFilesDir ++ [received] := by
  intro same
  simp [StoragePaths.stagingDir, StoragePaths.receivedFilesDir] at same

/-! ## Operations -/

/-- The operations of the handler. -/
inductive ServerOp where
  | file (op : FileOp Path)
  /-- Make the session of an upload and put it into the map, under the map's write lock. -/
  | insertSession (transferId : Uuid) (fileName : String) (totalBytes initial : UInt64)
  /-- Take a session out of the map, under the map's write lock. -/
  | removeSession (transferId : Uuid)
  /-- Wait for the stream's next item. -/
  | nextChunk
  | isCancelled (session : TransferSession)
  /-- The pause loop: sleep until the session is not paused. -/
  | awaitResumed (session : TransferSession)
  | addBytes (session : TransferSession) (n : UInt64)

/-- What each operation returns. -/
abbrev ServerOp.Result : ServerOp → Type
  | .file op => op.Result
  | .insertSession .. => TransferSession
  | .removeSession _ => Unit
  | .nextChunk => Unit
  | .isCancelled _ => Bool
  | .awaitResumed _ => Unit
  | .addBytes _ _ => Unit

/-- The signature of the handler. -/
abbrev serverSig : Signature := ⟨ServerOp, ServerOp.Result⟩

/-- What handlers share: the file system, `AppState::sessions`, and the sessions' cells. -/
structure ServerWorld where
  files : FileStore Path
  sessions : Uuid → Option TransferSession
  cells : SessionCells

/-- Carry out one operation. Only the pause loop blocks, while its session is paused. -/
def serverExec : Meaning serverSig ServerWorld Fault
  | world, .file op, fault =>
    let (result, files) := op.exec world.files fault
    some (result, { world with files })
  | world, .insertSession transferId fileName totalBytes initial, _ =>
    let (cell, cells) := world.cells.allocate initial
    let session : TransferSession := ⟨transferId, fileName, totalBytes, .receive, cell⟩
    some (session,
      { world with cells, sessions := Function.update world.sessions transferId (some session) })
  | world, .removeSession transferId, _ =>
    some ((), { world with sessions := Function.update world.sessions transferId none })
  | world, .nextChunk, _ => some ((), world)
  | world, .isCancelled session, _ => some (world.cells.isCancelled session.cell, world)
  | world, .awaitResumed session, _ =>
    if world.cells.isPaused session.cell then none else some ((), world)
  | world, .addBytes session n, _ =>
    some ((), { world with cells := world.cells.addBytes session.cell n })

/-- The pause loop ends while its session is not paused, and changes nothing. -/
theorem serverExec_awaitResumed {world after : ServerWorld} {session : TransferSession} {fault : Fault}
    {result : Unit} (ran : serverExec world (.awaitResumed session) fault = some (result, after)) :
    ¬world.cells.isPaused session.cell ∧ after = world := by
  by_cases paused : world.cells.isPaused session.cell
  · simp [serverExec, paused] at ran
  · simp only [serverExec, paused] at ran
    obtain ⟨-, rfl⟩ := Prod.mk.inj (Option.some.inj ran)
    exact ⟨paused, rfl⟩

/-- A file operation of a handler is the file system's. -/
theorem serverExec_file {world after : ServerWorld} {op : FileOp Path} {fault : Fault}
    {result : op.Result} (ran : serverExec world (.file op) fault = some (result, after)) :
    op.exec world.files fault = (result, after.files) := by
  obtain ⟨rfl, rfl⟩ := Prod.mk.inj (Option.some.inj ran)
  rfl

/-- A file operation of a handler touches no session. -/
theorem serverExec_file_sessions {world after : ServerWorld} {op : FileOp Path} {fault : Fault}
    {result : op.Result} (ran : serverExec world (.file op) fault = some (result, after)) :
    after.sessions = world.sessions ∧ after.cells = world.cells := by
  obtain ⟨-, rfl⟩ := Prod.mk.inj (Option.some.inj ran)
  exact ⟨rfl, rfl⟩

/-- A harmless file operation leaves every file as it is. -/
theorem serverExec_harmless {world after : ServerWorld} {op : FileOp Path} {fault : Fault}
    {result : op.Result} (quiet : op.harmless)
    (ran : serverExec world (.file op) fault = some (result, after)) :
    after.files = world.files := by
  have unchanged := FileOp.exec_harmless world.files op quiet fault
  rw [serverExec_file ran] at unchanged
  exact unchanged

/-- The other operations touch no file. -/
theorem serverExec_files {world after : ServerWorld} {op : ServerOp} {fault : Fault}
    {result : op.Result} (other : ∀ inner, op ≠ .file inner)
    (ran : serverExec world op fault = some (result, after)) : after.files = world.files := by
  cases op with
  | file inner => exact absurd rfl (other inner)
  | insertSession | removeSession | nextChunk | isCancelled | addBytes =>
    obtain ⟨-, rfl⟩ := Prod.mk.inj (Option.some.inj ran)
    rfl
  | awaitResumed session =>
    obtain ⟨-, rfl⟩ := serverExec_awaitResumed ran
    rfl

/-- The operations when every file operation succeeds. -/
def reliableExec : Meaning serverSig ServerWorld Unit := fun world op _ =>
  serverExec world op .none

/-! ## The handler -/

/-- A handler ends with its response, or without one when it panics. -/
abbrev Handler : Type := Program serverSig (Option Response)

/-- Answer with a status and a text. -/
def respond (status : Nat) (body : String) : Handler := .done (some ⟨status, body⟩)

/-- `INTERNAL_SERVER_ERROR` with the error's text. -/
def serverError (error : IoError) : Handler := respond 500 error.text

/-- Wait for a file operation. -/
def serverFile (op : FileOp Path) : Program serverSig op.Result := .perform (.file op) .done

/-- Take the upload's session out of the map and go on. -/
def dropSession (upload : Upload) (next : Handler) : Handler :=
  .perform (.removeSession upload.transferId) fun _ => next

/-- The rename and the answer to a complete upload. -/
def commitUpload (upload : Upload) : Handler :=
  (serverFile (.rename upload.stagingPath upload.finalPath)).attempt serverError fun _ =>
    dropSession upload (respond 200 "transfer complete")

/-- The comparison of the digests. -/
def checkDigest (upload : Upload) (expected actual : String) : Handler :=
  if actual ≠ expected then
    dropSession upload <| (serverFile (.remove upload.stagingPath)).bind fun _ =>
      respond 422 ("checksum mismatch: expected " ++ expected ++ ", got " ++ actual)
  else commitUpload upload

/-- The digest of an upload: of the bytes this request brought, or of the file on disk. -/
def verifyUpload (sha256 : Sha256) (upload : Upload) (hasher : Sha256Hasher) : Handler :=
  match upload.expectedSha256 with
  | none => commitUpload upload
  | some expected =>
    if upload.resumeOffset = 0 then checkDigest upload expected (hasher.finalizeHex sha256)
    else
      (serverFile (.read upload.stagingPath)).attempt
        (fun error => respond 500 (FileDropError.io error).toText)
        fun bytes => checkDigest upload expected (sha256Hex sha256 bytes)

/-- What follows the chunk loop. -/
def finishUpload (sha256 : Sha256) (upload : Upload) (hasher : Sha256Hasher) (written : UInt64)
    (file : Handle) : Handler :=
  (serverFile (.flush file)).attempt serverError fun _ =>
    if written ≠ upload.totalSize then
      dropSession upload <| respond 206 ("received " ++ decimal written ++ " of " ++
        decimal upload.totalSize ++ " bytes; resumable")
    else verifyUpload sha256 upload hasher

/-- The chunk loop, on what is left of the body. -/
def chunkLoop (sha256 : Sha256) (upload : Upload) (session : TransferSession)
    (failure : Option String) : List Bytes → Sha256Hasher → UInt64 → Handle → Handler
  | [], hasher, written, file =>
    .perform .nextChunk fun _ =>
      match failure with
      | some error => dropSession upload (respond 400 ("stream error: " ++ error))
      | none => finishUpload sha256 upload hasher written file
  | chunk :: rest, hasher, written, file =>
    .perform .nextChunk fun _ =>
    .perform (.isCancelled session) fun cancelled =>
      if cancelled then
        dropSession upload <| (serverFile (.remove upload.stagingPath)).bind fun _ =>
          respond 499 "transfer cancelled"
      else
        .perform (.awaitResumed session) fun _ =>
        (serverFile (.write file chunk)).attempt
          (fun error => dropSession upload (serverError error)) fun moved =>
        .perform (.addBytes session (.ofNat chunk.length)) fun _ =>
          chunkLoop sha256 upload session failure rest (hasher.update chunk)
            (written + .ofNat chunk.length) moved

/-- The session of an upload whose staging file is open and positioned. -/
def streamUpload (sha256 : Sha256) (upload : Upload) (body : Body) (file : Handle) : Handler :=
  .perform (.insertSession upload.transferId upload.safeName upload.totalSize upload.resumeOffset)
    fun session =>
      chunkLoop sha256 upload session body.failure body.chunks .new upload.resumeOffset file

/-- The opening of the staging file: emptied for a fresh upload, kept and positioned for a resumed
one. -/
def openStaging (sha256 : Sha256) (upload : Upload) (body : Body) : Handler :=
  (serverFile (.openWrite upload.stagingPath (upload.resumeOffset = 0))).attempt serverError
    fun file =>
      if upload.resumeOffset > 0 then
        (serverFile (.seek file upload.resumeOffset.toNat)).attempt serverError fun positioned =>
          streamUpload sha256 upload body positioned
      else streamUpload sha256 upload body file

/-- `server::receive_transfer`. -/
def receiveTransfer (sha256 : Sha256) (paths : StoragePaths) (request : TransferRequest) :
    Handler :=
  match acceptRequest paths request.transferId request.headers with
  | none => .done none
  | some (.error response) => .done (some response)
  | some (.ok upload) =>
    (serverFile (.createDirAll upload.stagingPath.dropLast)).attempt serverError fun _ =>
      openStaging sha256 upload request.body

end FileDrop
