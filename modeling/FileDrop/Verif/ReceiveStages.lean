import FileDrop.Transfer.Receiving
import FileDrop.Verif.Isolation

/-!
# The stages of an upload

Where a running handler is: before its staging file is open, at one of the operations of the chunk loop,
or past the loop, where it only closes. While it streams, the staging file holds what was staged before
with the written chunks laid over it from the offset on, and the session has counted every chunk but the
one that is written and not counted yet.
-/
namespace FileDrop.ReceiveStages
open FileDrop Effects Effects.Program Unix Isolation

/-! ## The operations of the loop -/

section

variable (sha256 : Sha256) (upload : Upload) (body : Body) (session : TransferSession)
variable (chunk : Bytes) (rest : List Bytes) (hasher : Sha256Hasher) (written : UInt64) (file : Handle)

/-- A chunk is written, and is to be counted. -/
def countChunk : Handler :=
  .perform (.addBytes session (.ofNat chunk.length)) fun _ =>
    chunkLoop sha256 upload session body.failure rest (hasher.update chunk)
      (written + .ofNat chunk.length) file

/-- A chunk is to be written. -/
def writeChunk : Handler :=
  (serverFile (.write file chunk)).attempt (fun error => dropSession upload (serverError error)) fun moved =>
    countChunk sha256 upload body session chunk rest hasher written moved

/-- The loop over the pause flag. -/
def pauseChunk : Handler :=
  .perform (.awaitResumed session) fun _ =>
    writeChunk sha256 upload body session chunk rest hasher written file

/-- The removal of the staging file of a cancelled upload. -/
def removeStaging : Handler :=
  (serverFile (.remove upload.stagingPath)).bind fun _ => respond 499 "transfer cancelled"

/-- A chunk is taken, and the cancel flag is to be read. -/
def checkChunk : Handler :=
  .perform (.isCancelled session) fun cancelled =>
    if cancelled then dropSession upload (removeStaging upload)
    else pauseChunk sha256 upload body session chunk rest hasher written file

/-- The loop takes a chunk. -/
theorem chunkLoop_cons : chunkLoop sha256 upload session body.failure (chunk :: rest) hasher written file =
    .perform .nextChunk fun _ =>
      checkChunk sha256 upload body session chunk rest hasher written file := rfl

/-- What follows the last chunk. -/
def endOfBody : Handler :=
  match body.failure with
  | some error => dropSession upload (respond 400 ("stream error: " ++ error))
  | none => finishUpload sha256 upload hasher written file

theorem chunkLoop_nil : chunkLoop sha256 upload session body.failure [] hasher written file =
    .perform .nextChunk fun _ => endOfBody sha256 upload body hasher written file := rfl

/-- The seek of a resumed upload. -/
def seekStaging : Handler :=
  (serverFile (.seek file upload.resumeOffset.toNat)).attempt serverError fun positioned =>
    streamUpload sha256 upload body positioned

/-- The creation of the directory. -/
def enterUpload : Handler :=
  (serverFile (.createDirAll upload.stagingPath.dropLast)).attempt serverError fun _ =>
    openStaging sha256 upload body

end

/-- An accepted upload starts with its directory. -/
theorem receiveTransfer_accepted {sha256 : Sha256} {paths : StoragePaths} {request : TransferRequest}
    {upload : Upload}
    (accepted : acceptRequest paths request.transferId request.headers = some (.ok upload)) :
    receiveTransfer sha256 paths request = enterUpload sha256 upload request.body := by
  simp only [receiveTransfer, accepted, enterUpload]

/-! ## Past the loop -/

/-- The operations past the loop: they leave the staging file as it is or take it away. -/
def Closing (upload : Upload) : ServerOp → Prop
  | .removeSession _ | .file (.flush _) | .file (.read _) => True
  | .file (.rename source target) => source = upload.stagingPath ∧ target = upload.finalPath
  | .file (.remove path) => path = upload.stagingPath
  | _ => False

/-- A handler that only closes, and ends with a reply of a kind. -/
def Closes (upload : Upload) (ends : Option Response → Prop) : Handler → Prop
  | .done reply => ends reply
  | .perform op next => Closing upload op ∧ ∀ result, Closes upload ends (next result)

/-- A reply that is none of the success class. -/
def Fails (reply : Option Response) : Prop := ∀ response ∈ reply, 300 ≤ response.status

section

variable {upload : Upload} {ends : Option Response → Prop}

/-- An answer that is none of the success class. -/
theorem closes_failed {status : Nat} {text : String} (failed : 300 ≤ status) :
    Closes upload Fails (respond status text) := by
  rintro response ⟨⟩
  exact failed

theorem closes_dropSession {next : Handler} (closes : Closes upload ends next) :
    Closes upload ends (dropSession upload next) := ⟨trivial, fun _ => closes⟩

/-- A closing operation on the file. -/
theorem closes_file {op : FileOp Path} {next : op.Result → Handler} (closing : Closing upload (.file op))
    (goes : ∀ result, Closes upload ends (next result)) :
    Closes upload ends ((serverFile op).bind next) := ⟨closing, goes⟩

/-- A kind of reply is of every wider kind. -/
theorem Closes.mono {wider : Option Response → Prop} (widens : ∀ reply, ends reply → wider reply)
    {handler : Handler} (closes : Closes upload ends handler) : Closes upload wider handler := by
  induction handler with
  | done reply => exact widens reply closes
  | perform op next ih => exact ⟨closes.1, fun result => ih result (closes.2 result)⟩

end

section

variable {sha256 : Sha256} {upload : Upload} {body : Body} {hasher : Sha256Hasher} {written : UInt64}
variable {file : Handle}

/-- Any reply. -/
abbrev Anything (_ : Option Response) : Prop := True

theorem closes_respond {status : Nat} {text : String} :
    Closes upload Anything (respond status text) := trivial

/-- The rename, and the answer. -/
theorem closes_commit : Closes upload Anything (commitUpload upload) := by
  refine closes_file ⟨rfl, rfl⟩ fun result => ?_
  cases result with
  | error error => exact closes_respond
  | ok done => exact closes_dropSession closes_respond

/-- The comparison of the digests. -/
theorem closes_checkDigest (expected actual : String) :
    Closes upload Anything (checkDigest upload expected actual) := by
  unfold checkDigest
  split
  · exact closes_dropSession (closes_file rfl fun _ => closes_respond)
  · exact closes_commit

/-- The verification. -/
theorem closes_verify : Closes upload Anything (verifyUpload sha256 upload hasher) := by
  unfold verifyUpload
  split
  · exact closes_commit
  · rename_i expected _
    split
    · exact closes_checkDigest _ _
    · refine closes_file trivial fun result => ?_
      cases result with
      | error error => exact closes_respond
      | ok bytes => exact closes_checkDigest _ _

/-- What follows a whole body. -/
theorem closes_finish : Closes upload Anything (finishUpload sha256 upload hasher written file) := by
  refine closes_file trivial fun result => ?_
  cases result with
  | error error => exact closes_respond
  | ok flushed =>
    change Closes upload Anything (if written ≠ upload.totalSize then _ else _)
    split
    · exact closes_dropSession closes_respond
    · exact closes_verify

end

/-! ## Stages -/

section

variable (upload : Upload) (body : Body) (old : Option Bytes)

/-- The staging file is as it was and nothing is written, or what is written, with a part of the next
chunk at most, is laid over what was staged before. -/
def Staged (state : Receiving) : Prop :=
  ∀ bytes, state.world.files.read upload.stagingPath = some bytes →
    state.written = [] ∧ some bytes = old ∨
      ∃ sent, state.written.flatten <+: sent ∧ sent <+: body.chunks.flatten ∧
        bytes = stagedWith upload old sent

/-- The handler has not made its session, and has written nothing. -/
structure Fresh (state : Receiving) : Prop where
  session : state.session = none
  asked : state.asked = 0
  written : state.written = []

/-- What was staged is as it was; where nothing was, there may be an empty file. -/
def Kept (state : Receiving) : Prop :=
  state.world.files.read upload.stagingPath = old ∨
    old = none ∧ state.world.files.read upload.stagingPath = some []

/-- The handler has ended before it made its session. -/
structure Stuck (state : Receiving) : Prop extends Fresh state where
  ended : ∃ reply, state.handler = .done reply
  kept : Kept upload old state

/-- The staging file is open, and holds what has been written. -/
structure Writing (state : Receiving) (file : Handle) : Prop where
  opened : state.file = some file
  leads : state.world.files.entries upload.stagingPath = some file.inode
  staged : state.world.files.read upload.stagingPath =
    some (stagedWith upload old state.written.flatten)
  position : file.position = upload.resumeOffset.toNat + state.written.flatten.length
  valid : Valid upload

/-- The loop is at work, and so many of the bytes that are written are not counted yet. -/
structure Streaming (state : Receiving) (session : TransferSession) (file : Handle)
    (uncounted : UInt64) : Prop extends Writing upload old state file where
  made : state.session = some session
  announced : session.totalBytes = upload.totalSize
  counted : (state.world.cells.content session.cell).bytesTransferred + uncounted =
    upload.resumeOffset + .ofNat state.written.flatten.length

/-- The loop has taken a chunk, and some are left. -/
structure Taken (state : Receiving) (chunk : Bytes) (rest : List Bytes) : Prop where
  asked : state.asked = state.written.length + 1
  left : body.chunks = state.written ++ chunk :: rest

/-- The loop has written all that it has taken, and some are left. -/
structure Between (state : Receiving) (rest : List Bytes) : Prop where
  asked : state.asked = state.written.length
  left : body.chunks = state.written ++ rest

/-- A cancelled upload gives up its session and its staging file. -/
inductive Discards : Handler → ServerWorld → Prop where
  | drop (world : ServerWorld) : Discards (dropSession upload (removeStaging upload)) world
  | remove (world : ServerWorld) : Discards (removeStaging upload) world
  | gone (world : ServerWorld) (removed : world.files.read upload.stagingPath = none) :
    Discards (respond 499 "transfer cancelled") world

variable (sha256 : Sha256) (mayFail : Prop)

/-- Where an accepted upload is. -/
inductive Stage (state : Receiving) : Prop where
  | entered (waits : state.handler = enterUpload sha256 upload body) (fresh : Fresh state)
    (untouched : state.world.files.read upload.stagingPath = old)
  | opening (waits : state.handler = openStaging sha256 upload body) (fresh : Fresh state)
    (untouched : state.world.files.read upload.stagingPath = old)
  | seeking (file : Handle) (waits : state.handler = seekStaging sha256 upload body file)
    (fresh : Fresh state) (leads : state.world.files.entries upload.stagingPath = some file.inode)
    (staged : state.world.files.read upload.stagingPath = some (stagedWith upload old []))
  | inserting (file : Handle) (waits : state.handler = streamUpload sha256 upload body file)
    (fresh : Fresh state) (writing : Writing upload old state file)
  | taking (session : TransferSession) (hasher : Sha256Hasher) (written : UInt64) (file : Handle)
    (rest : List Bytes)
    (waits : state.handler = chunkLoop sha256 upload session body.failure rest hasher written file)
    (streaming : Streaming upload old state session file 0) (between : Between body state rest)
  | checking (session : TransferSession) (hasher : Sha256Hasher) (written : UInt64) (file : Handle)
    (chunk : Bytes) (rest : List Bytes)
    (waits : state.handler = checkChunk sha256 upload body session chunk rest hasher written file)
    (streaming : Streaming upload old state session file 0) (taken : Taken body state chunk rest)
  | pausing (session : TransferSession) (hasher : Sha256Hasher) (written : UInt64) (file : Handle)
    (chunk : Bytes) (rest : List Bytes)
    (waits : state.handler = pauseChunk sha256 upload body session chunk rest hasher written file)
    (streaming : Streaming upload old state session file 0) (taken : Taken body state chunk rest)
  | writing (session : TransferSession) (hasher : Sha256Hasher) (written : UInt64) (file : Handle)
    (chunk : Bytes) (rest : List Bytes)
    (waits : state.handler = writeChunk sha256 upload body session chunk rest hasher written file)
    (streaming : Streaming upload old state session file 0) (taken : Taken body state chunk rest)
  | counting (session : TransferSession) (hasher : Sha256Hasher) (written : UInt64) (file : Handle)
    (chunk : Bytes) (rest : List Bytes)
    (waits : state.handler = countChunk sha256 upload body session chunk rest hasher written file)
    (streaming : Streaming upload old state session file (.ofNat chunk.length))
    (between : Between body state rest)
  | closing
    (closes : Closes upload (fun reply => Fails reply ∨ Valid upload ∧ state.written = body.chunks)
      state.handler)
    (staged : Staged upload body old state) (sought : Valid upload ∨ Stuck upload old state)
    (cause : mayFail ∨ body.chunks.length < state.asked ∨
      Discards upload state.handler state.world ∨ ¬Valid upload)

end

/-! ## What each operation does -/

section

variable {sha256 : Sha256} {upload : Upload} {body : Body} {old : Option Bytes} {mayFail : Prop}
variable {before after : Receiving} {fault : Fault}

/-- A staging file that is as it was. -/
theorem Staged.untouched {state : Receiving} (nothing : state.written = [])
    (same : state.world.files.read upload.stagingPath = old) : Staged upload body old state := by
  intro bytes reads
  exact .inl ⟨nothing, reads.symm.trans same⟩

/-- A staging file with a part of the body. -/
theorem Staged.part {state : Receiving} {sent : Bytes} (whole : state.written.flatten <+: sent)
    (part : sent <+: body.chunks.flatten)
    (reads : state.world.files.read upload.stagingPath = some (stagedWith upload old sent)) :
    Staged upload body old state := by
  intro bytes found
  exact .inr ⟨sent, whole, part, Option.some.inj (found.symm.trans reads)⟩

/-- A staging file with all that is written. -/
theorem Staged.exact {state : Receiving} (part : state.written.flatten <+: body.chunks.flatten)
    (reads : state.world.files.read upload.stagingPath =
      some (stagedWith upload old state.written.flatten)) : Staged upload body old state :=
  .part (List.prefix_refl _) part reads

/-- Opened from no file offset, the staging file is as it was or is there and empty. -/
theorem kept_opened {state : Receiving} (invalid : ¬Valid upload)
    (staged : state.world.files.read upload.stagingPath = some (stagedWith upload old [])) :
    Kept upload old state := by
  have resumed : upload.resumeOffset ≠ 0 := by
    intro zero
    rw [Valid, zero] at invalid
    exact invalid (by decide)
  unfold stagedWith at staged
  rw [if_neg resumed, overlay_nil] at staged
  cases old with
  | none => exact .inr ⟨rfl, staged⟩
  | some bytes => exact .inl staged

/-- What is known of a handler that streams stays true while its file is not touched and nothing is
counted. -/
theorem Streaming.still {session : TransferSession} {file : Handle} {uncounted : UInt64}
    (streaming : Streaming upload old before session file uncounted)
    (opened : after.file = before.file) (written : after.written = before.written)
    (made : after.session = before.session) (files : after.world.files = before.world.files)
    (bytes : ∀ cell, (after.world.cells.content cell).bytesTransferred =
      (before.world.cells.content cell).bytesTransferred) :
    Streaming upload old after session file uncounted where
  opened := opened.trans streaming.opened
  leads := by rw [files, streaming.leads]
  staged := by rw [files, written, streaming.staged]
  position := by rw [written, streaming.position]
  valid := streaming.valid
  made := made.trans streaming.made
  announced := streaming.announced
  counted := by rw [bytes, written, streaming.counted]

/-- A handler that ends with the error of an operation before it makes its session. -/
theorem Stage.failed {state : Receiving} {error : IoError} (ends : state.handler = serverError error)
    (staged : Staged upload body old state) (fresh : Fresh state)
    (kept : ¬Valid upload → Kept upload old state) (cause : mayFail ∨ ¬Valid upload) :
    Stage upload body old sha256 mayFail state := by
  have sought : Valid upload ∨ Stuck upload old state :=
    or_iff_not_imp_left.mpr fun invalid => ⟨fresh, ⟨_, ends⟩, kept invalid⟩
  refine .closing ?_ staged sought (cause.imp_right fun invalid => .inr (.inr invalid))
  rw [ends]
  exact (closes_failed (by decide)).mono fun _ fails => .inl fails

/-- Before the directory is there. -/
theorem work_entered (allowed : fault = .none ∨ mayFail)
    (waits : before.handler = enterUpload sha256 upload body) (fresh : Fresh before)
    (untouched : before.world.files.read upload.stagingPath = old)
    (stepped : before.step (.work fault) = some after) : Stage upload body old sha256 mayFail after := by
  obtain ⟨result, world, ran, rfl⟩ := Receiving.step_at waits stepped
  have same := serverExec_harmless rfl ran
  have still : world.files.read upload.stagingPath = old := by rw [same, untouched]
  cases result with
  | error error =>
    have may : mayFail := allowed.resolve_left (FileOp.exec_createDirAll (serverExec_file ran))
    exact .failed rfl (.untouched fresh.written still) ⟨fresh.session, fresh.asked, fresh.written⟩
      (fun _ => .inl still) (.inl may)
  | ok created => exact .opening rfl ⟨fresh.session, fresh.asked, fresh.written⟩ still

/-- Before the staging file is open. -/
theorem work_opening (allowed : fault = .none ∨ mayFail)
    (waits : before.handler = openStaging sha256 upload body) (fresh : Fresh before)
    (untouched : before.world.files.read upload.stagingPath = old)
    (stepped : before.step (.work fault) = some after) : Stage upload body old sha256 mayFail after := by
  obtain ⟨result, world, ran, rfl⟩ := Receiving.step_at waits stepped
  rcases FileOp.exec_openWrite (serverExec_file ran) with ⟨error, rfl, fails, same⟩ | ⟨rfl, opened⟩
  · have may : mayFail := allowed.resolve_left fails
    have still : world.files.read upload.stagingPath = old := by rw [same, untouched]
    exact .failed rfl (.untouched fresh.written still) ⟨fresh.session, fresh.asked, fresh.written⟩
      (fun _ => .inl still) (.inl may)
  · have leads : world.files.entries upload.stagingPath = some
        (before.world.files.openWrite upload.stagingPath (upload.resumeOffset = 0)).1.inode := by
      rw [opened]
      exact before.world.files.openWrite_entries _ _
    have staged : world.files.read upload.stagingPath = some (stagedWith upload old []) := by
      rw [opened, FileStore.read_openWrite, untouched]
      simp [stagedWith]
    by_cases resumed : upload.resumeOffset > 0
    · refine .seeking _ ?_ ⟨fresh.session, fresh.asked, fresh.written⟩ leads staged
      exact if_pos resumed
    · have zero : upload.resumeOffset.toNat = 0 := by
        have le := UInt64.not_lt.mp resumed
        simpa [UInt64.le_iff_toNat_le] using le
      refine .inserting _ (if_neg resumed) ⟨fresh.session, fresh.asked, fresh.written⟩ ?_
      refine ⟨rfl, leads, ?_, ?_, ?_⟩
      · change world.files.read upload.stagingPath = some (stagedWith upload old before.written.flatten)
        rw [fresh.written]
        exact staged
      · change (before.world.files.openWrite upload.stagingPath _).1.position =
          upload.resumeOffset.toNat + before.written.flatten.length
        rw [fresh.written, zero, FileStore.openWrite_position]
        rfl
      · rw [Valid, zero]
        decide

/-- Before the position is set. -/
theorem work_seeking {file : Handle} (allowed : fault = .none ∨ mayFail)
    (waits : before.handler = seekStaging sha256 upload body file) (fresh : Fresh before)
    (leads : before.world.files.entries upload.stagingPath = some file.inode)
    (staged : before.world.files.read upload.stagingPath = some (stagedWith upload old []))
    (stepped : before.step (.work fault) = some after) : Stage upload body old sha256 mayFail after := by
  obtain ⟨result, world, ran, rfl⟩ := Receiving.step_at waits stepped
  have same := serverExec_harmless rfl ran
  rw [← same] at leads staged
  have nothing : before.written.flatten <+: [] := by rw [fresh.written, List.flatten_nil]
  rcases FileOp.exec_seek (serverExec_file ran) with ⟨error, rfl, fails⟩ | ⟨rfl, valid⟩
  · have cause : mayFail ∨ ¬Valid upload :=
      fails.imp allowed.resolve_left fun invalid => Nat.not_lt.mpr invalid.1
    exact .failed rfl (.part nothing List.nil_prefix staged)
      ⟨fresh.session, fresh.asked, fresh.written⟩ (fun invalid => kept_opened invalid staged) cause
  · refine .inserting _ rfl ⟨fresh.session, fresh.asked, fresh.written⟩ ⟨rfl, leads, ?_, ?_, valid⟩
    · change world.files.read upload.stagingPath = some (stagedWith upload old before.written.flatten)
      rw [fresh.written]
      exact staged
    · change upload.resumeOffset.toNat = upload.resumeOffset.toNat + before.written.flatten.length
      rw [fresh.written]
      rfl

/-- Before the session is made. -/
theorem work_inserting {file : Handle} (waits : before.handler = streamUpload sha256 upload body file)
    (fresh : Fresh before) (writing : Writing upload old before file)
    (stepped : before.step (.work fault) = some after) : Stage upload body old sha256 mayFail after := by
  obtain ⟨session, world, ran, rfl⟩ := Receiving.step_at waits stepped
  obtain ⟨rfl, rfl⟩ := Prod.mk.inj (Option.some.inj ran)
  refine .taking _ _ _ file body.chunks rfl ⟨⟨writing.opened, writing.leads, writing.staged,
    writing.position, writing.valid⟩, rfl, rfl, ?_⟩ ⟨?_, ?_⟩
  · change ((before.world.cells.allocate upload.resumeOffset).2.content
      before.world.cells.fresh).bytesTransferred + 0 =
        upload.resumeOffset + .ofNat before.written.flatten.length
    rw [fresh.written]
    simp [SessionCells.allocate]
  · change before.asked = before.written.length
    rw [fresh.asked, fresh.written]
    rfl
  · change body.chunks = before.written ++ body.chunks
    rw [fresh.written, List.nil_append]

/-- Before the next item of the body. -/
theorem work_taking {session : TransferSession} {hasher : Sha256Hasher} {written : UInt64}
    {file : Handle} {rest : List Bytes}
    (waits : before.handler = chunkLoop sha256 upload session body.failure rest hasher written file)
    (streaming : Streaming upload old before session file 0) (between : Between body before rest)
    (stepped : before.step (.work fault) = some after) : Stage upload body old sha256 mayFail after := by
  cases rest with
  | nil =>
    rw [chunkLoop_nil] at waits
    obtain ⟨result, world, ran, rfl⟩ := Receiving.step_at waits stepped
    obtain ⟨-, rfl⟩ := Prod.mk.inj (Option.some.inj ran)
    have whole : body.chunks = before.written := by rw [between.left, List.append_nil]
    have ended : body.chunks.length < before.asked + 1 := by
      rw [whole, between.asked]
      omega
    have part : before.written.flatten <+: body.chunks.flatten := by rw [whole]
    refine .closing ?_ (.exact part streaming.staged) (.inl streaming.valid)
      (.inr (.inl ended))
    change Closes upload (fun reply => Fails reply ∨ Valid upload ∧ before.written = body.chunks)
      (endOfBody sha256 upload body hasher written file)
    unfold endOfBody
    split
    · exact closes_dropSession ((closes_failed (by decide)).mono fun _ fails => .inl fails)
    · exact closes_finish.mono fun _ _ => .inr ⟨streaming.valid, whole.symm⟩
  | cons chunk rest =>
    rw [chunkLoop_cons] at waits
    obtain ⟨result, world, ran, rfl⟩ := Receiving.step_at waits stepped
    obtain ⟨-, rfl⟩ := Prod.mk.inj (Option.some.inj ran)
    refine .checking session hasher written file chunk rest rfl
      (streaming.still rfl rfl rfl rfl fun _ => rfl) ⟨?_, between.left⟩
    change before.asked + 1 = before.written.length + 1
    rw [between.asked]

variable {session : TransferSession} {hasher : Sha256Hasher} {written : UInt64} {file : Handle}
variable {chunk : Bytes} {rest : List Bytes}

/-- The chunks written so far, and a part of the next one, are a part of the body. -/
theorem Taken.part {part : Bytes} (taken : Taken body before chunk rest) (shorter : part <+: chunk) :
    before.written.flatten ++ part <+: body.chunks.flatten := by
  rw [taken.left, List.flatten_append, List.flatten_cons]
  exact (List.prefix_append_right_inj _).mpr (shorter.trans (List.prefix_append _ _))

/-- Chunks before one that is taken are a part of the body. -/
theorem Taken.part_before (taken : Taken body before chunk rest) :
    before.written.flatten <+: body.chunks.flatten := by
  rw [taken.left, List.flatten_append]
  exact List.prefix_append _ _

/-- Before the cancel flag is read. -/
theorem work_checking
    (waits : before.handler = checkChunk sha256 upload body session chunk rest hasher written file)
    (streaming : Streaming upload old before session file 0) (taken : Taken body before chunk rest)
    (stepped : before.step (.work fault) = some after) : Stage upload body old sha256 mayFail after := by
  obtain ⟨cancelled, world, ran, rfl⟩ := Receiving.step_at waits stepped
  obtain ⟨-, rfl⟩ := Prod.mk.inj (Option.some.inj ran)
  cases cancelled with
  | true =>
    refine .closing ?_ (.exact taken.part_before streaming.staged)
      (.inl streaming.valid) (.inr (.inr (.inl (.drop _))))
    refine closes_dropSession (closes_file rfl fun _ => ?_)
    exact (closes_failed (by decide)).mono fun _ fails => .inl fails
  | false =>
    exact .pausing session hasher written file chunk rest rfl
      (streaming.still rfl rfl rfl rfl fun _ => rfl) ⟨taken.asked, taken.left⟩

/-- Before the session is not paused. -/
theorem work_pausing
    (waits : before.handler = pauseChunk sha256 upload body session chunk rest hasher written file)
    (streaming : Streaming upload old before session file 0) (taken : Taken body before chunk rest)
    (stepped : before.step (.work fault) = some after) : Stage upload body old sha256 mayFail after := by
  obtain ⟨result, world, ran, rfl⟩ := Receiving.step_at waits stepped
  obtain ⟨-, rfl⟩ := serverExec_awaitResumed ran
  exact .writing session hasher written file chunk rest rfl
    (streaming.still rfl rfl rfl rfl fun _ => rfl) ⟨taken.asked, taken.left⟩

/-- Before the chunk is written. -/
theorem work_writing (allowed : fault = .none ∨ mayFail)
    (waits : before.handler = writeChunk sha256 upload body session chunk rest hasher written file)
    (streaming : Streaming upload old before session file 0) (taken : Taken body before chunk rest)
    (stepped : before.step (.work fault) = some after) : Stage upload body old sha256 mayFail after := by
  obtain ⟨result, world, ran, rfl⟩ := Receiving.step_at waits stepped
  obtain ⟨-, cells⟩ := serverExec_file_sessions ran
  have reads (part : Bytes) : (before.world.files.write file part).2.read upload.stagingPath =
      some (stagedWith upload old (before.written.flatten ++ part)) := by
    rw [FileStore.read_write _ part streaming.leads streaming.staged, streaming.position,
      stagedWith_append]
  rcases FileOp.exec_write_part (serverExec_file ran) with
    ⟨error, part, shorter, rfl, fails, wrote⟩ | ⟨rfl, wrote⟩
  · have may : mayFail := allowed.resolve_left fails
    have laid : world.files.read upload.stagingPath =
        some (stagedWith upload old (before.written.flatten ++ part)) := by rw [wrote, reads]
    refine .closing (closes_dropSession ?_)
      (.part (List.prefix_append _ _) (taken.part shorter) laid)
      (.inl streaming.valid) (.inl may)
    exact (closes_failed (by decide)).mono fun _ fails => .inl fails
  · have all : (before.written ++ [chunk]).flatten = before.written.flatten ++ chunk := by simp
    refine .counting session hasher written _ chunk rest rfl
      ⟨⟨rfl, ?_, ?_, ?_, streaming.valid⟩, streaming.made,
      streaming.announced, ?_⟩ ⟨?_, ?_⟩
    · change world.files.entries upload.stagingPath = some file.inode
      rw [wrote]
      exact streaming.leads
    · change world.files.read upload.stagingPath =
        some (stagedWith upload old (before.written ++ [chunk]).flatten)
      rw [wrote, all, reads]
    · change (before.world.files.write file chunk).1.position =
        upload.resumeOffset.toNat + (before.written ++ [chunk]).flatten.length
      rw [FileStore.write_position, streaming.position, all, List.length_append, Nat.add_assoc]
    · change (world.cells.content session.cell).bytesTransferred + .ofNat chunk.length =
        upload.resumeOffset + .ofNat (before.written ++ [chunk]).flatten.length
      have counted := streaming.counted
      rw [UInt64.add_zero] at counted
      rw [cells, counted, all, List.length_append, UInt64.ofNat_add, UInt64.add_assoc]
    · change before.asked = (before.written ++ [chunk]).length
      rw [taken.asked, List.length_append, List.length_singleton]
    · change body.chunks = (before.written ++ [chunk]) ++ rest
      rw [taken.left, List.append_assoc, List.singleton_append]

/-- Before the chunk is counted. -/
theorem work_counting
    (waits : before.handler = countChunk sha256 upload body session chunk rest hasher written file)
    (streaming : Streaming upload old before session file (.ofNat chunk.length))
    (between : Between body before rest)
    (stepped : before.step (.work fault) = some after) : Stage upload body old sha256 mayFail after := by
  obtain ⟨result, world, ran, rfl⟩ := Receiving.step_at waits stepped
  obtain ⟨-, rfl⟩ := Prod.mk.inj (Option.some.inj ran)
  refine .taking session _ _ file rest rfl ⟨⟨streaming.opened, streaming.leads, streaming.staged,
    streaming.position, streaming.valid⟩, streaming.made, streaming.announced, ?_⟩ ⟨between.asked, between.left⟩
  change ((before.world.cells.addBytes session.cell (.ofNat chunk.length)).content
    session.cell).bytesTransferred + 0 = upload.resumeOffset + .ofNat before.written.flatten.length
  rw [← streaming.counted]
  simp [SessionCells.addBytes]

/-- A closing operation leaves the staging file as it is, or it is gone. -/
theorem closing_staging {op : ServerOp} {result : op.Result} {world later : ServerWorld}
    (apart : upload.stagingPath ≠ upload.finalPath) (closing : Closing upload op)
    (ran : serverExec world op fault = some (result, later)) :
    later.files.read upload.stagingPath = world.files.read upload.stagingPath ∨
      later.files.read upload.stagingPath = none := by
  cases op with
  | file op =>
    cases op with
    | flush | read => exact .inl (by rw [serverExec_harmless rfl ran])
    | rename source target =>
      obtain ⟨rfl, rfl⟩ := closing
      rcases FileOp.exec_rename (serverExec_file ran) with ⟨error, -, same⟩ | ⟨-, renamed⟩
      · exact .inl (by rw [same])
      · exact .inr (FileStore.read_rename_source apart renamed)
    | remove path =>
      obtain rfl : path = upload.stagingPath := closing
      rcases (FileOp.exec_remove (serverExec_file ran)).1 with same | gone
      · exact .inl (by rw [same])
      · exact .inr (by rw [gone, FileStore.read_remove_self])
    | createDirAll | openWrite | seek | write | writeSome | tryExists => exact closing.elim
  | removeSession transferId => exact .inl (by rw [serverExec_files (fun inner => by simp) ran])
  | insertSession | nextChunk | isCancelled | awaitResumed | addBytes => exact closing.elim

/-- A closing operation is not observed. -/
theorem closing_observe {op : ServerOp} (closing : Closing upload op) (state : Receiving)
    (result : op.Result) : state.observe op result = state := by
  cases op with
  | file op =>
    cases op with
    | flush | read | rename | remove => rfl
    | createDirAll | openWrite | seek | write | writeSome | tryExists => exact closing.elim
  | removeSession => rfl
  | insertSession | nextChunk | isCancelled | awaitResumed | addBytes => exact closing.elim

/-- A cancelled upload closes. -/
theorem Discards.closing {op : ServerOp} {next : op.Result → Handler} {world : ServerWorld}
    (discards : Discards upload (.perform op next) world) : Closing upload op := by
  cases discards with
  | drop => trivial
  | remove => rfl

/-- A cancelled upload goes on giving up, unless its staging file cannot be removed. -/
theorem Discards.work {op : ServerOp} {next : op.Result → Handler} {result : op.Result}
    {world later : ServerWorld} (discards : Discards upload (.perform op next) world)
    (ran : serverExec world op fault = some (result, later)) :
    fault ≠ .none ∨ Discards upload (next result) later := by
  cases discards with
  | drop => exact .inr (.remove _)
  | remove =>
    by_cases steady : fault = .none
    · exact .inr (.gone _ ((FileOp.exec_remove (serverExec_file ran)).2 steady))
    · exact .inl steady

/-- So does one whose session is called. -/
theorem Discards.called {handler : Handler} {world : ServerWorld} (discards : Discards upload handler world)
    (cell : Nat) (call : SessionCall) : Discards upload handler (world.call cell call) := by
  cases discards with
  | drop => exact .drop _
  | remove => exact .remove _
  | gone _ removed => exact .gone _ removed

/-- Past the loop. -/
theorem work_closing (apart : upload.stagingPath ≠ upload.finalPath) (allowed : fault = .none ∨ mayFail)
    (closes : Closes upload (fun reply => Fails reply ∨ Valid upload ∧ before.written = body.chunks)
      before.handler)
    (staged : Staged upload body old before) (sought : Valid upload ∨ Stuck upload old before)
    (cause : mayFail ∨ body.chunks.length < before.asked ∨
      Discards upload before.handler before.world ∨ ¬Valid upload)
    (stepped : before.step (.work fault) = some after) : Stage upload body old sha256 mayFail after := by
  obtain ⟨op, next, waits⟩ := Receiving.step_work stepped
  obtain ⟨result, world, ran, rfl⟩ := Receiving.step_at waits stepped
  have valid : Valid upload := sought.resolve_right fun stuck => by
    obtain ⟨reply, done⟩ := stuck.ended
    cases waits.symm.trans done
  rw [waits] at closes cause
  obtain ⟨closing, later⟩ := closes
  rw [closing_observe closing]
  refine .closing (later result) ?_ (.inl valid) ?_
  · intro bytes reads
    rcases closing_staging apart closing ran with same | gone
    · exact staged bytes (same.symm.trans reads)
    · rw [gone] at reads
      cases reads
  · rcases cause with may | ended | discards | invalid
    · exact .inl may
    · exact .inr (.inl ended)
    · rcases discards.work ran with fails | goesOn
      · exact .inl (allowed.resolve_left fails)
      · exact .inr (.inr (.inl goesOn))
    · exact .inr (.inr (.inr invalid))

/-- A handler that closes waits at no operation of another kind. -/
theorem Closes.not_at {ends : Option Response → Prop} {kind : ServerOp → Bool}
    (other : ∀ op, Closing upload op → kind op = false) {handler : Handler}
    (closes : Closes upload ends handler) : ¬handler.At kind := by
  cases handler with
  | done reply => exact id
  | perform op next =>
    intro waits
    exact absurd ((other op closes.1).symm.trans waits) Bool.false_ne_true

/-- Chunks that are all written so far are a part of the body. -/
theorem Between.part {state : Receiving} (between : Between body state rest) :
    state.written.flatten <+: body.chunks.flatten := by
  rw [between.left, List.flatten_append]
  exact List.prefix_append _ _

/-- At any time the staging file holds what has been written over what was staged before. -/
theorem Stage.staged {state : Receiving} (stage : Stage upload body old sha256 mayFail state) :
    Staged upload body old state := by
  cases stage with
  | entered waits fresh untouched => exact .untouched fresh.written untouched
  | opening waits fresh untouched => exact .untouched fresh.written untouched
  | seeking file waits fresh leads staged =>
    refine .part ?_ List.nil_prefix staged
    rw [fresh.written, List.flatten_nil]
  | inserting file waits fresh writing =>
    refine .exact ?_ writing.staged
    rw [fresh.written]
    exact List.nil_prefix
  | taking _ _ _ _ _ waits streaming between => exact .exact between.part streaming.staged
  | checking _ _ _ _ _ _ waits streaming taken => exact .exact taken.part_before streaming.staged
  | pausing _ _ _ _ _ _ waits streaming taken => exact .exact taken.part_before streaming.staged
  | writing _ _ _ _ _ _ waits streaming taken => exact .exact taken.part_before streaming.staged
  | counting _ _ _ _ _ _ waits streaming between => exact .exact between.part streaming.staged
  | closing closes staged sought cause => exact staged

/-- An upload without a file offset to start from never gets to its session. -/
theorem Stage.stuck {state : Receiving} (stage : Stage upload body old sha256 mayFail state)
    (invalid : ¬Valid upload) : Fresh state := by
  cases stage with
  | entered waits fresh untouched => exact fresh
  | opening waits fresh untouched => exact fresh
  | seeking file waits fresh leads staged => exact fresh
  | inserting file waits fresh writing => exact fresh
  | taking _ _ _ _ _ waits streaming between => exact absurd streaming.valid invalid
  | checking _ _ _ _ _ _ waits streaming taken => exact absurd streaming.valid invalid
  | pausing _ _ _ _ _ _ waits streaming taken => exact absurd streaming.valid invalid
  | writing _ _ _ _ _ _ waits streaming taken => exact absurd streaming.valid invalid
  | counting _ _ _ _ _ _ waits streaming between => exact absurd streaming.valid invalid
  | closing closes staged sought cause => exact (sought.resolve_left invalid).toFresh

/-- Nor does it write. -/
theorem Stage.kept {state : Receiving} (stage : Stage upload body old sha256 mayFail state)
    (invalid : ¬Valid upload) : Kept upload old state := by
  cases stage with
  | entered waits fresh untouched => exact .inl untouched
  | opening waits fresh untouched => exact .inl untouched
  | seeking file waits fresh leads staged => exact kept_opened invalid staged
  | inserting file waits fresh writing => exact absurd writing.valid invalid
  | taking _ _ _ _ _ waits streaming between => exact absurd streaming.valid invalid
  | checking _ _ _ _ _ _ waits streaming taken => exact absurd streaming.valid invalid
  | pausing _ _ _ _ _ _ waits streaming taken => exact absurd streaming.valid invalid
  | writing _ _ _ _ _ _ waits streaming taken => exact absurd streaming.valid invalid
  | counting _ _ _ _ _ _ waits streaming between => exact absurd streaming.valid invalid
  | closing closes staged sought cause => exact (sought.resolve_left invalid).kept

end

/-! ## Runs -/

section

variable {sha256 : Sha256} {upload : Upload} {body : Body} {old : Option Bytes} {mayFail : Prop}
variable {before after : Receiving}

/-- A call on the session leaves the handler where it is. -/
theorem stage_call {call : SessionCall} (stage : Stage upload body old sha256 mayFail before)
    (stepped : before.step (.call call) = some after) : Stage upload body old sha256 mayFail after := by
  obtain ⟨session, made, rfl⟩ := Receiving.step_call stepped
  have bytes (cell : Nat) := before.world.cells.call_bytes session.cell cell call
  have never {P : Prop} (fresh : Fresh before) : P := by
    have none := fresh.session
    rw [made] at none
    cases none
  cases stage with
  | entered waits fresh untouched => exact never fresh
  | opening waits fresh untouched => exact never fresh
  | seeking file waits fresh leads staged => exact never fresh
  | inserting file waits fresh writing => exact never fresh
  | taking _ _ _ _ _ waits streaming between =>
    exact .taking _ _ _ _ _ waits (streaming.still rfl rfl rfl rfl bytes) ⟨between.asked, between.left⟩
  | checking _ _ _ _ _ _ waits streaming taken =>
    exact .checking _ _ _ _ _ _ waits (streaming.still rfl rfl rfl rfl bytes) ⟨taken.asked, taken.left⟩
  | pausing _ _ _ _ _ _ waits streaming taken =>
    exact .pausing _ _ _ _ _ _ waits (streaming.still rfl rfl rfl rfl bytes) ⟨taken.asked, taken.left⟩
  | writing _ _ _ _ _ _ waits streaming taken =>
    exact .writing _ _ _ _ _ _ waits (streaming.still rfl rfl rfl rfl bytes) ⟨taken.asked, taken.left⟩
  | counting _ _ _ _ _ _ waits streaming between =>
    exact .counting _ _ _ _ _ _ waits (streaming.still rfl rfl rfl rfl bytes)
      ⟨between.asked, between.left⟩
  | closing closes staged sought cause =>
    refine .closing closes staged (.inl (sought.resolve_right fun stuck => never stuck.toFresh)) ?_
    rcases cause with may | ended | discards | invalid
    · exact .inl may
    · exact .inr (.inl ended)
    · exact .inr (.inr (.inl (discards.called _ _)))
    · exact .inr (.inr (.inr invalid))

/-- One move keeps an upload in a stage. -/
theorem stage_step {move : ReceivingMove} (apart : upload.stagingPath ≠ upload.finalPath)
    (allowed : Unfailing before move ∨ mayFail) (stage : Stage upload body old sha256 mayFail before)
    (stepped : before.step move = some after) : Stage upload body old sha256 mayFail after := by
  cases move with
  | call call => exact stage_call stage stepped
  | work fault =>
    cases stage with
    | entered waits fresh untouched => exact work_entered allowed waits fresh untouched stepped
    | opening waits fresh untouched => exact work_opening allowed waits fresh untouched stepped
    | seeking file waits fresh leads staged =>
      exact work_seeking allowed waits fresh leads staged stepped
    | inserting file waits fresh writing => exact work_inserting waits fresh writing stepped
    | taking _ _ _ _ _ waits streaming between => exact work_taking waits streaming between stepped
    | checking _ _ _ _ _ _ waits streaming taken => exact work_checking waits streaming taken stepped
    | pausing _ _ _ _ _ _ waits streaming taken => exact work_pausing waits streaming taken stepped
    | writing _ _ _ _ _ _ waits streaming taken =>
      exact work_writing allowed waits streaming taken stepped
    | counting _ _ _ _ _ _ waits streaming between =>
      exact work_counting waits streaming between stepped
    | closing closes staged sought cause =>
      exact work_closing apart allowed closes staged sought cause stepped

/-- Every move is possible in a run in which operations may fail. -/
def Anyhow (_ : Receiving) (_ : ReceivingMove) : Prop := True

instance : ∀ state move, Decidable (Anyhow state move) := fun _ _ => .isTrue trivial

variable {paths : StoragePaths} {request : TransferRequest} {world : ServerWorld} {reached : Receiving}

/-- The staging file of an accepted upload is not its final one. -/
theorem accepted_apart
    (accepted : acceptRequest paths request.transferId request.headers = some (.ok upload)) :
    upload.stagingPath ≠ upload.finalPath := by
  obtain ⟨-, staging, final, -⟩ := acceptRequest_ok accepted
  rw [staging, final]
  exact staging_ne_received paths _ _

/-- A run of an accepted upload is in a stage at any time. -/
theorem stage_reached {allowed : Receiving → ReceivingMove → Prop}
    (permits : ∀ state move, allowed state move → Unfailing state move ∨ mayFail)
    (accepted : acceptRequest paths request.transferId request.headers = some (.ok upload))
    (path : Machine.Reaches Receiving.step allowed (.start sha256 paths request world) reached) :
    Stage upload request.body (world.files.read upload.stagingPath) sha256 mayFail reached := by
  have entered : Stage upload request.body (world.files.read upload.stagingPath) sha256 mayFail
      (.start sha256 paths request world) :=
    .entered (receiveTransfer_accepted accepted) ⟨rfl, rfl, rfl⟩ rfl
  refine path.invariant entered fun state move next stage permitted stepped => ?_
  exact stage_step (accepted_apart accepted) (permits state move permitted) stage stepped

/-- A request that is not accepted is answered at once, with none of the success class. -/
theorem refused_answered (sha256 : Sha256)
    (refused : ∀ upload, acceptRequest paths request.transferId request.headers ≠ some (.ok upload)) :
    ∃ reply, receiveTransfer sha256 paths request = .done reply ∧ Fails reply := by
  unfold receiveTransfer
  cases accepted : acceptRequest paths request.transferId request.headers with
  | none => exact ⟨none, rfl, fun response none => absurd none (Option.some_ne_none response).symm⟩
  | some outcome =>
    cases outcome with
    | ok upload => exact absurd accepted (refused upload)
    | error response =>
      refine ⟨some response, rfl, ?_⟩
      rintro other ⟨⟩
      rw [acceptRequest_error accepted]
      decide

/-- Nothing moves then. -/
theorem refused_reached {allowed : Receiving → ReceivingMove → Prop}
    (refused : ∀ upload, acceptRequest paths request.transferId request.headers ≠ some (.ok upload))
    (path : Machine.Reaches Receiving.step allowed (.start sha256 paths request world) reached) :
    reached = .start sha256 paths request world := by
  obtain ⟨reply, done, -⟩ := refused_answered sha256 refused
  induction path with
  | refl => rfl
  | tail _ last ih =>
    subst ih
    obtain ⟨move, -, stepped⟩ := last
    cases move with
    | call call =>
      obtain ⟨session, made, -⟩ := Receiving.step_call stepped
      cases made
    | work fault =>
      obtain ⟨op, next, waits⟩ := Receiving.step_work stepped
      cases done.symm.trans waits

end

/-! ## Runs without a fault -/

section

variable {sha256 : Sha256} {upload : Upload} {body : Body} {session : TransferSession}

/-- One run leads to the other, and no file operation fails. -/
abbrev Runs : Receiving → Receiving → Prop := Machine.Reaches Receiving.step Unfailing

/-- A handler performs its next operation without a fault. -/
theorem runs_work {state : Receiving} {op : ServerOp} {next : op.Result → Handler}
    (waits : state.handler = .perform op next) (result : op.Result) (world : ServerWorld)
    (ran : serverExec state.world op .none = some (result, world)) :
    Runs state ({ state with handler := next result, world }.observe op result) := by
  have stepped : state.step (.work .none) =
      some ({ state with handler := next result, world }.observe op result) := by
    unfold Receiving.step
    rw [waits]
    simp only [ran, Option.map_some]
  exact .single ⟨.work .none, rfl, stepped⟩

/-- The session that the handler has made is neither paused nor cancelled. -/
structure Calm (state : Receiving) (session : TransferSession) : Prop where
  made : state.session = some session
  running : state.world.cells.isPaused session.cell = false
  wanted : state.world.cells.isCancelled session.cell = false

/-- While its session is not paused a handler writes the chunk that it has checked. -/
theorem runs_write {state : Receiving} {chunk : Bytes} {rest : List Bytes} {hasher : Sha256Hasher}
    {written : UInt64} {file : Handle}
    (waits : state.handler = pauseChunk sha256 upload body session chunk rest hasher written file)
    (running : state.world.cells.isPaused session.cell = false) : ∃ later moved, Runs state later ∧
      later.handler = countChunk sha256 upload body session chunk rest hasher written moved ∧
      later.session = state.session ∧ later.world.cells = state.world.cells ∧
      later.written = state.written ++ [chunk] := by
  have ran : serverExec state.world (.awaitResumed session) .none = some ((), state.world) := by
    simp [serverExec, running]
  let resumed : Receiving :=
    { state with handler := writeChunk sha256 upload body session chunk rest hasher written file }
  have resumes : Runs state resumed := runs_work waits () state.world ran
  have writes := runs_work (show resumed.handler = _ from rfl) (.ok (state.world.files.write file chunk).1)
    { state.world with files := (state.world.files.write file chunk).2 } rfl
  exact ⟨_, (state.world.files.write file chunk).1, resumes.trans writes, rfl, rfl, rfl, rfl⟩

/-- A chunk is taken, written and counted while the session is calm. -/
theorem runs_chunk {state : Receiving} {chunk : Bytes} {rest : List Bytes} {hasher : Sha256Hasher}
    {written : UInt64} {file : Handle}
    (waits : state.handler =
      chunkLoop sha256 upload session body.failure (chunk :: rest) hasher written file)
    (calm : Calm state session) : ∃ later moved, Runs state later ∧ Calm later session ∧
      later.handler = chunkLoop sha256 upload session body.failure rest (hasher.update chunk)
        (written + .ofNat chunk.length) moved ∧
      later.written = state.written ++ [chunk] := by
  let taken : Receiving :=
    { state with
      handler := checkChunk sha256 upload body session chunk rest hasher written file
      asked := state.asked + 1 }
  have takes : Runs state taken := runs_work waits () state.world rfl
  let checked : Receiving :=
    { taken with handler := pauseChunk sha256 upload body session chunk rest hasher written file }
  have checks : Runs taken checked := by
    have ran : serverExec taken.world (.isCancelled session) .none = some (false, taken.world) := by
      simp [serverExec, taken, calm.wanted]
    have asks : taken.handler = .perform (.isCancelled session) _ := rfl
    exact runs_work asks false taken.world ran
  obtain ⟨wrote, moved, writes, counting, made, cells, appended⟩ :=
    runs_write (show checked.handler = _ from rfl) calm.running
  let world : ServerWorld :=
    { wrote.world with cells := wrote.world.cells.addBytes session.cell (.ofNat chunk.length) }
  have counts := runs_work counting () world rfl
  refine ⟨_, moved, takes.trans (checks.trans (writes.trans counts)), ⟨?_, ?_, ?_⟩, rfl, appended⟩
  · exact made.trans calm.made
  · change (wrote.world.cells.addBytes session.cell _).isPaused session.cell = false
    rw [SessionCells.isPaused_addBytes, cells]
    exact calm.running
  · change (wrote.world.cells.addBytes session.cell _).isCancelled session.cell = false
    rw [SessionCells.isCancelled_addBytes, cells]
    exact calm.wanted

/-- The handler waits for the next item of the body. -/
def takes : ServerOp → Bool
  | .nextChunk => true
  | _ => false

/-- The loop reaches the end of the body. -/
theorem runs_loop {state : Receiving} {rest : List Bytes} {hasher : Sha256Hasher} {written : UInt64}
    {file : Handle}
    (waits : state.handler = chunkLoop sha256 upload session body.failure rest hasher written file)
    (calm : Calm state session) :
    ∃ later, Runs state later ∧ later.handler.At takes ∧ later.written = state.written ++ rest := by
  induction rest generalizing state hasher written file with
  | nil =>
    refine ⟨state, .refl, ?_, (List.append_nil _).symm⟩
    rw [waits, chunkLoop_nil]
    rfl
  | cons chunk rest ih =>
    obtain ⟨middle, moved, first, still, goesOn, appended⟩ := runs_chunk waits calm
    obtain ⟨later, others, ended, all⟩ := ih goesOn still
    refine ⟨later, first.trans others, ended, ?_⟩
    rw [all, appended, List.append_assoc, List.singleton_append]

/-- A handler whose staging file is open makes its session. -/
theorem runs_insert {state : Receiving} {file : Handle}
    (waits : state.handler = streamUpload sha256 upload body file) : ∃ streaming session,
      Runs state streaming ∧ Calm streaming session ∧
      streaming.handler = chunkLoop sha256 upload session body.failure body.chunks .new
        upload.resumeOffset file ∧
      streaming.written = state.written := by
  obtain ⟨running, wanted⟩ := state.world.cells.allocate_calm upload.resumeOffset
  exact ⟨_, _, runs_work waits _ _ rfl, ⟨rfl, running, wanted⟩, rfl, rfl⟩

/-- An accepted upload makes its session, if its offset is a file offset. -/
theorem runs_start {paths : StoragePaths} {request : TransferRequest}
    (accepted : acceptRequest paths request.transferId request.headers = some (.ok upload))
    (valid : Valid upload) (world : ServerWorld) : ∃ streaming session file,
      Runs (.start sha256 paths request world) streaming ∧ Calm streaming session ∧
      streaming.handler = chunkLoop sha256 upload session request.body.failure request.body.chunks .new
        upload.resumeOffset file ∧
      streaming.written = [] := by
  let start : Receiving := .start sha256 paths request world
  have waits : start.handler = enterUpload sha256 upload request.body :=
    receiveTransfer_accepted accepted
  let entered : Receiving := { start with handler := openStaging sha256 upload request.body }
  have enters : Runs start entered := runs_work waits (.ok ()) world rfl
  let opened := world.files.openWrite upload.stagingPath (upload.resumeOffset = 0)
  let streams : Receiving :=
    { entered with
      handler := streamUpload sha256 upload request.body opened.1
      world := { world with files := opened.2 }
      file := some opened.1 }
  have opens : Runs entered { streams with
      handler := if upload.resumeOffset > 0 then seekStaging sha256 upload request.body opened.1
        else streams.handler } := by
    have asks : entered.handler =
        .perform (.file (.openWrite upload.stagingPath (upload.resumeOffset = 0))) _ := rfl
    exact runs_work asks (.ok opened.1) _ rfl
  by_cases resumed : upload.resumeOffset > 0
  · rw [if_pos resumed] at opens
    let positioned : Handle := ⟨opened.1.inode, upload.resumeOffset.toNat⟩
    let sought : Receiving :=
      { streams with
        handler := streamUpload sha256 upload request.body positioned
        file := some positioned }
    let seeking : Receiving :=
      { streams with handler := seekStaging sha256 upload request.body opened.1 }
    have seeks : Runs seeking sought := by
      have asks : seeking.handler =
          .perform (.file (.seek opened.1 upload.resumeOffset.toNat)) _ := rfl
      refine runs_work asks (.ok positioned) seeking.world ?_
      simp only [serverExec, FileOp.exec, FileOp.carryOut_seek opened.1 valid, positioned]
    obtain ⟨streaming, session, inserts, calm, loops, nothing⟩ :=
      runs_insert (show sought.handler = _ from rfl)
    exact ⟨streaming, session, _, enters.trans (opens.trans (seeks.trans inserts)), calm, loops, nothing⟩
  · rw [if_neg resumed] at opens
    obtain ⟨streaming, session, inserts, calm, loops, nothing⟩ :=
      runs_insert (show streams.handler = _ from rfl)
    exact ⟨streaming, session, _, enters.trans (opens.trans inserts), calm, loops, nothing⟩

end

end FileDrop.ReceiveStages
