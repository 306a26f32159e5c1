import FileDrop.Verif.AnnouncedSize
import FileDrop.Verif.ReceiveStages

/-!
# Uploads past their announced size

The chunk loop writes whatever its peer sends from the offset on, and looks at the announced size only
when the body has ended. So an upload stays within its announced size, at every operation of the loop and
in its staging file, exactly when its offset and its body do, or when it never gets to the loop because its
offset is none that a file has.
-/
namespace FileDrop.WithinSize
open FileDrop Effects Effects.Program Unix Resume Isolation AnnouncedSize ReceiveStages

/-! ## What an upload keeps to -/

/-- The operations of the chunk loop but the one that counts a written chunk. -/
def settled : ServerOp → Bool
  | .nextChunk | .isCancelled _ | .awaitResumed _ | .file (.write ..) => true
  | _ => false

/-- An upload is within its announced size: in the loop the session has counted up to the position of
the next write, which is not past the announced size, and the staging file is no longer than it was or
was announced. -/
structure Within (paths : StoragePaths) (request : TransferRequest) (before : ServerWorld)
    (state : Receiving) : Prop where
  counted : state.handler.At settled → ∃ session file, state.session = some session ∧
    state.file = some file ∧
    (state.world.cells.content session.cell).bytesTransferred.toNat = file.position ∧
    file.position ≤ session.totalBytes.toNat
  staged : partLength (stagingPath paths request.transferId) state.world ≤
    max (partLength (stagingPath paths request.transferId) before)
      ((announcedSize request).getD 0).toNat

/-- A request stays within its announced size, whatever fails and whenever its session is called. -/
def StaysWithin (sha256 : Sha256) (paths : StoragePaths) (request : TransferRequest)
    (world : ServerWorld) : Prop :=
  ∀ reached, Machine.Reaches Receiving.step Anyhow (.start sha256 paths request world) reached →
    Within paths request world reached

/-- A request is accepted as an upload. -/
def Accepted (paths : StoragePaths) (request : TransferRequest) : Prop :=
  ∃ upload, acceptRequest paths request.transferId request.headers = some (.ok upload)

/-! ## What the stages say -/

section

variable {sha256 : Sha256} {upload : Upload} {body : Body} {old : Option Bytes} {mayFail : Prop}
variable {state : Receiving}

/-- What is laid over what was staged before is no longer than that, or reaches as far as the body. -/
theorem stagedWith_length_le {sent : Bytes} (part : sent <+: body.chunks.flatten) :
    (stagedWith upload old sent).length ≤
      max (old.getD []).length (upload.resumeOffset.toNat + body.chunks.flatten.length) := by
  have shorter := part.length_le
  have base : (if upload.resumeOffset = 0 then [] else old.getD []).length ≤ (old.getD []).length := by
    split
    · exact Nat.zero_le _
    · exact Nat.le_refl _
  unfold stagedWith
  by_cases empty : sent = []
  · rw [empty, overlay_nil]
    omega
  · rw [overlay_length_of_ne_nil _ _ empty]
    omega

/-- So is the staging file. -/
theorem staged_length_le (staged : Staged upload body old state) :
    partLength upload.stagingPath state.world ≤
      max (old.getD []).length (upload.resumeOffset.toNat + body.chunks.flatten.length) := by
  unfold partLength
  cases found : state.world.files.read upload.stagingPath with
  | none => exact Nat.zero_le _
  | some bytes =>
    rcases staged bytes found with ⟨-, rfl⟩ | ⟨sent, -, part, rfl⟩
    · exact Nat.le_max_left _ _
    · exact stagedWith_length_le part

/-- A staging file that is kept is no longer than it was. -/
theorem kept_length_le (kept : Kept upload old state) :
    partLength upload.stagingPath state.world ≤ (old.getD []).length := by
  unfold partLength
  rcases kept with same | ⟨-, empty⟩
  · rw [same]
  · rw [empty]
    exact Nat.zero_le _

/-- No closing operation is one of the loop. -/
theorem closing_not_settled (op : ServerOp) (closing : Closing upload op) : settled op = false := by
  cases op with
  | file op =>
    cases op with
    | write => exact closing.elim
    | createDirAll | openWrite | seek | writeSome | flush | tryExists | read | rename | remove => rfl
  | nextChunk | isCancelled | awaitResumed => exact closing.elim
  | insertSession | removeSession | addBytes => rfl

/-- An upload that waits in its loop streams, and has written a part of its body. -/
theorem stage_settled (stage : Stage upload body old sha256 mayFail state)
    (waits : state.handler.At settled) : ∃ session file, Streaming upload old state session file 0 ∧
      state.written.flatten <+: body.chunks.flatten := by
  have never {P : Prop} {handler : Handler} (here : state.handler = handler)
      (other : ¬handler.At settled) : P := absurd (here ▸ waits) other
  cases stage with
  | entered here => exact never here Bool.false_ne_true
  | opening here => exact never here Bool.false_ne_true
  | seeking file here => exact never here Bool.false_ne_true
  | inserting file here => exact never here Bool.false_ne_true
  | taking session _ _ file _ here streaming between => exact ⟨session, file, streaming, between.part⟩
  | checking session _ _ file _ _ here streaming taken =>
    exact ⟨session, file, streaming, taken.part_before⟩
  | pausing session _ _ file _ _ here streaming taken =>
    exact ⟨session, file, streaming, taken.part_before⟩
  | writing session _ _ file _ _ here streaming taken =>
    exact ⟨session, file, streaming, taken.part_before⟩
  | counting _ _ _ _ _ _ here => exact never here Bool.false_ne_true
  | closing closes => exact absurd waits (closes.not_at closing_not_settled)

/-- The session of an upload that streams within 64 bits has counted up to its position. -/
theorem streaming_counts {session : TransferSession} {file : Handle}
    (streaming : Streaming upload old state session file 0)
    (fits : file.position < 2 ^ 64) :
    (state.world.cells.content session.cell).bytesTransferred.toNat = file.position := by
  have counted := streaming.counted
  have position := streaming.position
  rw [UInt64.add_zero] at counted
  rw [counted, UInt64.toNat_add, UInt64.toNat_ofNat']
  omega

end

/-! ## Within the announced size -/

section

variable {sha256 : Sha256} {paths : StoragePaths} {request : TransferRequest} {world : ServerWorld}
variable {upload : Upload} {reached : Receiving}

/-- What an accepted upload is, in the words of its request. -/
theorem accepted_words
    (accepted : acceptRequest paths request.transferId request.headers = some (.ok upload)) :
    upload.stagingPath = stagingPath paths request.transferId ∧
      announcedSize request = some upload.totalSize ∧
      upload.resumeOffset.toNat = offset request := by
  obtain ⟨-, staging, -, -, size, -, resumes⟩ := acceptRequest_ok accepted
  exact ⟨staging, size, congrArg UInt64.toNat resumes⟩

/-- An upload whose offset and body are within the announced size stays within it. -/
theorem accepted_within
    (accepted : acceptRequest paths request.transferId request.headers = some (.ok upload))
    (fits : offset request + bodyLength request ≤ ((announcedSize request).getD 0).toNat)
    (path : Machine.Reaches Receiving.step Anyhow (.start sha256 paths request world) reached) :
    Within paths request world reached := by
  obtain ⟨located, size, start⟩ := accepted_words accepted
  have stage : Stage upload request.body (world.files.read upload.stagingPath) sha256 True reached :=
    stage_reached (fun _ _ _ => .inr trivial) accepted path
  rw [size, Option.getD_some, ← start] at fits
  have reaches : upload.resumeOffset.toNat + request.body.chunks.flatten.length ≤
    upload.totalSize.toNat := fits
  constructor
  · intro waits
    obtain ⟨session, file, streaming, part⟩ := stage_settled stage waits
    have shorter := part.length_le
    have position := streaming.position
    have bound := upload.totalSize.toNat_lt
    refine ⟨session, file, streaming.made, streaming.opened, ?_, ?_⟩
    · exact streaming_counts streaming (by omega)
    · rw [streaming.announced]
      omega
  · have length := staged_length_le stage.staged
    rw [← located, size, Option.getD_some]
    change _ ≤ max ((world.files.read upload.stagingPath).getD []).length _
    omega

/-- An upload whose offset is none that a file has writes nothing. -/
theorem invalid_within
    (accepted : acceptRequest paths request.transferId request.headers = some (.ok upload))
    (invalid : offsetLimit ≤ offset request)
    (path : Machine.Reaches Receiving.step Anyhow (.start sha256 paths request world) reached) :
    Within paths request world reached := by
  obtain ⟨located, -, start⟩ := accepted_words accepted
  have stage : Stage upload request.body (world.files.read upload.stagingPath) sha256 True reached :=
    stage_reached (fun _ _ _ => .inr trivial) accepted path
  have stuck : ¬Valid upload := by
    rw [Valid, start]
    exact Nat.not_lt.mpr invalid
  constructor
  · intro waits
    obtain ⟨session, file, streaming, -⟩ := stage_settled stage waits
    exact absurd streaming.valid stuck
  · have kept := kept_length_le (stage.kept stuck)
    rw [← located]
    exact kept.trans (Nat.le_max_left _ _)

/-- A request that is not accepted does nothing. -/
theorem refused_within (refused : ¬Accepted paths request)
    (path : Machine.Reaches Receiving.step Anyhow (.start sha256 paths request world) reached) :
    Within paths request world reached := by
  have never (upload : Upload) :
      acceptRequest paths request.transferId request.headers ≠ some (.ok upload) :=
    fun accepted => refused ⟨upload, accepted⟩
  obtain ⟨reply, done, -⟩ := refused_answered sha256 never
  rw [refused_reached never path]
  refine ⟨fun waits => ?_, Nat.le_max_left _ _⟩
  have finished : (Receiving.start sha256 paths request world).handler = .done reply := done
  rw [finished] at waits
  exact waits.elim

/-- An accepted upload that stays within its announced size has its offset and its body within it: from a
file offset the loop gets to the end of the body. -/
theorem within_fits (accepted : Accepted paths request) (valid : offset request < offsetLimit)
    (within : StaysWithin sha256 paths request world) :
    offset request + bodyLength request ≤ ((announcedSize request).getD 0).toNat := by
  obtain ⟨upload, accepted⟩ := accepted
  obtain ⟨-, size, start⟩ := accepted_words accepted
  obtain ⟨streaming, session, file, first, calm, loops, nothing⟩ :=
    runs_start accepted (show upload.resumeOffset.toNat < offsetLimit by rwa [start]) world
  obtain ⟨later, others, ended, all⟩ := runs_loop loops calm
  have path : Runs (.start sha256 paths request world) later := first.trans others
  have waits : later.handler.At settled := by
    cases here : later.handler with
    | done reply =>
      rw [here] at ended
      exact ended.elim
    | perform op next =>
      rw [here] at ended
      cases op with
      | nextChunk => rfl
      | file | insertSession | removeSession | isCancelled | awaitResumed | addBytes => cases ended
  have stage : Stage upload request.body (world.files.read upload.stagingPath) sha256 True later :=
    stage_reached (fun _ _ _ => .inr trivial) accepted path
  obtain ⟨made, moved, streams, -⟩ := stage_settled stage waits
  obtain ⟨counted, -⟩ := within later (path.mono fun _ _ _ => trivial)
  obtain ⟨other, handle, sameSession, sameFile, -, bound⟩ := counted waits
  obtain rfl := Option.some.inj (streams.made.symm.trans sameSession)
  obtain rfl := Option.some.inj (streams.opened.symm.trans sameFile)
  have position := streams.position
  rw [all, nothing, List.nil_append, start] at position
  rw [streams.announced, position] at bound
  rw [size]
  exact bound

/-- A request stays within its announced size exactly when it is not accepted, its offset is none that a
file has, or its offset and its body are within the size. -/
theorem within_size (sha256 : Sha256) (paths : StoragePaths) (request : TransferRequest)
    (world : ServerWorld) : StaysWithin sha256 paths request world ↔
      (Accepted paths request → offset request < offsetLimit →
        offset request + bodyLength request ≤ ((announcedSize request).getD 0).toNat) := by
  constructor
  · intro within accepted valid
    exact within_fits accepted valid within
  · intro fits reached path
    by_cases accepted : Accepted paths request
    · obtain ⟨upload, accepts⟩ := accepted
      by_cases valid : offset request < offsetLimit
      · exact accepted_within accepts (fits ⟨upload, accepts⟩ valid) path
      · exact invalid_within accepts (Nat.le_of_not_lt valid) path
    · exact refused_within accepted path

end

/-- Create the directory, open the file, make the session, and take, check, write and count three
chunks. -/
def threeChunks : List ReceivingMove := List.replicate 18 (.work .none)

/-- Where an upload is in its file, and how long it was to be. -/
def position (state : Receiving) : Bool × Option Nat × Option UInt64 :=
  (state.handler.At settled, state.file.map (·.position), state.session.map (·.totalBytes))

/-- A peer may send three bytes where it has announced two. -/
theorem within_size_broken : ¬∀ (sha256 : Sha256) (paths : StoragePaths) (request : TransferRequest)
    (world : ServerWorld), StaysWithin sha256 paths request world := by
  intro always
  have runs : (Machine.run Receiving.step Anyhow threeChunks (.start (fun _ => []) samplePaths
      (sampleRequest none [[1], [2], [3]]) emptyServer)).map position =
        some (true, some 3, some 2) := by
    decide +kernel
  obtain ⟨reached, ran, here⟩ := Option.map_eq_some_iff.mp runs
  obtain ⟨waits, rest⟩ := Prod.mk.inj here
  obtain ⟨writes, announces⟩ := Prod.mk.inj rest
  have path := Machine.reaches_of_run ran
  obtain ⟨session, file, made, opened, -, bound⟩ :=
    (always _ _ _ _ reached path).counted (of_decide_eq_true waits)
  rw [opened] at writes
  rw [made] at announces
  have three : file.position = 3 := Option.some.inj writes
  have two : session.totalBytes = 2 := Option.some.inj announces
  rw [three, two] at bound
  exact absurd bound (by decide)

end FileDrop.WithinSize
