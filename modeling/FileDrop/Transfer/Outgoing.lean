import FileDrop.Foundation.Machine
import FileDrop.Transfer.Client

/-!
# The outgoing body

The body of a request is a stream over a `ProgressReader`: a poll of the source file that gives bytes
counts them in the session and hands them on. Where the file stands after it was opened and sought is where
the first poll reads. How many bytes a poll gives is the file's choice, and what the stream makes of them is
a chunk; it ends with the first poll that finds no byte left.
-/
namespace FileDrop

open Effects Unix

/-! ## The source file -/

/-- A file on the sender's disk; where it ends is a file offset. -/
structure SourceFile where
  content : Bytes
  sized : content.length < offsetLimit

/-- The size of a file is a `u64`. -/
theorem SourceFile.size_lt (source : SourceFile) : source.content.length < 2 ^ 64 := by
  have sized := source.sized
  unfold offsetLimit at sized
  omega

/-- A read, when the file holds this content: so many bytes as far as it has them, and one at least. -/
def SourceHandle.read (file : SourceHandle) (content : Bytes) (count : Nat) : Bytes × SourceHandle :=
  let read := (content.drop file.position).take (max 1 count)
  (read, { file with position := file.position + read.length })

/-- What is read and what is left after it is what was left. -/
theorem SourceHandle.read_left (file : SourceHandle) (content : Bytes) (count : Nat) :
    (file.read content count).1 ++ content.drop (file.read content count).2.position =
      content.drop file.position := by
  have part : (file.read content count).1 <+: content.drop file.position := List.take_prefix _ _
  have split := List.prefix_iff_eq_append.mp part
  rw [List.drop_drop] at split
  exact split

/-- Only the end of a file gives no byte. -/
theorem SourceHandle.read_eq_nil {file : SourceHandle} {content : Bytes} {count : Nat}
    (nothing : (file.read content count).1 = []) : content.drop file.position = [] := by
  rcases List.take_eq_nil_iff.mp nothing with zero | ended
  · omega
  · exact ended

/-! ## Reading the body -/

/-- What the open file answers to one poll. -/
inductive FilePoll where
  | pending
  | failed
  /-- So many bytes, as far as the file has them. -/
  | ready (count : Nat)
  deriving DecidableEq, Repr

/-- One poll of a body: what the file holds then, and how it answers. -/
structure SourcePoll where
  content : Bytes
  answer : FilePoll
  deriving DecidableEq, Repr

/-- `ReaderStream`: the chunks that the polls give, and whether the file has come to its end. Nothing
follows an error. -/
def SourceHandle.stream : SourceHandle → List SourcePoll → List Bytes × Bool
  | _, [] => ([], false)
  | file, ⟨_, .pending⟩ :: rest => file.stream rest
  | _, ⟨_, .failed⟩ :: _ => ([], false)
  | file, ⟨content, .ready count⟩ :: rest =>
    let (read, moved) := file.read content count
    if read = [] then ([], true)
    else
      let (chunks, ended) := moved.stream rest
      (read :: chunks, ended)

/-- The stream of a file that stays as it is hands on what the file has from its position on: the beginning
of it, and all of it when the file has come to its end. -/
theorem SourceHandle.stream_steady (file : SourceHandle) (content : Bytes) (answers : List FilePoll) :
    (file.stream (answers.map (⟨content, ·⟩))).1.flatten <+: content.drop file.position ∧
      ((file.stream (answers.map (⟨content, ·⟩))).2 →
        (file.stream (answers.map (⟨content, ·⟩))).1.flatten = content.drop file.position) := by
  induction answers generalizing file with
  | nil => exact ⟨List.nil_prefix, Bool.noConfusion⟩
  | cons answer rest ih =>
    cases answer with
    | pending => exact ih file
    | failed => exact ⟨List.nil_prefix, Bool.noConfusion⟩
    | ready count =>
      simp only [List.map_cons, stream]
      by_cases nothing : (file.read content count).1 = []
      · simp only [nothing, if_true, read_eq_nil nothing]
        exact ⟨List.nil_prefix, fun _ => rfl⟩
      · simp only [nothing, if_false, List.flatten_cons]
        rw [← file.read_left content count]
        obtain ⟨part, whole⟩ := ih (file.read content count).2
        exact ⟨(List.prefix_append_right_inj _).mpr part, fun ended => by rw [whole ended]⟩

/-- `client::ProgressReader`. -/
structure ProgressReader where
  inner : SourceHandle
  session : TransferSession

/-- `ProgressReader::poll_read`, when the file holds this content, with the bytes that it puts into the
buffer. -/
def ProgressReader.pollRead (reader : ProgressReader) (content : Bytes) (cells : SessionCells) :
    FilePoll → Bytes × ProgressReader × SessionCells
  | .ready count =>
    let (read, inner) := reader.inner.read content count
    (read, { reader with inner },
      if read.length > 0 then cells.addBytes reader.session.cell (.ofNat read.length) else cells)
  | .pending | .failed => ([], reader, cells)

/-- A body on its way out of a file that stays as it is. -/
structure Outgoing where
  content : Bytes
  reader : ProgressReader
  cells : SessionCells
  /-- What the stream has handed on. -/
  chunks : List Bytes

/-- The stream polls its reader, or others change the cells. -/
inductive OutgoingMove where
  | poll (answer : FilePoll)
  | beside (cells : SessionCells)

/-- Take a move. Nobody else counts on the session of the body. -/
def Outgoing.step (state : Outgoing) : OutgoingMove → Option Outgoing
  | .poll answer =>
    let (read, reader, cells) := state.reader.pollRead state.content state.cells answer
    some { state with
      reader, cells, chunks := if read = [] then state.chunks else state.chunks ++ [read] }
  | .beside cells =>
    if (cells.content state.reader.session.cell).bytesTransferred =
        (state.cells.content state.reader.session.cell).bytesTransferred then some { state with cells }
    else none

/-- The body of a request, before the first poll. -/
def SendRequest.outgoing (request : SendRequest) (source : SourceFile) (cells : SessionCells) : Outgoing where
  content := source.content
  reader := ⟨request.file, request.session⟩
  cells := cells
  chunks := []

/-- What has been handed on is what has been read of the file and counted in the session. -/
structure Outgoing.Counted (left : Bytes) (session : TransferSession) (initial : UInt64)
    (state : Outgoing) : Prop where
  owner : state.reader.session = session
  left : state.chunks.flatten ++ state.content.drop state.reader.inner.position = left
  counted : (state.cells.content session.cell).bytesTransferred =
    initial + .ofNat state.chunks.flatten.length

/-- A poll counts what it hands on. -/
theorem Outgoing.Counted.poll {left : Bytes} {session : TransferSession} {initial : UInt64}
    {before after : Outgoing} {answer : FilePoll} (counted : before.Counted left session initial)
    (stepped : before.step (.poll answer) = some after) : after.Counted left session initial := by
  obtain rfl := Option.some.inj stepped
  cases answer with
  | pending | failed => exact ⟨counted.owner, counted.left, counted.counted⟩
  | ready count =>
    have own := counted.owner
    subst own
    have split := before.reader.inner.read_left before.content count
    by_cases nothing : (before.reader.inner.read before.content count).1 = []
    · rw [nothing, List.nil_append] at split
      refine ⟨rfl, ?_, ?_⟩
      · simp only [nothing, if_true]
        rw [split]
        exact counted.left
      · simp only [nothing, if_true, List.length_nil, gt_iff_lt,
          Nat.lt_irrefl, if_false]
        exact counted.counted
    · have some : (before.reader.inner.read before.content count).1.length > 0 :=
        List.length_pos_iff.mpr nothing
      refine ⟨rfl, ?_, ?_⟩
      · simp only [nothing, if_false, List.flatten_append,
          List.flatten_singleton, List.append_assoc]
        rw [split]
        exact counted.left
      · simp only [nothing, if_false, some, if_true, List.flatten_append,
          List.flatten_singleton, List.length_append, SessionCells.addBytes, Function.update_self]
        rw [counted.counted, UInt64.ofNat_add, UInt64.add_assoc]

/-- At any time the session has counted what has been handed on, and no more than the file has. -/
theorem SendRequest.outgoing_counted {request : SendRequest} {source : SourceFile} {cells : SessionCells}
    {reached : Outgoing}
    (path : Machine.Reaches Outgoing.step (fun _ _ => True) (request.outgoing source cells) reached) :
    reached.Counted (source.content.drop request.file.position) request.session
      (cells.content request.session.cell).bytesTransferred := by
  have start : (request.outgoing source cells).Counted (source.content.drop request.file.position)
      request.session (cells.content request.session.cell).bytesTransferred :=
    ⟨rfl, List.nil_append _, (UInt64.add_zero _).symm⟩
  refine path.invariant start fun state move next counted _ stepped => ?_
  cases move with
  | poll answer => exact counted.poll stepped
  | beside cells =>
    simp only [Outgoing.step] at stepped
    split at stepped
    · rename_i same
      obtain rfl := Option.some.inj stepped
      have own := counted.owner
      rw [own] at same
      exact ⟨own, counted.left, same.trans counted.counted⟩
    · cases stepped

/-! ## Posting the request -/

/-- What the environment decides about one operation of a send: its error, if it fails, and the reply to
a request. -/
structure SteadyChoice where
  fault : Option IoError
  reply : Except String Response

/-- The outcome of an operation on the file. -/
def SteadyChoice.outcome {α : Type} (choice : SteadyChoice) (value : α) : Except IoError α :=
  match choice.fault with
  | some error => .error error
  | none => .ok value

/-- Carry out one operation of a send of a file that stays as it is; what is kept is the requests that
the HTTP client was asked to send. -/
def steadyExec (source : SourceFile) : Meaning clientSig (List SendRequest) SteadyChoice
  | posted, .metadata _, choice => some (choice.outcome (.ofNat source.content.length), posted)
  | posted, .readFile _, choice => some (choice.outcome source.content, posted)
  | posted, .openFile path, choice => some (choice.outcome (.opened path), posted)
  | posted, .seek file position, choice =>
    some ((choice.outcome ()).bind fun _ => file.seek position, posted)
  | posted, .send request, choice => some (choice.reply, request :: posted)

/-- A send of a file that stays as it is posts a request. -/
def Posts (sha256 : Sha256) (source : SourceFile) (receiverAddr : SocketAddr) (transferId : Uuid)
    (filePath : String) (session : TransferSession) (opts : SendOptions) (request : SendRequest) : Prop :=
  ∃ choices result posted, (sendFile clientCall sha256 receiverAddr transferId filePath session
    opts).solo (steadyExec source) choices [] = some (result, posted) ∧ request ∈ posted

section

variable {sha256 : Sha256} {source : SourceFile} {receiverAddr : SocketAddr} {transferId : Uuid}
variable {filePath : String} {session : TransferSession} {resumeFrom : UInt64} {request : SendRequest}
variable {choices : Nat → SteadyChoice} {result : SendResult} {posted : List SendRequest}

/-- What a request says: the file's name, its size, its digest if there is one, and the offset. -/
structure Announces (transferId : Uuid) (filePath : String) (session : TransferSession)
    (resumeFrom totalSize : UInt64) (checksum : Option String) (request : SendRequest) : Prop where
  id : request.transferId = transferId
  given : request.session = session
  offset : request.file.position = resumeFrom.toNat
  headers : request.headers =
    sendHeaders ((pathFileName filePath).getD "unnamed_file") totalSize checksum resumeFrom

/-- An error of the file ends a send without a request. -/
theorem sendIo_posts {error : IoError}
    (ran : (sendIo error : Program clientSig SendResult).solo (steadyExec source) choices [] =
      some (result, posted)) (member : request ∈ posted) : False := by
  obtain ⟨-, rfl⟩ := Program.solo_done ran
  cases member

/-- The request of a send. -/
theorem postFile_posts {totalSize : UInt64} {checksum : Option String} {file : SourceHandle}
    (at_ : file.position = resumeFrom.toNat)
    (ran : (postFile clientCall {
        receiverAddr, transferId, file, session
        headers := sendHeaders ((pathFileName filePath).getD "unnamed_file") totalSize checksum
          resumeFrom }).solo (steadyExec source) choices [] = some (result, posted))
    (member : request ∈ posted) :
    Announces transferId filePath session resumeFrom totalSize checksum request := by
  obtain ⟨reply, middle, performed, rest⟩ := Program.solo_perform ran
  obtain rfl := (Prod.mk.inj (Option.some.inj performed)).2
  obtain ⟨-, rfl⟩ := Program.solo_done rest
  obtain rfl := List.mem_singleton.mp member
  exact ⟨rfl, rfl, at_, rfl⟩

/-- The last operations of a send. -/
theorem sendBody_posts {totalSize : UInt64} {checksum : Option String}
    (ran : (sendBody clientCall receiverAddr transferId filePath session resumeFrom totalSize
      checksum).solo (steadyExec source) choices [] = some (result, posted))
    (member : request ∈ posted) :
    Announces transferId filePath session resumeFrom totalSize checksum request := by
  obtain ⟨opened, middle, performed, rest⟩ := Program.solo_perform ran
  obtain ⟨rfl, rfl⟩ := Prod.mk.inj (Option.some.inj performed)
  unfold SteadyChoice.outcome at rest
  cases failed : (choices 0).fault with
  | some error =>
    rw [failed] at rest
    exact (sendIo_posts rest member).elim
  | none =>
    rw [failed] at rest
    simp only [Program.bind_done] at rest
    split at rest
    · obtain ⟨sought, middle, performed, rest⟩ := Program.solo_perform rest
      obtain ⟨rfl, rfl⟩ := Prod.mk.inj (Option.some.inj performed)
      unfold SteadyChoice.outcome SourceHandle.seek at rest
      cases unsought : (choices 1).fault with
      | some error =>
        simp only [unsought] at rest
        exact (sendIo_posts rest member).elim
      | none =>
        simp only [unsought, Except.bind] at rest
        split at rest
        · exact postFile_posts rfl rest member
        · exact (sendIo_posts rest member).elim
    · rename_i beginning
      have zero : resumeFrom.toNat = 0 := by
        have le := UInt64.not_lt.mp beginning
        simpa [UInt64.le_iff_toNat_le] using le
      exact postFile_posts zero.symm rest member

/-- A send of a file that stays as it is announces the file: its size, and its digest when asked to. -/
theorem Posts.announces {opts : SendOptions}
    (posts : Posts sha256 source receiverAddr transferId filePath session opts request) :
    ∃ checksum, (∀ hash ∈ checksum, hash = sha256Hex sha256 source.content) ∧
      Announces transferId filePath session opts.resumeFrom (.ofNat source.content.length) checksum
        request := by
  obtain ⟨choices, result, posted, ran, member⟩ := posts
  obtain ⟨size, middle, performed, rest⟩ := Program.solo_perform ran
  obtain ⟨rfl, rfl⟩ := Prod.mk.inj (Option.some.inj performed)
  unfold SteadyChoice.outcome at rest
  cases failed : (choices 0).fault with
  | some error =>
    rw [failed] at rest
    exact (sendIo_posts rest member).elim
  | none =>
    rw [failed] at rest
    simp only [Program.bind_done] at rest
    split at rest
    · obtain ⟨content, middle, performed, rest⟩ := Program.solo_perform rest
      obtain ⟨rfl, rfl⟩ := Prod.mk.inj (Option.some.inj performed)
      unfold SteadyChoice.outcome at rest
      cases unread : (choices 1).fault with
      | some error =>
        simp only [unread] at rest
        exact (sendIo_posts rest member).elim
      | none =>
        simp only [unread] at rest
        exact ⟨_, fun hash given => (Option.some.inj given).symm, sendBody_posts rest member⟩
    · exact ⟨none, by simp, sendBody_posts rest member⟩

end

end FileDrop
