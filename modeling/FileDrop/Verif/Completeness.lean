import FileDrop.Transfer.Exchange
import FileDrop.Verif.Resume

/-!
# Every send gets through

Attempts to send one unchanged file under one transfer id, one after another, each from an offset
inside the receiver's staging file. What the sender announces is what the receiver reads, and the sender
streams its file from there, so each attempt is an upload that sends a part of the file as what it is: the
staging file stays a prefix of the source, no digest mismatches, and an attempt whose body arrives whole
delivers the file.
-/
namespace FileDrop.Completeness
open FileDrop Effects Effects.Program Unix Resume

/-- Who sends which file to whom, and under which id. -/
structure Transfer where
  http : Http
  sha256 : Sha256
  paths : StoragePaths
  receiverAddr : SocketAddr
  transferId : Uuid
  filePath : String
  session : TransferSession
  source : SourceFile

/-- One attempt: where it continues, how the file answers the polls of the body, what becomes of the body
on its way, and whether the response arrives. -/
structure Attempt where
  resumeFrom : UInt64
  answers : List FilePoll
  transport : Transport
  lost : Option String

namespace Transfer

/-- The name the sender announces. -/
def fileName (transfer : Transfer) : String := (pathFileName transfer.filePath).getD "unnamed_file"

/-- The receiver's staging file. -/
def staging (transfer : Transfer) : Path := stagingPath transfer.paths transfer.transferId

/-- What becomes of the request of an attempt, whose polls read the file as it is. -/
def delivery (transfer : Transfer) (given : Attempt) : Delivery where
  polls := given.answers.map (⟨transfer.source.content, ·⟩)
  transport := given.transport
  faults := fun _ => .none
  lost := given.lost

/-- What arrives of the body of an attempt that reads from its offset on. -/
def body (transfer : Transfer) (given : Attempt) : Body :=
  (transfer.delivery given).body ⟨transfer.filePath, given.resumeFrom.toNat⟩

/-- One attempt, with the digest, where every file operation of the receiver succeeds. -/
def attempt (transfer : Transfer) (receiver : Receiver) (given : Attempt) :
    Option (SendResult × Receiver) :=
  (sendFile clientCall transfer.sha256 transfer.receiverAddr transfer.transferId transfer.filePath
    transfer.session ⟨given.resumeFrom, true⟩).solo (clientExec transfer.http transfer.sha256 transfer.paths)
      (fun _ => ⟨.ok transfer.source, transfer.delivery given⟩) receiver

/-- An attempt continues inside the staging file. -/
def Continues (transfer : Transfer) (receiver : Receiver) (given : Attempt) : Prop :=
  given.resumeFrom.toNat ≤ partLength transfer.staging receiver.server

/-- One attempt of a sequence. -/
def Attempts (transfer : Transfer) (before after : Receiver) : Prop :=
  ∃ given result, transfer.Continues before given ∧
    transfer.attempt before given = some (result, after)

/-- Nothing has been received under the id. -/
structure Fresh (transfer : Transfer) (receiver : Receiver) : Prop where
  absent : receiver.server.files.read transfer.staging = none
  passed : receiver.passed = []
  answers : receiver.answers = []

/-- What holds between attempts: the staging file has held a prefix of the source all along, and
no attempt was answered with a mismatch. -/
structure Prefixes (transfer : Transfer) (receiver : Receiver) : Prop where
  staged : PartPrefix transfer.staging transfer.source.content receiver.server
  passed : ∀ world ∈ receiver.passed, PartPrefix transfer.staging transfer.source.content world
  answers : ∀ answer ∈ receiver.answers, ∀ response ∈ answer, response.status ≠ 422

/-- The receiver answered that the transfer is complete, and has the source at its final path. -/
def Complete (transfer : Transfer) (receiver : Receiver) : Prop :=
  ∃ response earlier name, receiver.answers = some response :: earlier ∧ response.status = 200 ∧
    sanitizeFilename (received transfer.fileName) = some name ∧
    receiver.server.files.read (transfer.paths.receivedFilesDir ++ [name]) =
      some transfer.source.content

/-- An attempt sends the file from its offset on: a part of it arrives, and all of it when nothing
fails. -/
theorem body_steady (transfer : Transfer) (given : Attempt) :
    (transfer.body given).chunks.flatten <+: transfer.source.content.drop given.resumeFrom.toNat ∧
      ((transfer.body given).failure = none →
        (transfer.body given).chunks.flatten =
          transfer.source.content.drop given.resumeFrom.toNat) :=
  Delivery.body_steady rfl _

/-- The headers of an attempt. -/
def headers (transfer : Transfer) (resumeFrom : UInt64) : SendHeaders :=
  sendHeaders transfer.fileName (.ofNat transfer.source.content.length)
    (some (sha256Hex transfer.sha256 transfer.source.content)) resumeFrom

/-- The request of an attempt, with the file open at the offset. -/
def request (transfer : Transfer) (resumeFrom : UInt64) : SendRequest where
  receiverAddr := transfer.receiverAddr
  transferId := transfer.transferId
  headers := transfer.headers resumeFrom
  file := ⟨transfer.filePath, resumeFrom.toNat⟩
  session := transfer.session

/-- An attempt is its request, handed to the receiver. -/
theorem attempt_eq {transfer : Transfer} {receiver : Receiver} {given : Attempt}
    (within : given.resumeFrom.toNat < offsetLimit) :
    transfer.attempt receiver given =
      (receiver.deliver transfer.http transfer.sha256 transfer.paths (transfer.request given.resumeFrom)
        (transfer.delivery given)).map fun (reply, after) => (readResponse reply, after) := by
  by_cases resumed : given.resumeFrom > 0
  · simp only [attempt, sendFile, sha256File, sendBody, Program.attempt, solo, clientCall, clientExec,
      resumed, postFile, request, headers, fileName, Except.map, Except.bind, SourceHandle.seek,
      SourceHandle.opened, within, bind_perform, bind_done, if_true, Option.bind_some,
      Option.map_eq_bind, Function.comp_def]
  · have beginning : given.resumeFrom.toNat = 0 := by
      have le := UInt64.not_lt.mp resumed
      simpa [UInt64.le_iff_toNat_le] using le
    simp only [attempt, sendFile, sha256File, sendBody, Program.attempt, solo, clientCall, clientExec,
      resumed, beginning, postFile, request, headers, fileName, Except.map, SourceHandle.opened,
      bind_perform, bind_done, if_true, if_false, Option.bind_some, Option.map_eq_bind,
      Function.comp_def]

/-- Handing over a request that is handled correctly. -/
theorem deliver_total {http : Http} {sha256 : Sha256} {paths : StoragePaths} {receiver : Receiver}
    {request : SendRequest} {arriving : TransferRequest} {delivery : Delivery} {inv : ServerWorld → Prop}
    {post : Option Response → ServerWorld → Prop} (reliable : delivery.faults = fun _ => .none)
    (arrives : request.arriving http (delivery.body request.file) = some arriving)
    (total : Total reliableExec inv post (receiveTransfer sha256 paths arriving) receiver.server) :
    ∃ reply server steps, receiver.deliver http sha256 paths request delivery =
        some (responseReceived delivery.lost reply,
          ⟨server, receiver.passed ++ steps, reply :: receiver.answers⟩) ∧
      (∀ world ∈ steps, inv world) ∧ post reply server := by
  obtain ⟨reply, server, ran, met, kept⟩ := total.solo fun _ => ()
  have agree : ∀ world op (choice : Unit), reliableExec world op choice = serverExec world op .none :=
    fun _ _ _ => rfl
  obtain ⟨same, passes⟩ := solo_narrow (fun _ : Unit => Fault.none) agree (fun _ => ())
    (receiveTransfer sha256 paths arriving) receiver.server
  rw [same] at ran
  rw [passes] at kept
  refine ⟨reply, server, _, ?_, kept, met⟩
  rw [Receiver.deliver_arriving arrives]
  simp only [reliable, ran, Option.map_some]

/-- An attempt runs to its end: the staging file holds a prefix after each of the receiver's
operations, and the receiver's answer is the one to an upload of a part of the source. -/
theorem attempt_answered {transfer : Transfer} {receiver : Receiver} {given : Attempt}
    (printable : Printable transfer.fileName.toList) (continues : transfer.Continues receiver given)
    (staged : PartPrefix transfer.staging transfer.source.content receiver.server) :
    ∃ reply server steps upload, transfer.attempt receiver given =
        some (readResponse (responseReceived given.lost reply),
          ⟨server, receiver.passed ++ steps, reply :: receiver.answers⟩) ∧
      (∀ world ∈ steps, PartPrefix transfer.staging transfer.source.content world) ∧
      upload.stagingPath = transfer.staging ∧ upload.resumeOffset = given.resumeFrom ∧
      upload.finalPath = transfer.paths.receivedFilesDir ++ [upload.safeName] ∧
      sanitizeFilename (received transfer.fileName) = some upload.safeName ∧
      Answered transfer.source.content upload (transfer.body given) reply server := by
  have hex := sha256Hex_announced transfer.sha256 transfer.source.content
  obtain ⟨headers, upload, arrives, accepted, sanitized⟩ :=
    @printable_accepted transfer.http transfer.paths transfer.transferId _
      (.ofNat transfer.source.content.length) _ given.resumeFrom printable hex
  obtain ⟨size, digest, resume⟩ := accepted_announced hex arrives accepted
  obtain ⟨-, staging, final, -, -, -, -⟩ := acceptRequest_ok accepted
  have located : upload.stagingPath = transfer.staging := staging
  have within : given.resumeFrom.toNat < offsetLimit :=
    (continues.trans staged.length_le).trans_lt transfer.source.sized
  let arriving : TransferRequest := ⟨transfer.transferId, headers, transfer.body given⟩
  have arrived : (transfer.request given.resumeFrom).arriving transfer.http (transfer.body given) =
      some arriving := Option.map_eq_some_iff.mpr ⟨headers, arrives, rfl⟩
  have taken : acceptRequest transfer.paths arriving.transferId arriving.headers = some (.ok upload) :=
    accepted
  have sends : Sends transfer.sha256 transfer.source.content upload arriving.body := {
    size := by rw [size, UInt64.toNat_ofNat', Nat.mod_eq_of_lt transfer.source.size_lt]
    digest := by
      rintro expected announced
      rw [digest] at announced
      exact (Option.some.inj announced).symm
    content := by rw [resume]; exact (transfer.body_steady given).1
    apart := by rw [staging, final]; exact staging_ne_received transfer.paths _ _ }
  have inside : upload.resumeOffset.toNat ≤ partLength upload.stagingPath receiver.server := by
    rw [resume, located]
    exact continues
  obtain ⟨reply, server, steps, delivered, kept, answered⟩ :=
    @deliver_total transfer.http transfer.sha256 transfer.paths receiver
      (transfer.request given.resumeFrom) arriving (transfer.delivery given) _ _ rfl arrived
      (total_receive taken sends inside (located ▸ staged))
  refine ⟨reply, server, steps, upload, ?_, located ▸ kept, located, resume, final, sanitized,
    answered⟩
  rw [attempt_eq within, delivered, Option.map_some]
  rfl

/-- An attempt keeps the prefixes. -/
theorem Prefixes.step {transfer : Transfer} {before after : Receiver}
    (printable : Printable transfer.fileName.toList) (prefixes : transfer.Prefixes before)
    (last : transfer.Attempts before after) : transfer.Prefixes after := by
  obtain ⟨given, result, continues, ran⟩ := last
  obtain ⟨reply, server, steps, upload, same, kept, located, -, -, -, answered⟩ :=
    attempt_answered printable continues prefixes.staged
  obtain ⟨-, rfl⟩ := Prod.mk.inj (Option.some.inj (same.symm.trans ran))
  refine ⟨located ▸ answered.staged, ?_, ?_⟩
  · intro world member
    rcases List.mem_append.mp member with earlier | now
    · exact prefixes.passed world earlier
    · exact kept world now
  · intro answer member response found
    rcases List.mem_cons.mp member with rfl | earlier
    · obtain ⟨own, rfl, matched, -⟩ := answered.reply
      exact Option.some.inj found ▸ matched
    · exact prefixes.answers answer earlier response found

/-- Whatever came through before: the staging file has held prefixes of the source all along, no
attempt was answered with a mismatch, and each further attempt runs to its end and delivers the
source when its body arrives whole. -/
theorem resume_complete {transfer : Transfer} {start reached : Receiver}
    (printable : Printable transfer.fileName.toList) (fresh : transfer.Fresh start)
    (path : Relation.ReflTransGen transfer.Attempts start reached) :
    transfer.Prefixes reached ∧ ∀ given, transfer.Continues reached given →
      ∃ result after, transfer.attempt reached given = some (result, after) ∧
        ((transfer.body given).failure = none →
          transfer.Complete after ∧ (given.lost = none → result = .ok ())) := by
  have prefixes : transfer.Prefixes reached := by
    induction path with
    | refl =>
      refine ⟨fun bytes found => ?_, ?_, ?_⟩
      · rw [fresh.absent] at found
        cases found
      · rw [fresh.passed]
        exact fun world member => nomatch member
      · rw [fresh.answers]
        exact fun answer member => nomatch member
    | tail _ last ih => exact ih.step printable last
  refine ⟨prefixes, fun given continues => ?_⟩
  obtain ⟨reply, server, steps, upload, ran, -, -, resume, final, sanitized, answered⟩ :=
    attempt_answered printable continues prefixes.staged
  refine ⟨_, _, ran, fun ended => ?_⟩
  have within : given.resumeFrom.toNat ≤ transfer.source.content.length :=
    continues.trans prefixes.staged.length_le
  have arrives : Arrives transfer.source.content upload (transfer.body given) := by
    refine ⟨ended, ?_, ?_⟩
    · rw [resume, (transfer.body_steady given).2 ended, List.length_drop]
      omega
    · rw [resume]
      exact within.trans_lt transfer.source.sized
  obtain ⟨response, rfl, -, complete, delivered⟩ := answered.reply
  have ok := complete.mpr arrives
  refine ⟨⟨response, reached.answers, upload.safeName, rfl, ok, sanitized, ?_⟩, fun kept => ?_⟩
  · rw [← final]
    exact delivered ok
  · rw [kept]
    simp [responseReceived, readResponse, ok, isSuccess]

end Transfer

/-! ## A sample transfer -/

/-- A file `a` of the bytes 1 and 2. -/
def sampleTransfer : Transfer where
  http := .plain
  sha256 := sampleSha256
  paths := samplePaths
  receiverAddr := ⟨"10.0.0.2:9000"⟩
  transferId := sampleId
  filePath := "a"
  session := ⟨sampleId, "a", 2, .send, 0⟩
  source := ⟨[1, 2], by decide⟩

/-- A receiver that has received nothing. -/
def emptyReceiver : Receiver := ⟨emptyServer, [], []⟩

/-- The file is read to its end in one poll, and the first byte arrives before the connection is cut. -/
def cutAttempt : Attempt := ⟨0, [.ready 2, .ready 1], ⟨[], some 1, "connection reset"⟩, none⟩

/-- The file is read from its second byte on, and nothing is missing. -/
def restAttempt : Attempt := ⟨1, [.pending, .ready 2, .ready 1], ⟨[1], none, ""⟩, none⟩

/-- A send that is cut after the first byte and continued there. -/
theorem resume_complete_cut : ∃ before, sampleTransfer.Attempts emptyReceiver before ∧
    sampleTransfer.Prefixes before ∧ ∃ result after,
      sampleTransfer.attempt before restAttempt = some (result, after) ∧
      sampleTransfer.Complete after := by
  have runs : (sampleTransfer.attempt emptyReceiver cutAttempt).map (fun ran =>
      partLength sampleTransfer.staging ran.2.server) = some 1 := by
    decide +kernel
  obtain ⟨⟨cut, before⟩, first, length⟩ := Option.map_eq_some_iff.mp runs
  have starts : sampleTransfer.Continues emptyReceiver cutAttempt := Nat.zero_le _
  have continues : sampleTransfer.Continues before restAttempt := length.ge
  have named : sampleTransfer.fileName = "a" := by decide +kernel
  have printable : Printable sampleTransfer.fileName.toList := by
    rw [named]
    exact forall_chars (by decide)
  have attempts : sampleTransfer.Attempts emptyReceiver before := ⟨_, cut, starts, first⟩
  obtain ⟨prefixes, completes⟩ :=
    Transfer.resume_complete printable ⟨rfl, rfl, rfl⟩ (.single attempts)
  obtain ⟨result, after, second, arrived⟩ := completes restAttempt continues
  have whole : (sampleTransfer.body restAttempt).failure = none := by decide
  exact ⟨before, attempts, prefixes, result, after, second, (arrived whole).1⟩

end FileDrop.Completeness
