import FileDrop.Verif.Completeness
import FileDrop.Verif.Independent

/-!
# Sending a completed transfer again

Completion moves the staging file away and drops the session. A sender that missed the reply and sends
the rest from an offset gets a new staging file with a gap up to that offset, so the retry delivers the
file again only when it starts over, or when the gap reads as what the file has there.
-/
namespace FileDrop.Retry
open FileDrop Effects Effects.Program Unix Resume Completeness Isolation Received

section

variable {sha256 : Sha256} {paths : StoragePaths} {request : TransferRequest} {upload : Upload}
variable {world after : ServerWorld} {reply : Option Response}

/-- A request with nothing beside it and no fault is answered. -/
theorem serve_total (sha256 : Sha256) (paths : StoragePaths) (request : TransferRequest)
    (world : ServerWorld) : ∃ reply after, serve sha256 paths world request = some (reply, after) := by
  have start : Independent.Runs (receiving sha256 paths (fun _ : Unit => request) world)
      (receiving sha256 paths (fun _ : Unit => request) world) := .refl
  exact @Independent.serve_runs Unit sha256 paths (fun _ => request) _ world _ distinct_one start ()
    rfl

/-- An upload with nothing beside it and no fault comes to what it comes to. -/
theorem serve_settled
    (accepted : acceptRequest paths request.transferId request.headers = some (.ok upload))
    (served : serve sha256 paths world request = some (reply, after)) :
    reply = some (settle sha256 upload request.body
        (world.files.read upload.stagingPath)).reply ∧
      after.files.read upload.stagingPath =
        (settle sha256 upload request.body (world.files.read upload.stagingPath)).staged ∧
      ∀ bytes, (settle sha256 upload request.body (world.files.read upload.stagingPath)).delivered =
        some bytes → after.files.read upload.finalPath = some bytes := by
  have path := solo_runs (fun _ : Unit => Fault.none) served
  have isolated := (isolated_reached _ distinct_one path).1
  have accepts : Accepts paths (fun _ : Unit => request) () upload := accepted
  obtain ⟨answered, staged, -⟩ := isolated.finished (fun _ => rfl) () upload reply accepts rfl
  have answered : reply = some (settle sha256 upload request.body
      (world.files.read upload.stagingPath)).reply := answered
  refine ⟨answered, staged, fun bytes delivers => ?_⟩
  have complete := settle_answered.mpr ⟨bytes, delivers⟩
  rw [answered] at served
  obtain ⟨gives, delivered, reads⟩ :=
    answered_delivered (fun _ : Unit => Fault.none) accepted served complete
  rwa [← delivers, delivered]

end

/-! ## The gap -/

/-- What is staged of the rest of a file when nothing was staged before it. -/
theorem gap_eq {whole : Bytes} {position : Nat} (within : position ≤ whole.length) :
    overlay [] position (whole.drop position) = whole ↔
      position = 0 ∨ position < whole.length ∧ whole.take position = List.replicate position 0 := by
  have split := List.take_append_drop position whole
  have length : (whole.take position).length = position := by
    rw [List.length_take, Nat.min_eq_left within]
  unfold overlay
  by_cases nothing : whole.drop position = []
  · have all : position = whole.length := by
      have short := List.drop_eq_nil_iff.mp nothing
      omega
    rw [if_pos nothing]
    constructor
    · intro empty
      refine .inl ?_
      rw [all, ← empty]
      rfl
    · rintro (zero | ⟨less, -⟩)
      · exact (List.eq_nil_of_length_eq_zero (by omega)).symm
      · omega
  · have less : position < whole.length := by
      have long := mt List.drop_eq_nil_iff.mpr nothing
      omega
    rw [if_neg nothing, List.takeD_nil, List.drop_nil, List.append_nil]
    constructor
    · intro same
      refine .inr ⟨less, ?_⟩
      have starts : List.replicate position 0 ++ whole.drop position =
          whole.take position ++ whole.drop position := same.trans split.symm
      exact (List.append_cancel_right starts).symm
    · rintro (zero | ⟨-, zeros⟩)
      · rw [zero]
        rfl
      · rw [← zeros]
        exact split

/-- Where the file of a transfer goes. -/
def finalPath (transfer : Transfer) (name : String) : Path :=
  transfer.paths.receivedFilesDir ++ [name]

/-- A request of the transfer was answered as complete, and the file is at its final path. -/
structure Completed (transfer : Transfer) (name : String) (server : ServerWorld) : Prop where
  named : (transfer.http.reads transfer.fileName).bind sanitizeFilename = some name
  answered : ∃ resumeFrom headers body faults start response,
    (transfer.headers resumeFrom).arriving transfer.http = some headers ∧
      (receiveTransfer transfer.sha256 transfer.paths
        ⟨transfer.transferId, headers, body⟩).solo serverExec faults start =
          some (some response, server) ∧
      response.status = 200
  delivered : server.files.read (finalPath transfer name) = some transfer.source.content

/-- Whatever else has happened, the transfer's files are as they were. -/
structure Untouched (transfer : Transfer) (name : String) (before after : ServerWorld) : Prop where
  staging : after.files.read transfer.staging = before.files.read transfer.staging
  final : after.files.read (finalPath transfer name) = before.files.read (finalPath transfer name)

/-- The last attempt was answered as complete, and the file is at its final path. -/
def DeliversAgain (transfer : Transfer) (name : String) (receiver : Receiver) : Prop :=
  (∃ response earlier, receiver.answers = some response :: earlier ∧ response.status = 200) ∧
    receiver.server.files.read (finalPath transfer name) = some transfer.source.content

/-- What an upload of the rest of a file comes to, when its size and digest are announced and nothing is
staged for it. -/
theorem settle_rest {sha256 : Sha256} {upload : Upload} {body : Body} {whole : Bytes}
    (size : upload.totalSize = .ofNat whole.length)
    (digest : upload.expectedSha256 = some (sha256Hex sha256 whole))
    (within : upload.resumeOffset.toNat ≤ whole.length) (valid : Valid upload)
    (ended : body.failure = none)
    (rest : body.chunks.flatten = whole.drop upload.resumeOffset.toNat) :
    settle sha256 upload body none = settleDigest sha256 (sha256Hex sha256 whole)
      (overlay [] upload.resumeOffset.toNat (whole.drop upload.resumeOffset.toNat)) := by
  have counted : upload.resumeOffset + .ofNat body.chunks.flatten.length = upload.totalSize := by
    refine UInt64.toNat_inj.mp ?_
    rw [size, rest, UInt64.toNat_add, UInt64.toNat_ofNat', UInt64.toNat_ofNat', List.length_drop]
    omega
  have staged : stagedWith upload none body.chunks.flatten =
      overlay [] upload.resumeOffset.toNat (whole.drop upload.resumeOffset.toNat) := by
    unfold stagedWith
    rw [rest, Option.getD_none, ite_self]
  rw [settle, if_pos valid]
  simp only [settleStream, ended, settleFinish, counted, ne_eq, not_true_eq_false, if_false,
    settleVerify, digest, staged]

/-- An attempt serves its request, with nothing beside it. -/
theorem attempt_serves {transfer : Transfer} {before : Receiver} {given : Attempt}
    {headers : TransferHeaders} (within : given.resumeFrom.toNat < offsetLimit)
    (arrives : (transfer.headers given.resumeFrom).arriving transfer.http = some headers) :
    ∃ reply server result after, serve transfer.sha256 transfer.paths before.server
        ⟨transfer.transferId, headers, transfer.body given⟩ = some (reply, server) ∧
      transfer.attempt before given = some (result, after) ∧ after.server = server ∧
      after.answers = reply :: before.answers ∧
      result = readResponse (responseReceived given.lost reply) := by
  let request : TransferRequest := ⟨transfer.transferId, headers, transfer.body given⟩
  obtain ⟨reply, server, served⟩ :=
    serve_total transfer.sha256 transfer.paths request before.server
  have agree : ∀ world op (choice : Unit), reliableExec world op choice = serverExec world op .none :=
    fun _ _ _ => rfl
  have narrow := (solo_narrow (fun _ : Unit => Fault.none) agree (fun _ => ())
    (receiveTransfer transfer.sha256 transfer.paths request) before.server).1
  have handled : (receiveTransfer transfer.sha256 transfer.paths request).solo serverExec
      (fun _ => .none) before.server = some (reply, server) := narrow.symm.trans served
  let after : Receiver := ⟨server, before.passed ++ (receiveTransfer transfer.sha256 transfer.paths
    request).visited serverExec (fun _ => .none) before.server, reply :: before.answers⟩
  have attempted : transfer.attempt before given =
      some (readResponse (responseReceived given.lost reply), after) := by
    have arrived : (transfer.request given.resumeFrom).arriving transfer.http
        ((transfer.delivery given).body (transfer.request given.resumeFrom).file) = some request :=
      Option.map_eq_some_iff.mpr ⟨headers, arrives, rfl⟩
    rw [Transfer.attempt_eq within, Receiver.deliver_arriving arrived]
    change ((receiveTransfer transfer.sha256 transfer.paths request).solo serverExec (fun _ => .none)
      before.server |>.map _).map _ = _
    rw [handled]
    rfl
  exact ⟨reply, server, _, after, served, attempted, rfl, rfl, rfl⟩

/-- An upload whose digest is compared is answered as complete, with the file delivered, exactly when
it has staged that file. -/
theorem digest_delivers {sha256 : Sha256} {whole staged : Bytes} {reply : Option Response}
    {read : Option Bytes}
    (answered : reply = some (settleDigest sha256 (sha256Hex sha256 whole) staged).reply)
    (delivers : ∀ bytes, (settleDigest sha256 (sha256Hex sha256 whole) staged).delivered = some bytes →
      read = some bytes) :
    (∃ response, reply = some response ∧ response.status = 200) ∧ read = some whole ↔
      staged = whole := by
  constructor
  · rintro ⟨⟨response, rfl, ok⟩, there⟩
    rw [settleDigest] at answered delivers
    split at delivers
    · rename_i differs
      rw [if_pos differs] at answered
      rw [Option.some.inj answered] at ok
      cases ok
    · have put := delivers staged rfl
      exact Option.some.inj (put.symm.trans there)
  · rintro rfl
    have complete : settleDigest sha256 (sha256Hex sha256 staged) staged = settleComplete staged :=
      if_neg (not_not_intro rfl)
    rw [complete] at answered delivers
    exact ⟨⟨_, answered, rfl⟩, delivers staged rfl⟩

/-- The retry of a completed transfer from an offset, whose body arrives whole: it runs to its end, and
delivers the file again exactly when it starts over or the file begins with zeros up to the offset. -/
theorem retry_iff {transfer : Transfer} {name : String} {done : ServerWorld} {before : Receiver}
    {given : Attempt} (completed : Completed transfer name done)
    (untouched : Untouched transfer name done before.server)
    (within : given.resumeFrom.toNat ≤ transfer.source.content.length)
    (whole : (transfer.body given).failure = none) :
    ∃ result after, transfer.attempt before given = some (result, after) ∧
      (DeliversAgain transfer name after ↔ given.resumeFrom = 0 ∨
        given.resumeFrom.toNat < transfer.source.content.length ∧
        transfer.source.content.take given.resumeFrom.toNat =
          List.replicate given.resumeFrom.toNat 0) := by
  obtain ⟨early, headersFirst, body, faults, start, response, first, ran, complete⟩ :=
    completed.answered
  obtain ⟨value, legal⟩ := SendHeaders.arriving_legal first
  have hex := sha256Hex_announced transfer.sha256 transfer.source.content
  have accepts (resumeFrom : UInt64) := legal_accepted transfer.paths transfer.transferId
    (.ofNat transfer.source.content.length) resumeFrom legal completed.named hex
  -- the completing request left nothing staged
  have unstaged : before.server.files.read transfer.staging = none := by
    obtain ⟨headers, upload, arrives, accepted, -⟩ := accepts early
    obtain rfl := Option.some.inj (arrives.symm.trans first)
    have gone := answered_unstaged id accepted ran complete
    rw [(acceptRequest_ok accepted).2.1] at gone
    rw [untouched.staging]
    exact gone
  obtain ⟨headers, upload, arrives, accepted, named⟩ := accepts given.resumeFrom
  obtain ⟨size, digest, resume⟩ := accepted_announced hex arrives accepted
  obtain ⟨-, staging, final, -, -, -, -⟩ := acceptRequest_ok accepted
  have valid : given.resumeFrom.toNat < offsetLimit := within.trans_lt transfer.source.sized
  obtain ⟨reply, server, result, after, served, attempted, rfl, listed, -⟩ :=
    @attempt_serves transfer before given headers valid arrives
  have comes : settle transfer.sha256 upload (transfer.body given)
      (before.server.files.read upload.stagingPath) =
        settleDigest transfer.sha256 (sha256Hex transfer.sha256 transfer.source.content)
          (overlay [] upload.resumeOffset.toNat
            (transfer.source.content.drop upload.resumeOffset.toNat)) := by
    have old : before.server.files.read upload.stagingPath = none := by
      rw [staging]
      exact unstaged
    rw [old]
    rw [← resume] at within valid
    refine settle_rest size digest within valid whole ?_
    rw [resume]
    exact (transfer.body_steady given).2 whole
  obtain ⟨answered, -, delivers⟩ := serve_settled accepted served
  rw [comes] at answered delivers
  have finalName : upload.finalPath = finalPath transfer name := by
    rw [final, named]
    rfl
  rw [finalName] at delivers
  have zero : given.resumeFrom = 0 ↔ given.resumeFrom.toNat = 0 :=
    ⟨fun same => by rw [same]; rfl, fun same => UInt64.toNat_inj.mp same⟩
  refine ⟨result, after, attempted, ?_⟩
  rw [zero, ← gap_eq within, ← resume, ← digest_delivers answered delivers]
  refine and_congr_left fun _ => ?_
  constructor
  · rintro ⟨response, earlier, same, ok⟩
    exact ⟨response, (List.cons.inj (listed.symm.trans same)).1, ok⟩
  · rintro ⟨response, rfl, ok⟩
    exact ⟨response, before.answers, listed, ok⟩

/-! ## A sample transfer, completed -/

/-- The headers of the sample transfer, as they arrive when it is sent from its beginning. -/
def sampleFirst : TransferHeaders where
  filename := some ⟨some "a"⟩
  totalSize := some ⟨some "2"⟩
  sha256 := some ⟨some (sha256Hex sampleSha256 [1, 2])⟩
  contentRange := none

/-- The sample transfer's file arrives at a server that has received nothing. -/
def sampleDone : Option (Option Response × ServerWorld) :=
  (receiveTransfer sampleSha256 samplePaths
    ⟨sampleId, sampleFirst, ⟨[[1, 2]], none⟩⟩).solo serverExec (fun _ => .none) emptyServer

/-- The sample transfer is completed then. -/
theorem sample_completed {response : Response} {server : ServerWorld}
    (ran : sampleDone = some (some response, server)) (complete : response.status = 200)
    (there : server.files.read (finalPath sampleTransfer "a") = some [1, 2]) :
    Completed sampleTransfer "a" server := by
  have named : (sampleTransfer.http.reads sampleTransfer.fileName).bind sanitizeFilename = some "a" := by
    decide +kernel
  have first : (sampleTransfer.headers 0).arriving sampleTransfer.http = some sampleFirst := by
    decide +kernel
  have arrives : (receiveTransfer sampleTransfer.sha256 sampleTransfer.paths
      ⟨sampleTransfer.transferId, sampleFirst, ⟨[[1, 2]], none⟩⟩).solo serverExec
        (fun _ => .none) emptyServer = some (some response, server) := ran
  exact ⟨named, ⟨0, sampleFirst, _, _, _, response, first, arrives, complete⟩, there⟩

/-- The sample transfer is sent again, from an offset. -/
def againFrom (resumeFrom : UInt64) : Attempt := ⟨resumeFrom, [.ready 8, .ready 8], ⟨[], none, ""⟩, none⟩

/-- The sample transfer, sent again from its beginning. -/
theorem retry_iff_again : ∃ response server, sampleDone = some (some response, server) ∧
    ∃ result after, sampleTransfer.attempt ⟨server, [], []⟩ (againFrom 0) = some (result, after) ∧
      DeliversAgain sampleTransfer "a" after := by
  have runs : sampleDone.map (fun ran => (ran.1.map (·.status),
      ran.2.files.read (finalPath sampleTransfer "a"))) = some (some 200, some [1, 2]) := by
    decide +kernel
  obtain ⟨⟨reply, server⟩, ran, shown⟩ := Option.map_eq_some_iff.mp runs
  obtain ⟨answered, there⟩ := Prod.mk.inj shown
  obtain ⟨response, rfl, complete⟩ := Option.map_eq_some_iff.mp answered
  have completed := sample_completed ran complete there
  obtain ⟨result, after, attempted, delivers⟩ := @retry_iff sampleTransfer "a" server
    ⟨server, [], []⟩ (againFrom 0) completed ⟨rfl, rfl⟩ (by decide) (by decide)
  exact ⟨response, server, ran, result, after, attempted, delivers.mpr (.inl rfl)⟩

/-- The sample transfer, sent again from its second byte, is answered with a mismatch. -/
theorem retry_broken :
    ¬∀ (transfer : Transfer) (name : String) (done : ServerWorld) (before : Receiver)
      (given : Attempt), Completed transfer name done → Untouched transfer name done before.server →
      given.resumeFrom.toNat ≤ transfer.source.content.length →
      (transfer.body given).failure = none →
      ∃ result after, transfer.attempt before given = some (result, after) ∧
        DeliversAgain transfer name after := by
  intro always
  have runs : (sampleDone.bind fun ran =>
      (sampleTransfer.attempt ⟨ran.2, [], []⟩ (againFrom 1)).map fun again =>
        ((ran.1.map (·.status), ran.2.files.read (finalPath sampleTransfer "a")),
          again.2.answers.map (·.map (·.status)))) =
      some ((some 200, some [1, 2]), [some 422]) := by
    decide +kernel
  obtain ⟨⟨reply, server⟩, ran, rest⟩ := Option.bind_eq_some_iff.mp runs
  obtain ⟨⟨result, after⟩, attempted, shown⟩ := Option.map_eq_some_iff.mp rest
  obtain ⟨shown, answers⟩ := Prod.mk.inj shown
  obtain ⟨answered, there⟩ := Prod.mk.inj shown
  obtain ⟨response, rfl, complete⟩ := Option.map_eq_some_iff.mp answered
  have completed := sample_completed ran complete there
  obtain ⟨other, later, same, ⟨again, earlier, listed, ok⟩, -⟩ := always sampleTransfer "a" server
    ⟨server, [], []⟩ (againFrom 1) completed ⟨rfl, rfl⟩ (by decide) (by decide)
  obtain ⟨-, rfl⟩ := Prod.mk.inj (Option.some.inj (same.symm.trans attempted))
  have answers : later.answers.map (·.map (·.status)) = [some 422] := answers
  rw [listed, List.map_cons] at answers
  have mismatch := (List.cons.inj answers).1
  rw [Option.map_some, ok] at mismatch
  exact absurd mismatch (by decide)

end FileDrop.Retry
