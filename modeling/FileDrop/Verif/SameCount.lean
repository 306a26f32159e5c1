import FileDrop.Transfer.Exchange
import FileDrop.Transfer.Queue
import FileDrop.Verif.ReceiveStages

/-!
# What both ends count

The receiver's session starts at the offset of its upload and counts every chunk, in step with the loop's
own sum, so when the upload is answered with 200 it has counted the announced size. The sender's session
starts at zero and counts what is read from the offset on. The two counts differ by the offset.
-/
namespace FileDrop.SameCount
open FileDrop Effects Effects.Program Unix Resume ReceiveStages

/-! ## The receiver's count -/

/-- The session of an upload with what it has counted. -/
abbrev Tally : Type := Option (TransferSession × UInt64)

/-- The tally after an operation. -/
def retally (tally : Tally) : (op : ServerOp) → op.Result → Tally
  | .insertSession _ _ _ initial, session => some (session, initial)
  | .addBytes _ n, _ => tally.map fun (session, counted) => (session, counted + n)
  | _, _ => tally

/-- A handler makes its session with the announced size, and counts on no other one. -/
def Proper (total : UInt64) (tally : Tally) : ServerOp → Prop
  | .insertSession _ _ totalBytes _ => totalBytes = total
  | .addBytes session _ => tally.map Prod.fst = some session
  | _ => True

/-- Whatever its operations return, a handler counts properly, and ends with 200 only where its session
has counted the announced size, as has the sum over its body. -/
def Counts (total sum : UInt64) : Tally → Handler → Prop
  | tally, .done reply => ∀ response ∈ reply, response.status = 200 →
    sum = total ∧ tally.map Prod.snd = some total
  | tally, .perform op next =>
    Proper total tally op ∧ ∀ result, Counts total sum (retally tally op result) (next result)

section

variable {sha256 : Sha256} {upload : Upload} {total sum : UInt64} {tally : Tally}

/-- An answer other than 200. -/
theorem counts_respond {status : Nat} {text : String} (other : status ≠ 200) :
    Counts total sum tally (respond status text) := by
  rintro response ⟨⟩ ok
  exact absurd ok other

/-- An operation on a file. -/
theorem counts_file {op : FileOp Path} {next : op.Result → Handler}
    (goes : ∀ result, Counts total sum tally (next result)) :
    Counts total sum tally ((serverFile op).bind next) := ⟨trivial, goes⟩

/-- The removal of the session from the map. -/
theorem counts_dropSession {next : Handler} (goes : Counts total sum tally next) :
    Counts total sum tally (dropSession upload next) := ⟨trivial, fun _ => goes⟩

variable {hasher : Sha256Hasher} {written : UInt64} {file : Handle} {session : TransferSession}

/-- The rename, and the answer. -/
theorem counts_commit (whole : sum = total) (counted : tally.map Prod.snd = some total) :
    Counts total sum tally (commitUpload upload) := by
  refine counts_file fun result => ?_
  cases result with
  | error error => exact counts_respond (by decide)
  | ok renamed =>
    refine counts_dropSession ?_
    rintro response - ok
    exact ⟨whole, counted⟩

/-- The comparison of the digests. -/
theorem counts_checkDigest {expected actual : String} (whole : sum = total)
    (counted : tally.map Prod.snd = some total) :
    Counts total sum tally (checkDigest upload expected actual) := by
  unfold checkDigest
  split
  · exact counts_dropSession (counts_file fun _ => counts_respond (by decide))
  · exact counts_commit whole counted

/-- The verification. -/
theorem counts_verify (whole : sum = total) (counted : tally.map Prod.snd = some total) :
    Counts total sum tally (verifyUpload sha256 upload hasher) := by
  unfold verifyUpload
  split
  · exact counts_commit whole counted
  · split
    · exact counts_checkDigest whole counted
    · refine counts_file fun result => ?_
      cases result with
      | error error => exact counts_respond (by decide)
      | ok bytes => exact counts_checkDigest whole counted

/-- What follows the loop compares the sum with the announced size. -/
theorem counts_finish (announced : upload.totalSize = total) :
    Counts total written (some (session, written)) (finishUpload sha256 upload hasher written file) := by
  refine counts_file fun result => ?_
  cases result with
  | error error => exact counts_respond (by decide)
  | ok flushed =>
    change Counts total written (some (session, written)) (if written ≠ upload.totalSize then _ else _)
    split
    · exact counts_dropSession (counts_respond (by decide))
    · rename_i equal
      have whole : written = total := (not_not.mp equal).trans announced
      exact counts_verify whole (congrArg some whole)

/-- The loop counts in its session what it adds to its sum. -/
theorem counts_chunkLoop (announced : upload.totalSize = total) {failure : Option String}
    {rest : List Bytes} (left : written + .ofNat rest.flatten.length = sum) :
    Counts total sum (some (session, written))
      (chunkLoop sha256 upload session failure rest hasher written file) := by
  induction rest generalizing hasher written file with
  | nil =>
    obtain rfl : written = sum := (UInt64.add_zero written).symm.trans left
    refine ⟨trivial, fun _ => ?_⟩
    cases failure with
    | some error => exact counts_dropSession (counts_respond (by decide))
    | none => exact counts_finish announced
  | cons chunk rest ih =>
    refine ⟨trivial, fun _ => ⟨trivial, fun cancelled => ?_⟩⟩
    cases cancelled with
    | true => exact counts_dropSession (counts_file fun _ => counts_respond (by decide))
    | false =>
      refine ⟨trivial, fun _ => counts_file fun result => ?_⟩
      cases result with
      | error error => exact counts_dropSession (counts_respond (by decide))
      | ok moved =>
        refine ⟨rfl, fun _ => ih ?_⟩
        rw [← left, List.flatten_cons, List.length_append, UInt64.ofNat_add, UInt64.add_assoc]

/-- An accepted upload counts from its offset on. -/
theorem counts_receive {paths : StoragePaths} {request : TransferRequest}
    (accepted : acceptRequest paths request.transferId request.headers = some (.ok upload)) :
    Counts upload.totalSize (upload.resumeOffset + .ofNat request.body.chunks.flatten.length) none
      (receiveTransfer sha256 paths request) := by
  have streams (file : Handle) : Counts upload.totalSize
      (upload.resumeOffset + .ofNat request.body.chunks.flatten.length) none
      (streamUpload sha256 upload request.body file) :=
    ⟨rfl, fun session => counts_chunkLoop rfl rfl⟩
  simp only [receiveTransfer, accepted]
  refine counts_file fun result => ?_
  cases result with
  | error error => exact counts_respond (by decide)
  | ok created =>
    refine counts_file fun result => ?_
    cases result with
    | error error => exact counts_respond (by decide)
    | ok opened =>
      change Counts _ _ none (if upload.resumeOffset > 0 then _ else _)
      split
      · refine counts_file fun result => ?_
        cases result with
        | error error => exact counts_respond (by decide)
        | ok positioned => exact streams positioned
      · exact streams opened

end

/-! ## Runs of the receiver -/

/-- The tally of a running handler. -/
def tallyOf (state : Receiving) : Tally :=
  state.session.map fun session => (session, (state.world.cells.content session.cell).bytesTransferred)

/-- A running handler counts properly, in a session with the announced size. -/
structure Tallied (total sum : UInt64) (state : Receiving) : Prop where
  counts : Counts total sum (tallyOf state) state.handler
  announced : ∀ session ∈ state.session, session.totalBytes = total

section

variable {total sum : UInt64} {before after : Receiving}

/-- Only the making of the session is observed of it. -/
theorem observe_session {op : ServerOp} (result : op.Result) (state : Receiving)
    (other : ∀ id name totalBytes initial, op ≠ .insertSession id name totalBytes initial) :
    (state.observe op result).session = state.session := by
  unfold Receiving.observe
  split
  · rename_i id name totalBytes initial session
    exact absurd rfl (other id name totalBytes initial)
  all_goals rfl

/-- The tally follows what an operation returns. -/
theorem tallyOf_observe {op : ServerOp} {fault : Fault} {result : op.Result} {world : ServerWorld}
    {handler : Handler} (proper : Proper total (tallyOf before) op)
    (ran : serverExec before.world op fault = some (result, world)) :
    tallyOf ({ before with handler, world }.observe op result) = retally (tallyOf before) op result := by
  have still (other : ∀ id name totalBytes initial, op ≠ .insertSession id name totalBytes initial)
      (same : retally (tallyOf before) op result = tallyOf before)
      (cells : world.cells = before.world.cells) :
      tallyOf ({ before with handler, world }.observe op result) =
        retally (tallyOf before) op result := by
    have made := observe_session result { before with handler, world } other
    rw [same]
    simp only [tallyOf, made, Receiving.observe_world, cells]
  cases op with
  | insertSession id name totalBytes initial =>
    obtain ⟨rfl, rfl⟩ := Prod.mk.inj (Option.some.inj ran)
    simp [tallyOf, retally, Receiving.observe]
  | addBytes session n =>
    obtain ⟨-, rfl⟩ := Prod.mk.inj (Option.some.inj ran)
    have own : (tallyOf before).map Prod.fst = some session := proper
    have made : before.session = some session := by simpa [tallyOf] using own
    simp [tallyOf, Receiving.observe, retally, made, SessionCells.addBytes]
  | file op => exact still (by simp) rfl (serverExec_file_sessions ran).2
  | removeSession | nextChunk | isCancelled =>
    obtain ⟨-, rfl⟩ := Prod.mk.inj (Option.some.inj ran)
    exact still (by simp) rfl rfl
  | awaitResumed =>
    obtain ⟨-, rfl⟩ := serverExec_awaitResumed ran
    exact still (by simp) rfl rfl

/-- A session that is made has the announced size. -/
theorem announced_observe {op : ServerOp} {fault : Fault} {result : op.Result} {world : ServerWorld}
    {handler : Handler} (announced : ∀ session ∈ before.session, session.totalBytes = total)
    (proper : Proper total (tallyOf before) op)
    (ran : serverExec before.world op fault = some (result, world)) :
    ∀ session ∈ ({ before with handler, world }.observe op result).session,
      session.totalBytes = total := by
  cases op with
  | insertSession id name totalBytes initial =>
    obtain ⟨rfl, rfl⟩ := Prod.mk.inj (Option.some.inj ran)
    rintro session ⟨⟩
    exact proper
  | file | addBytes | removeSession | nextChunk | isCancelled | awaitResumed =>
    rw [observe_session result { before with handler, world } (by simp)]
    exact announced

/-- An operation of the handler keeps the tally. -/
theorem Tallied.work {fault : Fault} (tallied : Tallied total sum before)
    (stepped : before.step (.work fault) = some after) : Tallied total sum after := by
  obtain ⟨op, next, waits⟩ := Receiving.step_work stepped
  obtain ⟨result, world, ran, rfl⟩ := Receiving.step_at waits stepped
  have counts := tallied.counts
  rw [waits] at counts
  obtain ⟨proper, goes⟩ := counts
  refine ⟨?_, announced_observe tallied.announced proper ran⟩
  rw [tallyOf_observe proper ran, Receiving.observe_handler]
  exact goes result

/-- So does a call on its session. -/
theorem Tallied.called {call : SessionCall} (tallied : Tallied total sum before)
    (stepped : before.step (.call call) = some after) : Tallied total sum after := by
  obtain ⟨session, made, rfl⟩ := Receiving.step_call stepped
  have same : tallyOf { before with world := before.world.call session.cell call } = tallyOf before := by
    simp [tallyOf, made, ServerWorld.call, SessionCells.call_bytes]
  exact ⟨by rw [same]; exact tallied.counts, tallied.announced⟩

/-- An upload that is answered with 200 has a session with the announced size, which has counted that
many bytes, and its offset and its body sum up to them. -/
theorem received_counts {sha256 : Sha256} {paths : StoragePaths} {request : TransferRequest}
    {upload : Upload} {world : ServerWorld} {reached : Receiving} {response : Response}
    (accepted : acceptRequest paths request.transferId request.headers = some (.ok upload))
    (path : Machine.Reaches Receiving.step Anyhow (.start sha256 paths request world) reached)
    (answered : reached.handler = .done (some response)) (ok : response.status = 200) :
    upload.resumeOffset + .ofNat request.body.chunks.flatten.length = upload.totalSize ∧
      ∃ session, reached.session = some session ∧ session.totalBytes = upload.totalSize ∧
        (reached.world.cells.content session.cell).bytesTransferred = upload.totalSize := by
  have tallied : Tallied upload.totalSize
      (upload.resumeOffset + .ofNat request.body.chunks.flatten.length) reached := by
    have start : Tallied upload.totalSize
        (upload.resumeOffset + .ofNat request.body.chunks.flatten.length)
        (.start sha256 paths request world) :=
      ⟨counts_receive accepted, by simp [Receiving.start]⟩
    refine path.invariant start ?_
    intro state move next tallied _ stepped
    cases move with
    | work fault => exact tallied.work stepped
    | call call => exact tallied.called stepped
  have counts := tallied.counts
  rw [answered] at counts
  obtain ⟨whole, counted⟩ := counts response rfl ok
  refine ⟨whole, ?_⟩
  cases made : reached.session with
  | none => simp [tallyOf, made] at counted
  | some session =>
    have announced := tallied.announced session made
    simp only [tallyOf, made, Option.map_some, Option.some.injEq] at counted
    exact ⟨session, rfl, announced, counted⟩

/-- Only an accepted upload is answered with 200. -/
theorem answered_accepted {sha256 : Sha256} {paths : StoragePaths} {request : TransferRequest}
    {world : ServerWorld} {reached : Receiving} {response : Response}
    (path : Machine.Reaches Receiving.step Anyhow (.start sha256 paths request world) reached)
    (answered : reached.handler = .done (some response)) (ok : response.status = 200) :
    ∃ upload, acceptRequest paths request.transferId request.headers = some (.ok upload) := by
  by_contra refused
  have never : ∀ upload, acceptRequest paths request.transferId request.headers ≠ some (.ok upload) :=
    fun upload accepted => refused ⟨upload, accepted⟩
  obtain ⟨reply, done, fails⟩ := refused_answered sha256 never
  have same := refused_reached never path
  subst same
  have replied : reply = some response := by
    have both := done.symm.trans answered
    exact Program.done.inj both
  have bad := fails response replied
  omega

end

/-! ## Both counts -/

/-- Both sessions have counted the same, and that is what either was made for. -/
def Agree (cells : SessionCells) (sending : TransferSession) (reached : Receiving) : Prop :=
  ∃ receiving, reached.session = some receiving ∧
    (cells.content sending.cell).bytesTransferred =
      (reached.world.cells.content receiving.cell).bytesTransferred ∧
    (reached.world.cells.content receiving.cell).bytesTransferred = sending.totalBytes ∧
    sending.totalBytes = receiving.totalBytes

section

variable {http : Http} {sha256 : Sha256} {paths : StoragePaths} {queue later : TransferQueue}
variable {cells started : SessionCells} {queued : QueuedTransfer} {session : TransferSession}
variable {source : SourceFile} {receiverAddr : SocketAddr} {transferId : Uuid} {filePath : String}
variable {opts : SendOptions} {request : SendRequest} {outgoing : Outgoing} {body : Body}
variable {arriving : TransferRequest} {world : ServerWorld} {reached : Receiving} {response : Response}

/-- An entry that becomes active gets a session that has counted nothing. -/
theorem activated_session
    (activated : QueueOp.exec queue cells (.activate queued) = some (session, later, started)) :
    session.totalBytes = queued.totalBytes ∧ (started.content session.cell).bytesTransferred = 0 := by
  obtain ⟨rfl, rest⟩ := Prod.mk.inj (Option.some.inj activated)
  obtain ⟨-, rfl⟩ := Prod.mk.inj rest
  simp

/-- When a send of a file that stays as it is is answered with 200, the sender has counted what the file
has from the offset on, and the receiver its whole size. -/
theorem both_counts (within : opts.resumeFrom.toNat ≤ source.content.length)
    (fresh : (started.content session.cell).bytesTransferred = 0)
    (posts : Posts sha256 source receiverAddr transferId filePath session opts request)
    (polled : Machine.Reaches Outgoing.step (fun _ _ => True) (request.outgoing source started) outgoing)
    (arrived : body.chunks.flatten <+: outgoing.chunks.flatten)
    (arrives : request.arriving http body = some arriving)
    (path : Machine.Reaches Receiving.step Anyhow (.start sha256 paths arriving world) reached)
    (answered : reached.handler = .done (some response)) (ok : response.status = 200) :
    (outgoing.cells.content session.cell).bytesTransferred.toNat =
        source.content.length - opts.resumeFrom.toNat ∧
      ∃ receiving, reached.session = some receiving ∧
        receiving.totalBytes = .ofNat source.content.length ∧
        (reached.world.cells.content receiving.cell).bytesTransferred =
          .ofNat source.content.length := by
  obtain ⟨checksum, digest, announces⟩ := posts.announces
  have hex : ∀ hash ∈ checksum, ∀ c ∈ hash.toList, c ∈ hexDigits := by
    intro hash given
    have same := digest hash given
    exact sha256Hex_announced sha256 source.content hash (congrArg some same.symm)
  obtain ⟨headers, headed, rfl⟩ := Option.map_eq_some_iff.mp arrives
  obtain ⟨upload, accepted⟩ := answered_accepted path answered ok
  rw [announces.headers] at headed
  obtain ⟨size, -, offset⟩ := accepted_announced hex headed accepted
  obtain ⟨whole, receiving, made, announced, counted⟩ := received_counts accepted path answered ok
  rw [size] at whole announced counted
  refine ⟨?_, receiving, made, announced, counted⟩
  have sent := SendRequest.outgoing_counted polled
  rw [announces.given, announces.offset, fresh] at sent
  have read := sent.counted
  rw [UInt64.zero_add] at read
  have all : outgoing.chunks.flatten.length ≤ source.content.length - opts.resumeFrom.toNat := by
    have left := congrArg List.length sent.left
    rw [List.length_append, List.length_drop, List.length_drop] at left
    omega
  have part := arrived.length_le
  have sized := source.size_lt
  have total := congrArg UInt64.toNat whole
  rw [offset, UInt64.toNat_add, UInt64.toNat_ofNat', UInt64.toNat_ofNat'] at total
  change (opts.resumeFrom.toNat + body.chunks.flatten.length % 2 ^ 64) % 2 ^ 64 = _ at total
  rw [read, UInt64.toNat_ofNat']
  omega

/-- When a send of a file that stays as it is is answered with 200, both sessions have counted the same,
and the size that either was made for, exactly when the send started at the beginning of the file. -/
theorem same_count_iff
    (activated : QueueOp.exec queue cells (.activate queued) = some (session, later, started))
    (sized : queued.totalBytes = .ofNat source.content.length)
    (within : opts.resumeFrom.toNat ≤ source.content.length)
    (posts : Posts sha256 source receiverAddr transferId filePath session opts request)
    (polled : Machine.Reaches Outgoing.step (fun _ _ => True) (request.outgoing source started) outgoing)
    (arrived : body.chunks.flatten <+: outgoing.chunks.flatten)
    (arrives : request.arriving http body = some arriving)
    (path : Machine.Reaches Receiving.step Anyhow (.start sha256 paths arriving world) reached)
    (answered : reached.handler = .done (some response)) (ok : response.status = 200) :
    Agree outgoing.cells session reached ↔ opts.resumeFrom = 0 := by
  obtain ⟨total, fresh⟩ := activated_session activated
  obtain ⟨sent, receiving, made, announced, counted⟩ :=
    both_counts within fresh posts polled arrived arrives path answered ok
  have whole : (UInt64.ofNat source.content.length).toNat = source.content.length :=
    UInt64.toNat_ofNat_of_lt' source.size_lt
  constructor
  · rintro ⟨other, also, same, -⟩
    obtain rfl := Option.some.inj (made.symm.trans also)
    have equal := congrArg UInt64.toNat same
    rw [sent, counted, whole] at equal
    apply UInt64.toNat_inj.mp
    change opts.resumeFrom.toNat = 0
    omega
  · intro beginning
    refine ⟨receiving, made, ?_, ?_, ?_⟩
    · apply UInt64.toNat_inj.mp
      rw [sent, counted, whole, beginning]
      rfl
    · rw [counted, total, sized]
    · rw [announced, total, sized]

end

/-! ## A sample send -/

/-- Two bytes are few enough. -/
theorem source_sized : [(1 : UInt8), 2].length < offsetLimit := by decide

/-- A file of the bytes 1 and 2. -/
def sampleSource : SourceFile := ⟨[1, 2], source_sized⟩

/-- Its entry in the queue. -/
def sampleQueued : QueuedTransfer := ⟨sampleId, "a", "a", 2, ⟨9⟩, .send, .connecting⟩

/-- The session of the entry. -/
def sampleSession : TransferSession := ⟨sampleId, "a", 2, .send, 0⟩

/-- The request of a send from an offset. -/
def sampleSend (resumeFrom : UInt64) (contentRange : Option String) : SendRequest where
  receiverAddr := ⟨"10.0.0.2:53317"⟩
  transferId := sampleId
  headers := ⟨"a", "2", none, contentRange⟩
  file := ⟨"a", resumeFrom.toNat⟩
  session := sampleSession

/-- The request as it arrives, with a body. -/
def sampleArriving (contentRange : Option String) (body : Body) : TransferRequest where
  transferId := sampleId
  headers := ⟨some ⟨some "a"⟩, some ⟨some "2"⟩, none, contentRange.map fun text => ⟨some text⟩⟩
  body := body

/-- The file is not ready, gives one byte, and then the rest. -/
def samplePolls : List OutgoingMove := [.poll .pending, .poll (.ready 1), .poll (.ready 8)]

/-- A handler that is at its end has answered with this status. -/
def status : Handler → Option Nat
  | .done (some response) => some response.status
  | _ => none

/-- A handler with a status has answered. -/
theorem answered_of_status {handler : Handler} {code : Nat} (answers : status handler = some code) :
    ∃ response, handler = .done (some response) ∧ response.status = code := by
  unfold status at answers
  split at answers
  · rename_i response
    exact ⟨response, rfl, Option.some.inj answers⟩
  · cases answers

/-- The sample send posts its request. -/
theorem sampleSend_posts (resumeFrom : UInt64) (contentRange : Option String)
    (ran : ((sendFile clientCall sampleSha256 ⟨"10.0.0.2:53317"⟩ sampleId "a" sampleSession
      ⟨resumeFrom, false⟩).solo (steadyExec sampleSource) (fun _ => ⟨none, .error "closed"⟩) []).map
        Prod.snd = some [sampleSend resumeFrom contentRange]) :
    Posts sampleSha256 sampleSource ⟨"10.0.0.2:53317"⟩ sampleId "a" sampleSession ⟨resumeFrom, false⟩
      (sampleSend resumeFrom contentRange) := by
  obtain ⟨⟨result, posted⟩, ran, same⟩ := Option.map_eq_some_iff.mp ran
  refine ⟨_, result, posted, ran, ?_⟩
  rw [show posted = _ from same]
  exact List.mem_singleton_self _

/-- A whole file is read in two polls, arrives in one chunk, and is counted alike at both ends. -/
theorem same_count_iff_whole : ∃ arriving outgoing reached,
    (sampleSend 0 none).arriving .plain ⟨[[1, 2]], none⟩ = some arriving ∧
      Machine.run Outgoing.step (fun _ _ => True) samplePolls
        ((sampleSend 0 none).outgoing sampleSource (SessionCells.none.allocate 0).2) = some outgoing ∧
      Machine.run Receiving.step Anyhow (List.replicate 12 (.work .none))
        (.start sampleSha256 samplePaths arriving emptyServer) = some reached ∧
      Agree outgoing.cells sampleSession reached := by
  have arrives : (sampleSend 0 none).arriving .plain ⟨[[1, 2]], none⟩ =
      some (sampleArriving none ⟨[[1, 2]], none⟩) := by
    decide +kernel
  have posts := sampleSend_posts 0 none (by decide +kernel)
  have reads : (Machine.run Outgoing.step (fun _ _ => True) samplePolls
      ((sampleSend 0 none).outgoing sampleSource (SessionCells.none.allocate 0).2)).map
        (fun outgoing => outgoing.chunks.flatten) = some [1, 2] := by
    decide +kernel
  have serves : (Machine.run Receiving.step Anyhow (List.replicate 12 (.work .none))
      (.start sampleSha256 samplePaths (sampleArriving none ⟨[[1, 2]], none⟩) emptyServer)).map
        (fun reached => status reached.handler) = some (some 200) := by
    decide +kernel
  obtain ⟨outgoing, polled, sent⟩ := Option.map_eq_some_iff.mp reads
  obtain ⟨reached, served, answer⟩ := Option.map_eq_some_iff.mp serves
  obtain ⟨response, answered, ok⟩ := answered_of_status answer
  have arrived : ([[1, 2]] : List Bytes).flatten <+: outgoing.chunks.flatten := by
    rw [sent]
    decide
  have activated : QueueOp.exec .new .none (.activate sampleQueued) =
      some (sampleSession, _, (SessionCells.none.allocate 0).2) := rfl
  refine ⟨_, outgoing, reached, arrives, polled, served, ?_⟩
  exact (same_count_iff activated rfl (Nat.zero_le _) posts (Machine.reaches_of_run polled) arrived
    arrives (Machine.reaches_of_run served) answered ok).mpr rfl

/-- The staging file of the first byte. -/
def stagedServer : ServerWorld :=
  let staging := stagingPath samplePaths sampleId
  let (file, files) := (FileStore.empty : FileStore Path).openWrite staging true
  { emptyServer with files := (files.write file [1]).2 }

/-- A send that continues after the first byte is answered with 200, and its session has counted one byte
where the receiver's has counted two. -/
theorem same_count_broken :
    ¬∀ (http : Http) (sha256 : Sha256) (paths : StoragePaths) (queue later : TransferQueue)
      (cells started : SessionCells) (queued : QueuedTransfer) (session : TransferSession)
      (source : SourceFile) (receiverAddr : SocketAddr) (transferId : Uuid) (filePath : String)
      (opts : SendOptions) (request : SendRequest) (outgoing : Outgoing) (body : Body)
      (arriving : TransferRequest) (world : ServerWorld) (reached : Receiving) (response : Response),
      QueueOp.exec queue cells (.activate queued) = some (session, later, started) →
      queued.totalBytes = .ofNat source.content.length →
      opts.resumeFrom.toNat ≤ source.content.length →
      Posts sha256 source receiverAddr transferId filePath session opts request →
      Machine.Reaches Outgoing.step (fun _ _ => True) (request.outgoing source started) outgoing →
      body.chunks.flatten <+: outgoing.chunks.flatten →
      request.arriving http body = some arriving →
      Machine.Reaches Receiving.step Anyhow (.start sha256 paths arriving world) reached →
      reached.handler = .done (some response) → response.status = 200 →
      Agree outgoing.cells session reached := by
  intro always
  have posts := sampleSend_posts 1 (some "bytes 1-1/2") (by decide +kernel)
  have arrives : (sampleSend 1 (some "bytes 1-1/2")).arriving .plain ⟨[[2]], none⟩ =
      some (sampleArriving (some "bytes 1-1/2") ⟨[[2]], none⟩) := by
    decide +kernel
  have reads : (Machine.run Outgoing.step (fun _ _ => True) samplePolls
      ((sampleSend 1 (some "bytes 1-1/2")).outgoing sampleSource
        (SessionCells.none.allocate 0).2)).map
        (fun outgoing => outgoing.chunks.flatten) = some [2] := by
    decide +kernel
  have serves : (Machine.run Receiving.step Anyhow (List.replicate 13 (.work .none))
      (.start sampleSha256 samplePaths (sampleArriving (some "bytes 1-1/2") ⟨[[2]], none⟩)
        stagedServer)).map (fun reached => status reached.handler) = some (some 200) := by
    decide +kernel
  obtain ⟨outgoing, polled, sent⟩ := Option.map_eq_some_iff.mp reads
  obtain ⟨reached, served, answer⟩ := Option.map_eq_some_iff.mp serves
  obtain ⟨response, answered, ok⟩ := answered_of_status answer
  have arrived : ([[2]] : List Bytes).flatten <+: outgoing.chunks.flatten := by
    rw [sent]
    decide
  have activated : QueueOp.exec .new .none (.activate sampleQueued) =
      some (sampleSession, _, (SessionCells.none.allocate 0).2) := rfl
  have within : (1 : UInt64).toNat ≤ sampleSource.content.length := by decide
  have outgoes := Machine.reaches_of_run polled
  have serving := Machine.reaches_of_run served
  have agree := always _ _ _ _ _ _ _ _ _ _ _ _ _ _ _ _ _ _ _ _ _ activated rfl within posts outgoes
    arrived arrives serving answered ok
  obtain ⟨fewer, receiving, made, -, counted⟩ :=
    both_counts within (activated_session activated).2 posts outgoes arrived arrives serving answered ok
  obtain ⟨other, also, same, -⟩ := agree
  obtain rfl := Option.some.inj (made.symm.trans also)
  have equal := congrArg UInt64.toNat same
  rw [fewer, counted] at equal
  exact absurd equal (by decide)

end FileDrop.SameCount
