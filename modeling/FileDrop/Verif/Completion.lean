import FileDrop.Ffi.Api
import FileDrop.Transfer.Exchange
import FileDrop.Verif.Verified

/-!
# A completed send and the delivered file

A task reads its source four times, and any answer of the success class completes it. A body of
another size than the announced one is answered with 206, which is of that class, and the digest in
the event comes from the last read. So the event tells the truth as long as a whole body has the
announced size and the last read gives the announced digest.
-/
namespace FileDrop.Completion
open Effects Effects.Program Unix Resume
open Verified (Verdict receive_solo)

/-- A response of the success class is the verdict on an accepted upload. -/
theorem deliver_success {http : Http} {sha256 : Sha256} {paths : StoragePaths} {receiver after : Receiver}
    {request : SendRequest} {delivery : Delivery} {response : Response}
    (ran : receiver.deliver http sha256 paths request delivery = some (.ok response, after))
    (success : isSuccess response.status) :
    ∃ headers upload, request.headers.arriving http = some headers ∧
      acceptRequest paths request.transferId headers = some (.ok upload) ∧
      Verdict sha256 upload (delivery.body request.file) response after.server ∧
      after.answers = some response :: receiver.answers := by
  obtain ⟨arriving, got⟩ :
      ∃ arriving, request.arriving http (delivery.body request.file) = some arriving := by
    cases got : request.arriving http (delivery.body request.file) with
    | none =>
      simp only [Receiver.deliver, got] at ran
      cases ran
    | some arriving => exact ⟨arriving, rfl⟩
  rw [Receiver.deliver_arriving got] at ran
  obtain ⟨headers, arrives, rfl⟩ := Option.map_eq_some_iff.mp got
  obtain ⟨⟨reply, server⟩, handled, same⟩ := Option.map_eq_some_iff.mp ran
  obtain ⟨arrived, rfl⟩ := Prod.mk.inj same
  have answered : reply = some response := by
    cases reply with
    | none => cases lost : delivery.lost <;> simp [responseReceived, lost] at arrived
    | some other =>
      cases lost : delivery.lost with
      | none =>
        simp only [responseReceived, lost, Except.ok.injEq] at arrived
        rw [arrived]
      | some text => simp [responseReceived, lost] at arrived
  subst answered
  have small : response.status < 300 := by
    simp only [isSuccess, Bool.and_eq_true, decide_eq_true_eq] at success
    exact success.2
  obtain ⟨upload, accepted, verdict⟩ := receive_solo handled small
  exact ⟨headers, upload, arrives, accepted, verdict, rfl⟩

section

variable {http : Http} {sha256 : Sha256} {paths : StoragePaths} {choices : Nat → EngineChoice SendChoice}
variable {world after : EngineWorld Receiver}

/-- A client operation of a task touches the network only. -/
theorem solo_client {α : Type} {op : ClientOp} {rest : op.Result → Program engineSig α} {value : α}
    (ran : (perform (.client op) rest : Program engineSig α).solo
      (engineExec (clientExec http sha256 paths)) choices world = some (value, after)) :
    ∃ result net, clientExec http sha256 paths world.net op (choices 0).net = some (result, net) ∧
      (rest result).solo (engineExec (clientExec http sha256 paths)) (fun later => choices (later + 1))
        { world with net } = some (value, after) := by
  obtain ⟨result, middle, performed, rest⟩ := solo_perform ran
  obtain ⟨net, answered, rfl⟩ := engineExec_client performed
  exact ⟨result, net, answered, rest⟩

/-- A queue operation of a task touches neither the events nor the network. -/
theorem solo_queue {α : Type} {op : QueueOp} {rest : op.Result → Program engineSig α} {value : α}
    (ran : (perform (.queue op) rest : Program engineSig α).solo
      (engineExec (clientExec http sha256 paths)) choices world = some (value, after)) :
    ∃ result middle, (rest result).solo (engineExec (clientExec http sha256 paths))
        (fun later => choices (later + 1)) middle = some (value, after) ∧
      middle.events = world.events ∧ middle.net = world.net := by
  obtain ⟨result, middle, performed, rest⟩ := solo_perform ran
  obtain ⟨queue, cells, -, rfl⟩ := engineExec_queue performed
  exact ⟨result, _, rest, rfl, rfl⟩

/-- The end of a task: the event of its result, with the digest of one more read. -/
theorem solo_report {task : SendTask} {result : SendResult}
    (ran : ((reportSend sha256 task result).bind fun _ =>
      (TransferQueue.markFinished queueCall task.transferId).bind fun _ =>
        queueCall .releasePermit).solo (engineExec (clientExec http sha256 paths)) choices world =
          some ((), after)) :
    (∃ text, after.events = world.events ++ [.transferFailed task.transferId text]) ∨
      result = .ok () ∧ after.net = world.net ∧
        after.events = world.events ++ [.transferCompleted task.transferId
          (((choices 0).net.source.map fun file =>
            sha256Hex sha256 file.content).toOption.getD "")] := by
  cases result with
  | error error =>
    obtain ⟨_, emitted, announced, ran⟩ := solo_perform ran
    obtain ⟨_, marked, ran, events, -⟩ := solo_queue ran
    obtain ⟨_, released, ran, still, -⟩ := solo_queue ran
    obtain ⟨-, last⟩ := solo_done ran
    obtain ⟨-, rfl⟩ := Prod.mk.inj (Option.some.inj announced)
    exact .inl ⟨error.toText, by rw [last, still, events]⟩
  | ok done =>
    obtain ⟨content, net, read, ran⟩ := solo_client ran
    obtain ⟨_, emitted, announced, ran⟩ := solo_perform ran
    obtain ⟨_, marked, ran, events, unmoved⟩ := solo_queue ran
    obtain ⟨_, released, ran, still, kept⟩ := solo_queue ran
    obtain ⟨-, last⟩ := solo_done ran
    obtain ⟨rfl, rfl⟩ := Prod.mk.inj (Option.some.inj read)
    obtain ⟨-, rfl⟩ := Prod.mk.inj (Option.some.inj announced)
    refine .inr ⟨rfl, by rw [last, kept, unmoved], ?_⟩
    rw [last, still, events]
    cases (choices 0).net.source <;> rfl

/-- A send that returns `Ok` posted a request whose response is of the success class. -/
theorem solo_sendFile {α : Type} {addr : SocketAddr} {id : Uuid} {path : String}
    {session : TransferSession} {rest : SendResult → Program engineSig α} {value : α}
    (ran : ((sendFile engineClient sha256 addr id path session .default).bind rest).solo
      (engineExec (clientExec http sha256 paths)) choices world = some (value, after)) :
    (∃ error later net, (rest (.error error)).solo (engineExec (clientExec http sha256 paths)) later
      { world with net } = some (value, after)) ∨
    ∃ sized hashed response net, (choices 0).net.source = .ok sized ∧
      (choices 1).net.source = .ok hashed ∧
      world.net.deliver http sha256 paths ⟨addr, id, sendHeaders ((pathFileName path).getD "unnamed_file")
          (.ofNat sized.content.length) (some (sha256Hex sha256 hashed.content)) 0, .opened path, session⟩
        (choices 3).net.delivery = some (.ok response, net) ∧
      isSuccess response.status ∧
      (rest (.ok ())).solo (engineExec (clientExec http sha256 paths)) (fun later => choices (later + 4))
        { world with net } = some (value, after) := by
  obtain ⟨size, net, measured, ran⟩ := solo_client ran
  obtain ⟨rfl, rfl⟩ := Prod.mk.inj (Option.some.inj measured)
  cases sized : (choices 0).net.source with
  | error error =>
    rw [sized] at ran
    exact .inl ⟨.io error, _, _, ran⟩
  | ok source =>
    rw [sized] at ran
    obtain ⟨content, net, read, ran⟩ := solo_client ran
    obtain ⟨rfl, rfl⟩ := Prod.mk.inj (Option.some.inj read)
    cases hashed : (choices 1).net.source with
    | error error =>
      rw [hashed] at ran
      exact .inl ⟨.io error, _, _, ran⟩
    | ok file =>
      rw [hashed] at ran
      obtain ⟨opened, net, opens, ran⟩ := solo_client ran
      obtain ⟨rfl, rfl⟩ := Prod.mk.inj (Option.some.inj opens)
      cases found : (choices 2).net.source with
      | error error =>
        rw [found] at ran
        exact .inl ⟨.io error, _, _, ran⟩
      | ok same =>
        rw [found] at ran
        simp only [Except.map, bind_done, SendOptions.default, gt_iff_lt] at ran
        obtain ⟨reply, net, delivered, ran⟩ := solo_client ran
        cases reply with
        | error text => exact .inl ⟨_, _, net, ran⟩
        | ok response =>
          have ends : (rest (readResponse (.ok response))).solo
              (engineExec (clientExec http sha256 paths)) (fun later => choices (later + 4))
              { world with net } = some (value, after) := ran
          by_cases success : isSuccess response.status
          · rw [readResponse, if_pos success] at ends
            exact .inr ⟨source, file, response, net, rfl, rfl, delivered, success, ends⟩
          · rw [readResponse, if_neg success] at ends
            exact .inl ⟨_, _, net, ends⟩

end

/-! ## Runs of a task -/

/-- The source file as the size is read, in the fifth operation of a task. -/
def sized (choices : Nat → EngineChoice SendChoice) : Except IoError SourceFile :=
  (choices 4).net.source

/-- The source file as it is hashed for the header. -/
def hashed (choices : Nat → EngineChoice SendChoice) : Except IoError SourceFile :=
  (choices 5).net.source

/-- The body as the sender streams it from the beginning of its file and it reaches the receiver. -/
def streamed (path : String) (choices : Nat → EngineChoice SendChoice) : Body :=
  (choices 7).net.delivery.body (.opened path)

/-- The source file as it is hashed for the event. -/
def rehashed (choices : Nat → EngineChoice SendChoice) : Except IoError SourceFile :=
  (choices 8).net.source

/-- The reads of a task agree as far as the event depends on them. -/
structure Steady (sha256 : Sha256) (path : String) (choices : Nat → EngineChoice SendChoice) :
    Prop where
  /-- A body that arrives whole has the announced size. -/
  size : ∀ file, sized choices = .ok file → (streamed path choices).failure = none →
    (streamed path choices).chunks.flatten.length = file.content.length
  /-- If the body has the announced digest, so has the file that is read last. -/
  digest : ∀ file, hashed choices = .ok file →
    sha256Hex sha256 (streamed path choices).chunks.flatten = sha256Hex sha256 file.content →
      ∃ again, rehashed choices = .ok again ∧
        sha256Hex sha256 again.content = sha256Hex sha256 file.content

/-- The receiver answered that the transfer is complete, and the file it moved has a digest. -/
def DeliveredAs (http : Http) (sha256 : Sha256) (paths : StoragePaths) (path digest : String)
    (receiver : Receiver) : Prop :=
  ∃ response earlier name bytes, receiver.answers = some response :: earlier ∧
    response.status = 200 ∧
    (http.reads ((pathFileName path).getD "unnamed_file")).bind sanitizeFilename = some name ∧
    receiver.server.files.read (paths.receivedFilesDir ++ [name]) = some bytes ∧
    sha256Hex sha256 bytes = digest

/-- When the reads of a task agree, a response of the success class tells that the receiver has a file of
the announced digest, which is that of the file that is read last. -/
theorem deliveredAs_of_success {http : Http} {sha256 : Sha256} {paths : StoragePaths}
    {path : String} {choices : Nat → EngineChoice SendChoice} (steady : Steady sha256 path choices)
    {size hash : SourceFile} (sizes : sized choices = .ok size) (hashes : hashed choices = .ok hash)
    {before after : Receiver} {addr : SocketAddr} {id : Uuid} {session : TransferSession}
    {response : Response}
    (delivered : before.deliver http sha256 paths ⟨addr, id,
      sendHeaders ((pathFileName path).getD "unnamed_file") (.ofNat size.content.length)
        (some (sha256Hex sha256 hash.content)) 0, .opened path, session⟩
      (choices 7).net.delivery = some (.ok response, after))
    (success : isSuccess response.status) :
    ∃ again, rehashed choices = .ok again ∧
      DeliveredAs http sha256 paths path (sha256Hex sha256 again.content) after := by
  obtain ⟨headers, upload, arrives, accepted, verdict, answers⟩ := deliver_success delivered success
  have hex := sha256Hex_announced sha256 hash.content
  obtain ⟨total, expected, fresh⟩ := accepted_announced hex arrives accepted
  obtain ⟨-, -, final, name, -, -, -⟩ := acceptRequest_ok accepted
  rw [(SendHeaders.arriving_reads arrives).1] at name
  have small : response.status < 300 := by
    simp only [isSuccess, Bool.and_eq_true, decide_eq_true_eq] at success
    exact success.2
  rcases verdict.success small with complete | incomplete
  · obtain ⟨-, -, bytes, reads, agrees, whole⟩ := verdict.complete complete
    have announced := agrees _ expected
    have body := whole fresh
    rw [body] at announced
    obtain ⟨again, read, same⟩ := steady.digest hash hashes announced
    refine ⟨again, read, response, _, upload.safeName, bytes, answers, complete, name, ?_, ?_⟩
    · rw [← final]
      exact reads
    · rw [same, body, announced]
  · obtain ⟨ended, short⟩ := verdict.incomplete incomplete
    have length : (streamed path choices).chunks.flatten.length = size.content.length :=
      steady.size size sizes ended
    refine absurd ?_ short
    change upload.resumeOffset + .ofNat (streamed path choices).chunks.flatten.length = _
    rw [fresh, total, length, UInt64.zero_add]

/-- When the reads of a task agree, the event that completes it tells what the receiver has. -/
theorem completed_delivered {http : Http} {sha256 : Sha256} {paths : StoragePaths} {task : SendTask}
    {choices : Nat → EngineChoice SendChoice} {world after : EngineWorld Receiver} {digest : String}
    (ran : (runQueuedSend sha256 task).solo (engineExec (clientExec http sha256 paths)) choices world =
      some ((), after))
    (steady : Steady sha256 task.path choices)
    (new : .transferCompleted task.transferId digest ∉ world.events)
    (completed : .transferCompleted task.transferId digest ∈ after.events) :
    DeliveredAs http sha256 paths task.path digest after.net := by
  obtain ⟨_, permitted, ran, events, -⟩ := solo_queue ran
  obtain ⟨taken, popped, ran, still, -⟩ := solo_queue ran
  rw [← events, ← still] at new
  cases taken with
  | none =>
    obtain ⟨_, released, ran, same, -⟩ := solo_queue ran
    obtain ⟨-, last⟩ := solo_done ran
    rw [last, same] at completed
    exact absurd completed new
  | some entry =>
    obtain ⟨session, active, ran, same, -⟩ := solo_queue ran
    obtain ⟨_, started, announced, ran⟩ := solo_perform ran
    obtain ⟨-, rfl⟩ := Prod.mk.inj (Option.some.inj announced)
    -- the only events of a task are its start and its end
    have last {event : FileDropEvent} (ends : after.events = active.events ++
        [.transferStarted task.transferId task.fileName task.totalBytes] ++ [event]) :
        event = .transferCompleted task.transferId digest := by
      rw [ends, same] at completed
      simpa [new, eq_comm] using completed
    rcases solo_sendFile ran with ⟨error, later, net, ends⟩ |
      ⟨size, hash, response, net, sizes, hashes, delivered, success, ends⟩
    · rcases solo_report ends with ⟨text, failed⟩ | ⟨returned, -, -⟩
      · cases last failed
      · cases returned
    · rcases solo_report ends with ⟨text, failed⟩ | ⟨-, kept, reported⟩
      · cases last failed
      · have kept : after.net = net := kept
        obtain ⟨again, read, has⟩ := deliveredAs_of_success steady sizes hashes delivered success
        have told : digest = sha256Hex sha256 again.content := by
          have event := last reported
          have source : (choices 8).net.source = .ok again := read
          simp only [Nat.zero_add, source] at event
          exact (FileDropEvent.transferCompleted.inj event).2.symm
        rw [told, kept]
        exact has

/-! ## A sample task -/

/-- The task of the file `a`, which has two bytes when it is enqueued. -/
def sampleTask : SendTask := ⟨⟨"10.0.0.2:9000"⟩, sampleId, "a", "a", 2⟩

/-- The sending engine with the task's entry in its queue, and a receiver that has nothing. -/
def sampleEngine : EngineWorld Receiver :=
  { EngineWorld.new ⟨emptyServer, [], []⟩ with
    queue := ⟨[⟨sampleId, "a", "a", 2, ⟨1⟩, .send, .queued⟩], [], maxParallelTransfers⟩ }

/-- A file of two bytes is small enough. -/
theorem sample_sized : [(1 : UInt8), 2].length < offsetLimit := by
  decide

/-- The source is a file of the bytes 1 and 2 up to the request, then it may be another one. -/
def sampleChoices (later : SourceFile) (n : Nat) : EngineChoice SendChoice where
  id := ⟨0⟩
  net :=
    ⟨.ok (if n < 7 then ⟨[1, 2], sample_sized⟩ else later),
      [⟨later.content, .ready 8⟩, ⟨later.content, .ready 8⟩], ⟨[], none, ""⟩, fun _ => .none, none⟩

/-- What a run of the sample task ends with: the events, and how the receiver answered. -/
def sampleRun (later : SourceFile) : Option (List FileDropEvent × List (Option Nat)) :=
  ((runQueuedSend sampleSha256 sampleTask).solo
    (engineExec (clientExec .plain sampleSha256 samplePaths)) (sampleChoices later) sampleEngine).map
      fun ended => (ended.2.events, ended.2.net.answers.map fun answer => answer.map (·.status))

/-- A source that does not change. -/
theorem completed_delivered_steady : ∃ after,
    (runQueuedSend sampleSha256 sampleTask).solo (engineExec (clientExec .plain sampleSha256 samplePaths))
        (sampleChoices ⟨[1, 2], by decide⟩) sampleEngine = some ((), after) ∧
      DeliveredAs .plain sampleSha256 samplePaths "a" (sha256Hex sampleSha256 [1, 2]) after.net := by
  have runs : sampleRun ⟨[1, 2], by decide⟩ = some ([.transferStarted sampleId "a" 2,
      .transferCompleted sampleId (sha256Hex sampleSha256 [1, 2])], [some 200]) := by
    decide +kernel
  obtain ⟨⟨_, after⟩, ran, ended⟩ := Option.map_eq_some_iff.mp runs
  have events := (Prod.mk.inj ended).1
  have steady : Steady sampleSha256 "a" (sampleChoices ⟨[1, 2], by decide⟩) := {
    size := by
      rintro file ⟨rfl⟩ -
      rfl
    digest := by
      rintro file ⟨rfl⟩ -
      exact ⟨_, rfl, rfl⟩ }
  have completed : .transferCompleted sampleId (sha256Hex sampleSha256 [1, 2]) ∈ after.events := by
    rw [events]
    simp
  have new : .transferCompleted sampleId (sha256Hex sampleSha256 [1, 2]) ∉ sampleEngine.events :=
    List.not_mem_nil
  exact ⟨after, ran, @completed_delivered .plain sampleSha256 samplePaths sampleTask _ sampleEngine after _
    ran steady new completed⟩

/-- A source that loses a byte before it is streamed is completed with what is left of it, which the
receiver has not accepted. -/
theorem completed_delivered_broken :
    ¬∀ (http : Http) (sha256 : Sha256) (paths : StoragePaths) (task : SendTask)
      (choices : Nat → EngineChoice SendChoice) (world after : EngineWorld Receiver)
      (digest : String),
      (runQueuedSend sha256 task).solo (engineExec (clientExec http sha256 paths)) choices world =
        some ((), after) →
      .transferCompleted task.transferId digest ∉ world.events →
      .transferCompleted task.transferId digest ∈ after.events →
      DeliveredAs http sha256 paths task.path digest after.net := by
  intro always
  have runs : sampleRun ⟨[1], by decide⟩ = some ([.transferStarted sampleId "a" 2,
      .transferCompleted sampleId (sha256Hex sampleSha256 [1])], [some 206]) := by
    decide +kernel
  obtain ⟨⟨_, after⟩, ran, ended⟩ := Option.map_eq_some_iff.mp runs
  obtain ⟨events, answers⟩ := Prod.mk.inj ended
  have completed : .transferCompleted sampleId (sha256Hex sampleSha256 [1]) ∈ after.events := by
    rw [events]
    simp
  obtain ⟨response, earlier, name, bytes, answered, complete, -⟩ := always .plain _ _ _ _ _ after _ ran
    (by simp [sampleEngine, EngineWorld.new]) completed
  rw [answered] at answers
  simp [complete] at answers

end FileDrop.Completion
