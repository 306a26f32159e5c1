import FileDrop.Verif.Received

/-!
# Uploads that have nothing to do with each other

Uploads with different ids and different names, at once or one after another in any order: when no
file operation fails, each of them comes to the same answer, and the same files and sessions are
left. Handling them in turn is a run of the same handlers, and what any run leaves once all of them
are finished depends on the requests and the start alone.
-/
namespace FileDrop.Independent
open FileDrop Effects Effects.Program Unix Isolation Received Resume

section

variable {ι : Type} (sha256 : Sha256) (paths : StoragePaths) (requests : ι → TransferRequest)

/-- Handle requests one after another, and collect the answers. -/
def inTurn : List ι → ServerWorld → Option (List (ι × Option Response) × ServerWorld)
  | [], world => some ([], world)
  | i :: rest, world =>
    (serve sha256 paths world (requests i)).bind fun (reply, after) =>
      (inTurn rest after).map fun (replies, last) => ((i, reply) :: replies, last)

/-- No two uploads have the same sanitized name. -/
def DistinctNames : Prop := ∀ i j upload other, Accepts paths requests i upload →
  Accepts paths requests j other → upload.safeName = other.safeName → i = j

variable {sha256 paths requests}

/-- With different names, two uploads that are renamed to one path are the same. -/
theorem final_unique (names : DistinctNames paths requests) {i j : ι} {upload later : Upload}
    (accepts : Accepts paths requests i upload) (theirs : Accepts paths requests j later)
    (same : upload.finalPath = later.finalPath) : i = j ∧ upload = later := by
  have mine := (acceptRequest_ok accepts).2.2.1
  have yours := (acceptRequest_ok theirs).2.2.1
  rw [mine, yours] at same
  have named : upload.safeName = later.safeName :=
    (List.cons.inj (List.append_cancel_left same)).1
  obtain rfl := names i j upload later accepts theirs named
  exact ⟨rfl, (accepts.unique theirs).symm⟩

variable [DecidableEq ι] {world : ServerWorld}
variable {reached : Pool ι serverSig ServerWorld (Option Response)}

/-- Runs in which no file operation fails. -/
abbrev Runs (before after : Pool ι serverSig ServerWorld (Option Response)) : Prop :=
  Pool.Reaches (fun _ => reliableExec) (fun _ _ _ => True) before after

/-- No choice of the environment is a fault. -/
theorem steady_reliable : Steady (fun _ : Unit => Fault.none) := fun _ => rfl

/-- A handler that is not paused is not blocked. -/
theorem awake_moves {Choice : Type} {wide : Choice → Fault} (op : ServerOp)
    (next : op.Result → Handler) (world : ServerWorld) (awake : Awake (.perform op next) world)
    (choice : Choice) : ∃ result after, faulty wide world op choice = some (result, after) := by
  cases op with
  | awaitResumed session =>
    refine ⟨(), world, ?_⟩
    simp only [faulty, serverExec, awake.2, Bool.false_eq_true, if_false]
  | file | insertSession | removeSession | nextChunk | isCancelled | addBytes => exact ⟨_, _, rfl⟩

/-- A handler that has not begun runs to its end alone, from any state of a run. -/
theorem serve_runs (distinct : Distinct requests)
    (path : Runs (receiving sha256 paths requests world) reached) {i : ι}
    (waits : reached.threads i = receiveTransfer sha256 paths (requests i)) :
    ∃ reply after, serve sha256 paths reached.world (requests i) = some (reply, after) := by
  obtain ⟨isolated, safe⟩ := isolated_reached (fun _ : Unit => Fault.none) distinct path
  have settled : ∀ (handler : Handler) (seen : ServerWorld),
      rely paths requests i handler seen seen := fun _ seen upload _ => .refl upload seen
  have keeps : ∀ handler before rest after,
      effect sha256 paths requests world (fun _ : Unit => Fault.none) i handler before rest after →
        Awake rest after := fun _ _ _ _ done => by
    obtain ⟨upload, accepts, effect⟩ := done
    exact effect.awake
  have mine := safe i
  have awake := isolated.awake i
  rw [waits] at mine awake
  exact Safe.runs settled awake_moves keeps awake mine fun _ => ()

/-- Handling requests in turn is a run of their handlers, one after another. -/
theorem inTurn_runs (distinct : Distinct requests) {order : List ι} (once : order.Nodup)
    (path : Runs (receiving sha256 paths requests world) reached)
    (waits : ∀ i ∈ order, reached.threads i = receiveTransfer sha256 paths (requests i)) :
    ∃ replies last threads, inTurn sha256 paths requests order reached.world = some (replies, last) ∧
      replies.map (·.1) = order ∧ Runs reached ⟨last, threads⟩ ∧
      (∀ answer ∈ replies, threads answer.1 = .done answer.2) ∧
      ∀ i, i ∉ order → threads i = reached.threads i := by
  induction order generalizing reached with
  | nil => exact ⟨[], reached.world, reached.threads, rfl, rfl, .refl, by simp, fun _ _ => rfl⟩
  | cons i rest ih =>
    obtain ⟨fresh, onceRest⟩ := List.nodup_cons.mp once
    have first := waits i List.mem_cons_self
    obtain ⟨reply, after, served⟩ := serve_runs distinct path first
    have permitted : ∀ (_ : Pool ι serverSig ServerWorld (Option Response)) (_ : Unit), True :=
      fun _ _ => trivial
    have moved : Runs reached ⟨after, Function.update reached.threads i (.done reply)⟩ :=
      Pool.reaches_solo permitted first served
    have waitsRest : ∀ j ∈ rest, Function.update reached.threads i (.done reply) j =
        receiveTransfer sha256 paths (requests j) := by
      intro j member
      have different : j ≠ i := fun same => fresh (same ▸ member)
      rw [Function.update_of_ne different]
      exact waits j (List.mem_cons_of_mem i member)
    obtain ⟨replies, last, threads, handled, listed, later, answers, others⟩ :=
      ih onceRest (path.trans moved) waitsRest
    refine ⟨(i, reply) :: replies, last, threads, ?_, ?_, moved.trans later, ?_, ?_⟩
    · simp only [inTurn, served, Option.bind_some, handled, Option.map_some]
    · rw [List.map_cons, listed]
    · intro answer member
      rcases List.mem_cons.mp member with rfl | later
      · rw [others i fresh]
        exact Function.update_self ..
      · exact answers answer later
    · intro j outside
      have different : j ≠ i := fun same => outside (same ▸ List.mem_cons_self)
      rw [others j fun member => outside (List.mem_cons_of_mem i member)]
      exact Function.update_of_ne different _ _

/-- What a finished handler has answered is the same in every run. -/
theorem answers_agree (distinct : Distinct requests)
    {other : Pool ι serverSig ServerWorld (Option Response)}
    (path : Runs (receiving sha256 paths requests world) reached)
    (otherPath : Runs (receiving sha256 paths requests world) other) {i : ι}
    {reply otherReply : Option Response} (ended : reached.threads i = .done reply)
    (otherEnded : other.threads i = .done otherReply) : reply = otherReply := by
  have isolated := (isolated_reached (fun _ : Unit => Fault.none) distinct path).1
  have otherIsolated := (isolated_reached (fun _ : Unit => Fault.none) distinct otherPath).1
  by_cases taken : ∃ upload, Accepts paths requests i upload
  · obtain ⟨upload, accepts⟩ := taken
    have first := isolated.finished steady_reliable i upload reply accepts ended
    have second := otherIsolated.finished steady_reliable i upload otherReply accepts otherEnded
    rw [first.1, second.1]
  · obtain ⟨answer, starts⟩ := refused_starts sha256 (not_exists.mp taken)
    have first := isolated.refused i answer starts
    have second := otherIsolated.refused i answer starts
    obtain rfl := Program.done.inj (first.symm.trans ended)
    exact Program.done.inj (second.symm.trans otherEnded)

/-- An upload that has ended has left the same staging file and the same session in every run. -/
theorem finished_agree (distinct : Distinct requests)
    {other : Pool ι serverSig ServerWorld (Option Response)}
    (path : Runs (receiving sha256 paths requests world) reached)
    (otherPath : Runs (receiving sha256 paths requests world) other)
    (ended : ∀ i, ∃ reply, reached.threads i = .done reply)
    (otherEnded : ∀ i, ∃ reply, other.threads i = .done reply) {i : ι} {upload : Upload}
    (accepts : Accepts paths requests i upload) :
    reached.world.files.read upload.stagingPath = other.world.files.read upload.stagingPath ∧
      reached.world.sessions upload.transferId = other.world.sessions upload.transferId := by
  have isolated := (isolated_reached (fun _ : Unit => Fault.none) distinct path).1
  have otherIsolated := (isolated_reached (fun _ : Unit => Fault.none) distinct otherPath).1
  obtain ⟨reply, done⟩ := ended i
  obtain ⟨otherReply, otherDone⟩ := otherEnded i
  have first := isolated.finished steady_reliable i upload reply accepts done
  have second := otherIsolated.finished steady_reliable i upload otherReply accepts otherDone
  refine ⟨first.2.1.trans second.2.1.symm, ?_⟩
  by_cases valid : Valid upload
  · rw [first.2.2 valid, second.2.2 valid]
  · rw [isolated.stuck i upload accepts valid, otherIsolated.stuck i upload accepts valid]

/-- What finished uploads leave is the same in every run. -/
theorem worlds_agree (distinct : Distinct requests) (names : DistinctNames paths requests)
    {other : Pool ι serverSig ServerWorld (Option Response)}
    (path : Runs (receiving sha256 paths requests world) reached)
    (otherPath : Runs (receiving sha256 paths requests world) other)
    (ended : ∀ i, ∃ reply, reached.threads i = .done reply)
    (otherEnded : ∀ i, ∃ reply, other.threads i = .done reply) :
    (∀ place, reached.world.files.read place = other.world.files.read place) ∧
      reached.world.sessions = other.world.sessions := by
  have isolated := (isolated_reached (fun _ : Unit => Fault.none) distinct path).1
  have otherIsolated := (isolated_reached (fun _ : Unit => Fault.none) distinct otherPath).1
  have agree {i : ι} {upload : Upload} (accepts : Accepts paths requests i upload) :=
    finished_agree distinct path otherPath ended otherEnded accepts
  -- an upload that is renamed in one run is renamed in the other one
  have same (i : ι) : committed (reached.threads i) = committed (other.threads i) := by
    obtain ⟨reply, done⟩ := ended i
    obtain ⟨otherReply, otherDone⟩ := otherEnded i
    rw [done, otherDone, answers_agree distinct path otherPath done otherDone]
  constructor
  · intro place
    by_cases staged : ∃ i upload, Accepts paths requests i upload ∧ place = upload.stagingPath
    · obtain ⟨i, upload, accepts, rfl⟩ := staged
      exact (agree accepts).1
    · have notStaged : ∀ i upload, Accepts paths requests i upload → place ≠ upload.stagingPath :=
        fun i upload accepts same => staged ⟨i, upload, accepts, same⟩
      rcases isolated.received place notStaged with
        ⟨start, none⟩ | ⟨i, upload, bytes, accepts, final, done, delivers, reads⟩ <;>
      rcases otherIsolated.received place notStaged with
        ⟨otherStart, otherNone⟩ | ⟨j, later, found, theirs, place', renamed, gives, shows⟩
      · rw [start, otherStart]
      · have never := none j later theirs place'
        exact absurd ((same j).trans renamed) (by simp [never])
      · have never := otherNone i upload accepts final
        exact absurd ((same i).symm.trans done) (by simp [never])
      · obtain ⟨rfl, rfl⟩ := final_unique names accepts theirs (final.trans place'.symm)
        rw [reads, shows, ← delivers, gives]
  · funext id
    by_cases owned : ∃ i upload, Accepts paths requests i upload ∧ id = upload.transferId
    · obtain ⟨i, upload, accepts, rfl⟩ := owned
      exact (agree accepts).2
    · have notTheirs : ∀ i upload, Accepts paths requests i upload → id ≠ upload.transferId :=
        fun i upload accepts same => owned ⟨i, upload, accepts, same⟩
      rw [isolated.sessions id notTheirs, otherIsolated.sessions id notTheirs]

/-- Uploads with different ids and names, however they are interleaved: no handler is ever blocked, each
one answers as it does when they are handled one after another in any order, and once all have
answered the same files and sessions are there. -/
theorem uploads_independent (distinct : Distinct requests) (names : DistinctNames paths requests)
    (path : Runs (receiving sha256 paths requests world) reached) {order : List ι}
    (once : order.Nodup) (all : ∀ i, i ∈ order) :
    (∀ i, (∃ reply, reached.threads i = .done reply) ∨
      ∃ after, reached.step (fun _ => reliableExec) i () = some after) ∧
    ∃ replies last, inTurn sha256 paths requests order world = some (replies, last) ∧
      replies.map (·.1) = order ∧
      (∀ i reply, reached.threads i = .done reply → (i, reply) ∈ replies) ∧
      ((∀ i, ∃ reply, reached.threads i = .done reply) →
        (∀ place, reached.world.files.read place = last.files.read place) ∧
          reached.world.sessions = last.sessions) := by
  constructor
  · intro i
    cases waits : reached.threads i with
    | done reply => exact .inl ⟨reply, rfl⟩
    | perform op next =>
      have awake := (isolated_reached (fun _ : Unit => Fault.none) distinct path).1.awake i
      rw [waits] at awake
      obtain ⟨result, after, moves⟩ :=
        @awake_moves Unit (fun _ => .none) op next reached.world awake ()
      have moves : reliableExec reached.world op () = some (result, after) := moves
      refine .inr ⟨⟨after, Function.update reached.threads i (next result)⟩, ?_⟩
      unfold Pool.step
      rw [waits]
      simp only [moves]
  · have start : Runs (receiving sha256 paths requests world)
        (receiving sha256 paths requests world) := .refl
    obtain ⟨replies, last, threads, handled, listed, otherPath, answers, -⟩ :=
      inTurn_runs distinct once start fun _ _ => rfl
    have otherEnded : ∀ i, ∃ reply, (i, reply) ∈ replies := by
      intro i
      have member := all i
      rw [← listed] at member
      obtain ⟨answer, inside, rfl⟩ := List.mem_map.mp member
      exact ⟨answer.2, inside⟩
    refine ⟨replies, last, handled, listed, fun i reply ended => ?_, fun ended => ?_⟩
    · obtain ⟨answer, inside⟩ := otherEnded i
      rwa [answers_agree distinct path otherPath ended (answers _ inside)]
    · refine worlds_agree distinct names path otherPath ended fun i => ?_
      obtain ⟨answer, inside⟩ := otherEnded i
      exact ⟨answer, answers _ inside⟩

end

/-! ## Two uploads side by side -/

/-- The name of each of the two sample files. -/
def sampleName (first : Bool) : String := if first then "a" else "b"

/-- Two requests under different ids, with files of one byte and different names. -/
def sampleApart (first : Bool) : TransferRequest where
  transferId := (sampleFiles first).transferId
  headers := { (sampleFiles first).headers with filename := some ⟨some (sampleName first)⟩ }
  body := (sampleFiles first).body

/-- The sample requests have different ids. -/
theorem sampleApart_distinct : Distinct sampleApart := sampleFiles_distinct

/-- The sample requests have different names. -/
theorem sampleApart_names : DistinctNames samplePaths sampleApart := by
  intro i j upload other accepts theirs same
  have named (first : Bool) : ((sampleApart first).headers.filename.bind HeaderValue.toStr).bind
      sanitizeFilename = some (sampleName first) := by
    cases first <;> decide +kernel
  have mine := Option.some.inj ((acceptRequest_ok accepts).2.2.2.1.symm.trans (named i))
  have yours := Option.some.inj ((acceptRequest_ok theirs).2.2.2.1.symm.trans (named j))
  rw [mine, yours] at same
  revert same
  cases i <;> cases j <;> decide

/-- The handlers take turns at every operation. -/
def alternating : List (Bool × Unit) :=
  (List.replicate 12 [(true, ()), (false, ())]).flatten

/-- The sample uploads come to the same when they take turns and when the second one goes first. -/
theorem uploads_independent_two : ∃ reached,
    Pool.run (fun _ => reliableExec) (fun _ _ _ => True) alternating
        (receiving sampleSha256 samplePaths sampleApart emptyServer) = some reached ∧
      ∃ replies last, inTurn sampleSha256 samplePaths sampleApart [false, true] emptyServer =
          some (replies, last) ∧
        (∀ place, reached.world.files.read place = last.files.read place) ∧
        reached.world.sessions = last.sessions := by
  have runs : (Pool.run (fun _ => reliableExec) (fun _ _ _ => True) alternating
      (receiving sampleSha256 samplePaths sampleApart emptyServer)).map (fun reached =>
        (status (reached.threads true), status (reached.threads false))) =
      some (some 200, some 200) := by
    decide +kernel
  obtain ⟨reached, ran, shown⟩ := Option.map_eq_some_iff.mp runs
  obtain ⟨first, second⟩ := Prod.mk.inj shown
  have ended : ∀ i, ∃ reply, reached.threads i = .done reply := by
    intro i
    cases i with
    | true =>
      obtain ⟨response, done, -⟩ := done_of_status first
      exact ⟨some response, done⟩
    | false =>
      obtain ⟨response, done, -⟩ := done_of_status second
      exact ⟨some response, done⟩
  obtain ⟨-, replies, last, handled, -, -, same⟩ := uploads_independent sampleApart_distinct
    sampleApart_names (Pool.reaches_of_run ran) (show [false, true].Nodup by decide)
    (show ∀ i, i ∈ [false, true] by decide)
  obtain ⟨files, sessions⟩ := same ended
  exact ⟨reached, ran, replies, last, handled, files, sessions⟩

end FileDrop.Independent
