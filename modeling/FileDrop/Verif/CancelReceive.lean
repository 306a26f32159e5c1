import FileDrop.Verif.ReceiveStages
import FileDrop.Verif.Verified

/-!
# Cancelling a receive

The chunk loop reads the cancel flag when it has taken a chunk, and then waits until its session is not
paused. A cancel before the check of a chunk that is still to come is seen there; one between the check
and the end of the pause is not seen before the chunk is written, and when that is the last chunk the
upload is completed. Nor is one seen when no check is left: a stream that ends in an error is answered
before the flag is read again.
-/
namespace FileDrop.CancelReceive
open FileDrop Effects Effects.Program Unix Isolation ReceiveStages

/-! ## What a cancel promises -/

/-- The handler is past its cancel check, and waits for its session not to be paused. -/
def pauses : ServerOp → Bool
  | .awaitResumed _ => true
  | _ => false

/-- The handler is past its cancel check and its pause loop. -/
def writes : ServerOp → Bool
  | .file (.write ..) => true
  | _ => false

/-- The handler is past the check of one chunk and has not taken the next item. -/
def passes : ServerOp → Bool
  | .file (.write ..) | .addBytes .. | .nextChunk => true
  | _ => false

/-- A cancel comes in time: the last chunk is not taken, or the handler waits in its pause loop. When the
stream ends in an error the last chunk never is. -/
def InTime (body : Body) (state : Receiving) : Prop :=
  state.asked < body.chunks.length + (if body.failure.isSome then 1 else 0) ∨
    state.handler.At pauses ∧ ∃ session, state.session = some session ∧
      state.world.cells.isPaused session.cell

/-- Since the cancel at most the chunk is written that was past the check and the pause, and a handler
that has returned has not answered 200 and leaves no staging file. -/
structure Obeys (staging : Path) (called later : Receiving) : Prop where
  chunks : later.written.length ≤ called.written.length + (if called.handler.At writes then 1 else 0)
  reply : ∀ reply, later.handler = .done reply →
    (∀ response ∈ reply, response.status ≠ 200) ∧ later.world.files.read staging = none

/-- No check is left for a cancel before the handler writes or answers: it waits in its pause loop, or the
next item it takes is the error that ends the stream. -/
def Unheeded (body : Body) (state : Receiving) : Prop :=
  state.handler.At pauses ∨
    body.failure.isSome ∧ body.chunks.length ≤ state.asked ∧ state.handler.At passes

/-- A cancel takes effect: whatever follows obeys it. -/
def TakesEffect (staging : Path) (called cancelled : Receiving) : Prop :=
  ∀ later, Runs cancelled later → Obeys staging called later

/-- No closing operation writes. -/
theorem closing_not_writes {upload : Upload} (op : ServerOp) (closing : Closing upload op) :
    writes op = false := by
  cases op with
  | file op =>
    cases op with
    | write => exact closing.elim
    | createDirAll | openWrite | seek | writeSome | flush | tryExists | read | rename | remove => rfl
  | insertSession | removeSession | nextChunk | isCancelled | awaitResumed | addBytes => rfl

/-- Nor does one wait for the session not to be paused. -/
theorem closing_not_pauses {upload : Upload} (op : ServerOp) (closing : Closing upload op) :
    pauses op = false := by
  cases op with
  | awaitResumed => exact closing.elim
  | file | insertSession | removeSession | nextChunk | isCancelled | addBytes => rfl

/-! ## A handler that stops -/

section

variable (sha256 : Sha256) (upload : Upload) (body : Body)

/-- A cancelled handler on its way to the next check, or past it, with so many chunks to write before. -/
inductive Stopping (state : Receiving) : Nat → Prop where
  | writing (session : TransferSession) (hasher : Sha256Hasher) (written : UInt64) (file : Handle)
    (chunk : Bytes) (rest : List Bytes)
    (waits : state.handler = writeChunk sha256 upload body session chunk rest hasher written file)
    (more : rest ≠ []) (cancelled : state.world.cells.isCancelled session.cell) : Stopping state 1
  | counting (session : TransferSession) (hasher : Sha256Hasher) (written : UInt64) (file : Handle)
    (chunk : Bytes) (rest : List Bytes)
    (waits : state.handler = countChunk sha256 upload body session chunk rest hasher written file)
    (more : rest ≠ []) (cancelled : state.world.cells.isCancelled session.cell) : Stopping state 0
  | taking (session : TransferSession) (hasher : Sha256Hasher) (written : UInt64) (file : Handle)
    (rest : List Bytes)
    (waits : state.handler = chunkLoop sha256 upload session body.failure rest hasher written file)
    (more : rest ≠ []) (cancelled : state.world.cells.isCancelled session.cell) : Stopping state 0
  | checking (session : TransferSession) (hasher : Sha256Hasher) (written : UInt64) (file : Handle)
    (chunk : Bytes) (rest : List Bytes)
    (waits : state.handler = checkChunk sha256 upload body session chunk rest hasher written file)
    (cancelled : state.world.cells.isCancelled session.cell) : Stopping state 0
  | discarding (discards : Discards upload state.handler state.world) : Stopping state 0

variable {sha256 upload body} {before after : Receiving} {budget : Nat}

/-- A call on the session does not stop it from stopping. -/
theorem stopping_call {call : SessionCall} (stopping : Stopping sha256 upload body before budget)
    (stepped : before.step (.call call) = some after) :
    Stopping sha256 upload body after budget ∧ after.written = before.written := by
  obtain ⟨called, -, rfl⟩ := Receiving.step_call stepped
  refine ⟨?_, rfl⟩
  cases stopping with
  | writing _ _ _ _ _ _ waits more cancelled =>
    exact .writing _ _ _ _ _ _ waits more (SessionCells.isCancelled_call call cancelled)
  | counting _ _ _ _ _ _ waits more cancelled =>
    exact .counting _ _ _ _ _ _ waits more (SessionCells.isCancelled_call call cancelled)
  | taking _ _ _ _ _ waits more cancelled =>
    exact .taking _ _ _ _ _ waits more (SessionCells.isCancelled_call call cancelled)
  | checking _ _ _ _ _ _ waits cancelled =>
    exact .checking _ _ _ _ _ _ waits (SessionCells.isCancelled_call call cancelled)
  | discarding discards => exact .discarding (discards.called _ call)

/-- An operation of the handler uses up what it writes. -/
theorem stopping_work (stopping : Stopping sha256 upload body before budget)
    (stepped : before.step (.work .none) = some after) : ∃ left, Stopping sha256 upload body after left ∧
      after.written.length + left = before.written.length + budget := by
  cases stopping with
  | writing session hasher written file chunk rest waits more cancelled =>
    obtain ⟨result, world, ran, rfl⟩ := Receiving.step_at waits stepped
    obtain ⟨-, cells⟩ := serverExec_file_sessions ran
    rcases FileOp.exec_write_part (serverExec_file ran) with ⟨_, _, -, -, fails, -⟩ | ⟨rfl, -⟩
    · exact absurd rfl fails
    · refine ⟨0, .counting session hasher written _ chunk rest rfl more ?_, ?_⟩
      · change world.cells.isCancelled session.cell = true
        rw [cells]
        exact cancelled
      · change (before.written ++ [chunk]).length + 0 = before.written.length + 1
        rw [List.length_append, List.length_singleton]
  | counting session hasher written file chunk rest waits more cancelled =>
    obtain ⟨result, world, ran, rfl⟩ := Receiving.step_at waits stepped
    obtain ⟨-, rfl⟩ := Prod.mk.inj (Option.some.inj ran)
    refine ⟨0, .taking session _ _ file rest rfl more ?_, rfl⟩
    exact (SessionCells.isCancelled_addBytes ..).trans cancelled
  | taking session hasher written file rest waits more cancelled =>
    obtain ⟨chunk, later, rfl⟩ := List.exists_cons_of_ne_nil more
    rw [chunkLoop_cons] at waits
    obtain ⟨result, world, ran, rfl⟩ := Receiving.step_at waits stepped
    obtain ⟨-, rfl⟩ := Prod.mk.inj (Option.some.inj ran)
    exact ⟨0, .checking session hasher written file chunk later rfl cancelled, rfl⟩
  | checking session hasher written file chunk rest waits cancelled =>
    obtain ⟨result, world, ran, rfl⟩ := Receiving.step_at waits stepped
    obtain ⟨seen, rfl⟩ := Prod.mk.inj (Option.some.inj ran)
    obtain rfl : result = true := seen.symm.trans cancelled
    exact ⟨0, .discarding (.drop _), rfl⟩
  | discarding discards =>
    obtain ⟨op, next, waits⟩ := Receiving.step_work stepped
    obtain ⟨result, world, ran, rfl⟩ := Receiving.step_at waits stepped
    rw [waits] at discards
    rw [closing_observe discards.closing]
    rcases discards.work ran with fails | goesOn
    · exact absurd rfl fails
    · exact ⟨0, .discarding goesOn, rfl⟩

/-- A run of a stopping handler writes no more than what it has left to write. -/
theorem stopping_runs (stopping : Stopping sha256 upload body before budget) (path : Runs before after) :
    ∃ left, Stopping sha256 upload body after left ∧
      after.written.length + left = before.written.length + budget := by
  induction path with
  | refl => exact ⟨budget, stopping, rfl⟩
  | tail _ last ih =>
    obtain ⟨now, stops, total⟩ := ih
    obtain ⟨move, permitted, stepped⟩ := last
    cases move with
    | call call =>
      obtain ⟨still, same⟩ := stopping_call stops stepped
      exact ⟨now, still, by rw [same, total]⟩
    | work fault =>
      obtain rfl : fault = .none := permitted
      obtain ⟨left, later, kept⟩ := stopping_work stops stepped
      exact ⟨left, later, kept.trans total⟩

/-- A stopping handler that has returned has answered 499, and its staging file is gone. -/
theorem stopping_done {reply : Option Response} (stopping : Stopping sha256 upload body before budget)
    (done : before.handler = .done reply) :
    reply = some ⟨499, "transfer cancelled"⟩ ∧ before.world.files.read upload.stagingPath = none := by
  have never {P : Prop} {op : ServerOp} {next : op.Result → Handler}
      (here : before.handler = .perform op next) : P := by cases here.symm.trans done
  cases stopping with
  | writing _ _ _ _ _ _ waits => exact never waits
  | counting _ _ _ _ _ _ waits => exact never waits
  | taking _ _ _ _ rest waits more =>
    obtain ⟨chunk, later, rfl⟩ := List.exists_cons_of_ne_nil more
    exact never (waits.trans (chunkLoop_cons ..))
  | checking _ _ _ _ _ _ waits => exact never waits
  | discarding discards =>
    rw [done] at discards
    cases discards with
    | gone _ removed => exact ⟨rfl, removed⟩

/-! ## A cancel in time -/

variable {old : Option Bytes} {called cancelled : Receiving}

/-- A cancel that comes in time and has a check before it stops the handler. -/
theorem stopping_cancelled (stage : Stage upload body old sha256 False called)
    (inTime : InTime body called) (heeded : ¬Unheeded body called)
    (cancels : called.step (.call .cancel) = some cancelled) :
    Stopping sha256 upload body cancelled (if called.handler.At writes then 1 else 0) := by
  have awake : ¬called.handler.At pauses := fun paused => heeded (.inl paused)
  have inside := inTime.resolve_right fun paused => awake paused.1
  have early (passing : called.handler.At passes) : called.asked < body.chunks.length := by
    by_contra late
    by_cases fails : body.failure.isSome
    · exact heeded (.inr ⟨fails, Nat.le_of_not_lt late, passing⟩)
    · rw [if_neg fails] at inside
      exact late inside
  obtain ⟨session, made, rfl⟩ := Receiving.step_call cancels
  have never {P : Prop} (fresh : Fresh called) : P := by
    have none := fresh.session
    rw [made] at none
    cases none
  have flagged {other : TransferSession} (same : called.session = some other) :
      (called.world.call session.cell .cancel).cells.isCancelled other.cell = true := by
    obtain rfl := Option.some.inj (made.symm.trans same)
    exact SessionCells.isCancelled_cancel ..
  -- a chunk is still to come
  have more (taken : Nat) {rest : List Bytes} (passing : called.handler.At passes)
      (asked : called.asked = called.written.length + taken)
      (left : body.chunks.length = called.written.length + taken + rest.length) : rest ≠ [] := by
    rintro rfl
    have chunks := early passing
    rw [List.length_nil] at left
    omega
  -- no chunk is written before the next check, unless the write is what the handler waits for
  have idle (other : ¬called.handler.At writes)
      (stops : Stopping sha256 upload body
        { called with world := called.world.call session.cell .cancel } 0) :
      Stopping sha256 upload body { called with world := called.world.call session.cell .cancel }
        (if called.handler.At writes then 1 else 0) := by
    rw [if_neg other]
    exact stops
  cases stage with
  | entered _ fresh => exact never fresh
  | opening _ fresh => exact never fresh
  | seeking _ _ fresh => exact never fresh
  | inserting _ _ fresh => exact never fresh
  | taking _ _ _ _ rest waits streaming between =>
    have passing : called.handler.At passes := by
      rw [waits]
      cases rest with
      | nil => exact rfl
      | cons chunk rest => exact rfl
    have remains : rest ≠ [] := more 0 passing between.asked (by rw [between.left]; simp)
    have other : ¬called.handler.At writes := by
      obtain ⟨chunk, later, rfl⟩ := List.exists_cons_of_ne_nil remains
      rw [waits, chunkLoop_cons]
      exact Bool.false_ne_true
    exact idle other (.taking _ _ _ _ rest waits remains (flagged streaming.made))
  | checking _ _ _ _ _ _ waits streaming taken =>
    have other : ¬called.handler.At writes := by
      rw [waits]
      exact Bool.false_ne_true
    exact idle other (.checking _ _ _ _ _ _ waits (flagged streaming.made))
  | pausing _ _ _ _ _ _ waits =>
    rw [waits] at awake
    exact absurd rfl awake
  | writing _ _ _ _ chunk rest waits streaming taken =>
    have passing : called.handler.At passes := by
      rw [waits]
      rfl
    have remains : rest ≠ [] := more 1 passing taken.asked (by rw [taken.left]; simp; omega)
    have here : called.handler.At writes := by
      rw [waits]
      rfl
    rw [if_pos here]
    exact .writing _ _ _ _ _ _ waits remains (flagged streaming.made)
  | counting _ _ _ _ _ rest waits streaming between =>
    have passing : called.handler.At passes := by
      rw [waits]
      rfl
    have remains : rest ≠ [] := more 0 passing between.asked (by rw [between.left]; simp)
    have other : ¬called.handler.At writes := by
      rw [waits]
      exact Bool.false_ne_true
    exact idle other (.counting _ _ _ _ _ _ waits remains (flagged streaming.made))
  | closing closes _ sought cause =>
    have other : ¬called.handler.At writes := closes.not_at closing_not_writes
    rcases cause with ⟨⟨⟩⟩ | ended | discards | invalid
    · split at inside <;> omega
    · exact idle other (.discarding (discards.called _ _))
    · exact never (sought.resolve_left invalid).toFresh

/-- A handler in its pause loop writes the chunk that it has checked, when its session goes on. -/
theorem pausing_writes (stage : Stage upload body old sha256 False called)
    (paused : called.handler.At pauses)
    (cancels : called.step (.call .cancel) = some cancelled) :
    ∃ later, Runs cancelled later ∧ later.written.length = called.written.length + 1 := by
  have never {P : Prop} {handler : Handler} (here : called.handler = handler)
      (other : ¬handler.At pauses) : P := absurd (here ▸ paused) other
  cases stage with
  | entered here => exact never here Bool.false_ne_true
  | opening here => exact never here Bool.false_ne_true
  | seeking file here => exact never here Bool.false_ne_true
  | inserting file here => exact never here Bool.false_ne_true
  | taking _ _ _ _ rest here =>
    cases rest with
    | nil => exact never (here.trans (chunkLoop_nil ..)) Bool.false_ne_true
    | cons chunk rest => exact never (here.trans (chunkLoop_cons ..)) Bool.false_ne_true
  | checking _ _ _ _ _ _ here => exact never here Bool.false_ne_true
  | writing _ _ _ _ _ _ here => exact never here Bool.false_ne_true
  | counting _ _ _ _ _ _ here => exact never here Bool.false_ne_true
  | closing closes => exact absurd paused (closes.not_at closing_not_pauses)
  | pausing session hasher written file chunk rest waits streaming taken =>
    obtain ⟨other, made, rfl⟩ := Receiving.step_call cancels
    obtain rfl := Option.some.inj (streaming.made.symm.trans made)
    let stopped : Receiving := { called with world := called.world.call session.cell .cancel }
    let resumed : Receiving := { stopped with world := stopped.world.call session.cell .resume }
    have still : stopped.session = some session := made
    have stepped : stopped.step (.call .resume) = some resumed := Receiving.step_called still .resume
    have resumes : Runs stopped resumed := .single ⟨.call .resume, trivial, stepped⟩
    have running : resumed.world.cells.isPaused session.cell = false :=
      SessionCells.isPaused_resume ..
    have here : resumed.handler = pauseChunk sha256 upload body session chunk rest hasher written file :=
      waits
    obtain ⟨later, moved, writes, -, -, -, appended⟩ := runs_write here running
    refine ⟨later, resumes.trans writes, ?_⟩
    rw [appended]
    exact List.length_append

/-- No closing operation is one between two checks. -/
theorem closing_not_passes {upload : Upload} (op : ServerOp) (closing : Closing upload op) :
    passes op = false := by
  cases op with
  | file op =>
    cases op with
    | write => exact closing.elim
    | createDirAll | openWrite | seek | writeSome | flush | tryExists | read | rename | remove => rfl
  | nextChunk | addBytes => exact closing.elim
  | insertSession | removeSession | isCancelled | awaitResumed => rfl

/-- A handler whose stream ends in an error answers it and keeps its staging file. -/
theorem runs_error {state : Receiving} {error : String} {session : TransferSession}
    {hasher : Sha256Hasher} {written : UInt64} {file : Handle}
    (waits : state.handler = chunkLoop sha256 upload session body.failure [] hasher written file)
    (fails : body.failure = some error) : ∃ later reply, Runs state later ∧
      later.handler = .done reply ∧ later.world.files = state.world.files := by
  rw [chunkLoop_nil] at waits
  let failed : Receiving := { state with
    handler := dropSession upload (respond 400 ("stream error: " ++ error))
    asked := state.asked + 1 }
  have takes : Runs state failed := by
    have moved := runs_work waits () state.world rfl
    simp only [endOfBody, fails] at moved
    exact moved
  have drops := runs_work (show failed.handler = _ from rfl) ()
    { failed.world with sessions := Function.update failed.world.sessions upload.transferId none } rfl
  exact ⟨_, _, takes.trans drops, rfl, rfl⟩

/-- A written chunk is counted. -/
theorem runs_count {state : Receiving} {session : TransferSession} {chunk : Bytes} {rest : List Bytes}
    {hasher : Sha256Hasher} {written : UInt64} {file : Handle}
    (waits : state.handler = countChunk sha256 upload body session chunk rest hasher written file) :
    ∃ later, Runs state later ∧ later.handler = chunkLoop sha256 upload session body.failure rest
        (hasher.update chunk) (written + .ofNat chunk.length) file ∧
      later.world.files = state.world.files :=
  ⟨_, runs_work waits () { state.world with
    cells := state.world.cells.addBytes session.cell (.ofNat chunk.length) } rfl, rfl, rfl⟩

/-- A handler past the check of the last chunk before the error leaves its staging file. -/
theorem passing_leaves (stage : Stage upload body old sha256 False called)
    (fails : body.failure.isSome) (late : body.chunks.length ≤ called.asked)
    (passing : called.handler.At passes)
    (cancels : called.step (.call .cancel) = some cancelled) :
    ∃ later reply, Runs cancelled later ∧ later.handler = .done reply ∧
      later.world.files.read upload.stagingPath ≠ none := by
  obtain ⟨error, failure⟩ := Option.isSome_iff_exists.mp fails
  have never {P : Prop} {handler : Handler} (here : called.handler = handler)
      (other : ¬handler.At passes) : P := absurd (here ▸ passing) other
  -- nothing is left of the body
  have nothing (taken : Nat) {rest : List Bytes} (asked : called.asked = called.written.length + taken)
      (left : body.chunks.length = called.written.length + taken + rest.length) : rest = [] := by
    apply List.eq_nil_of_length_eq_zero
    omega
  obtain ⟨own, -, rfl⟩ := Receiving.step_call cancels
  let stopped : Receiving := { called with world := called.world.call own.cell .cancel }
  have leaves {state later : Receiving} {reply : Option Response} {part : Bytes}
      (staged : state.world.files.read upload.stagingPath = some part) (path : Runs stopped later)
      (done : later.handler = .done reply) (files : later.world.files = state.world.files) :
      ∃ later reply, Runs stopped later ∧ later.handler = .done reply ∧
        later.world.files.read upload.stagingPath ≠ none := by
    refine ⟨later, reply, path, done, ?_⟩
    rw [files, staged]
    exact Option.some_ne_none part
  cases stage with
  | entered here => exact never here Bool.false_ne_true
  | opening here => exact never here Bool.false_ne_true
  | seeking file here => exact never here Bool.false_ne_true
  | inserting file here => exact never here Bool.false_ne_true
  | checking _ _ _ _ _ _ here => exact never here Bool.false_ne_true
  | pausing _ _ _ _ _ _ here => exact never here Bool.false_ne_true
  | closing closes => exact absurd passing (closes.not_at closing_not_passes)
  | taking session hasher written file rest waits streaming between =>
    have none : rest = [] := nothing 0 between.asked (by rw [between.left]; simp)
    subst none
    have here : stopped.handler = chunkLoop sha256 upload session body.failure [] hasher written file :=
      waits
    obtain ⟨later, reply, path, done, files⟩ := runs_error here failure
    exact leaves streaming.staged path done files
  | counting session hasher written file chunk rest waits streaming between =>
    have none : rest = [] := nothing 0 between.asked (by rw [between.left]; simp)
    subst none
    have here : stopped.handler =
        countChunk sha256 upload body session chunk [] hasher written file := waits
    obtain ⟨counted, counts, loops, same⟩ := runs_count here
    obtain ⟨later, reply, path, done, files⟩ := runs_error loops failure
    exact leaves streaming.staged (counts.trans path) done (files.trans same)
  | writing session hasher written file chunk rest waits streaming taken =>
    have none : rest = [] := nothing 1 taken.asked (by rw [taken.left]; simp; omega)
    subst none
    have here : stopped.handler =
        writeChunk sha256 upload body session chunk [] hasher written file := waits
    have writes := runs_work here (.ok (called.world.files.write file chunk).1)
      { stopped.world with files := (called.world.files.write file chunk).2 } rfl
    let wrote : Receiving := { stopped with
      handler := countChunk sha256 upload body session chunk [] hasher written
        (called.world.files.write file chunk).1
      world := { stopped.world with files := (called.world.files.write file chunk).2 }
      file := some (called.world.files.write file chunk).1
      written := stopped.written ++ [chunk] }
    obtain ⟨counted, counts, loops, same⟩ := runs_count (show wrote.handler = _ from rfl)
    obtain ⟨later, reply, path, done, files⟩ := runs_error loops failure
    have staged : wrote.world.files.read upload.stagingPath = _ :=
      FileStore.read_write _ chunk streaming.leads streaming.staged
    have goes : Runs stopped wrote := writes
    exact leaves staged (goes.trans (counts.trans path)) done (files.trans same)

end

/-! ## Exactly when a cancel takes effect -/

section

variable {sha256 : Sha256} {paths : StoragePaths} {request : TransferRequest} {world : ServerWorld}
variable {called cancelled : Receiving}

/-- A cancel that comes in time takes effect exactly when a check is left for it: the handler does not wait
between its cancel check and the end of its pause, and the item that it takes next is not the error that
ends the stream. -/
theorem cancel_effective (path : Runs (.start sha256 paths request world) called)
    (inTime : InTime request.body called)
    (cancels : called.step (.call .cancel) = some cancelled) :
    TakesEffect (Resume.stagingPath paths request.transferId) called cancelled ↔
      ¬Unheeded request.body called := by
  have accepts : ∃ upload, acceptRequest paths request.transferId request.headers =
      some (.ok upload) := by
    by_contra refused
    obtain ⟨session, made, -⟩ := Receiving.step_call cancels
    rw [refused_reached (not_exists.mp refused) path] at made
    cases made
  obtain ⟨upload, accepted⟩ := accepts
  have located : upload.stagingPath = Resume.stagingPath paths request.transferId :=
    (acceptRequest_ok accepted).2.1
  have stage : Stage upload request.body (world.files.read upload.stagingPath) sha256 False called :=
    stage_reached (fun _ _ permitted => .inl permitted) accepted path
  rw [← located]
  constructor
  · rintro effective (paused | ⟨fails, late, passing⟩)
    · obtain ⟨later, follows, longer⟩ := pausing_writes stage paused cancels
      have bound := (effective later follows).chunks
      have other : ¬called.handler.At writes := paused.apart fun op kind => by
        cases op with
        | awaitResumed => rfl
        | file | insertSession | removeSession | nextChunk | isCancelled | addBytes => cases kind
      rw [if_neg other] at bound
      omega
    · obtain ⟨later, reply, follows, done, left⟩ := passing_leaves stage fails late passing cancels
      exact left ((effective later follows).reply reply done).2
  · intro heeded later follows
    have stopping := stopping_cancelled stage inTime heeded cancels
    have same : cancelled.written = called.written := by
      obtain ⟨session, -, rfl⟩ := Receiving.step_call cancels
      rfl
    obtain ⟨left, stops, total⟩ := stopping_runs stopping follows
    rw [same] at total
    constructor
    · omega
    · intro reply done
      obtain ⟨rfl, gone⟩ := stopping_done stops done
      refine ⟨?_, gone⟩
      rintro response ⟨⟩
      decide

end

/-! ## Sample runs -/

/-- The handler performs so many operations. -/
def works (n : Nat) : List ReceivingMove := List.replicate n (.work .none)

/-- A request for a file of the two bytes 1 and 2, in two chunks. -/
def sampleStart : Receiving :=
  .start (fun _ => []) Resume.samplePaths (Resume.sampleRequest none [[1], [2]]) Resume.emptyServer

/-- Follow moves in which nothing fails. -/
abbrev follow : List ReceivingMove → Receiving → Option Receiving :=
  Machine.run Receiving.step Unfailing

/-- Take the first chunk, and cancel before its check. -/
theorem cancel_effective_check : ∃ called cancelled, Runs sampleStart called ∧
    called.step (.call .cancel) = some cancelled ∧
    TakesEffect (Resume.stagingPath Resume.samplePaths Resume.sampleId) called cancelled := by
  have runs : (follow (works 4) sampleStart).map (fun called =>
      (called.asked, decide (called.handler.At pauses), (called.step (.call .cancel)).isSome)) =
        some (1, false, true) := by
    decide +kernel
  obtain ⟨called, ran, here⟩ := Option.map_eq_some_iff.mp runs
  obtain ⟨asked, rest⟩ := Prod.mk.inj here
  obtain ⟨awake, calls⟩ := Prod.mk.inj rest
  obtain ⟨cancelled, cancels⟩ := Option.isSome_iff_exists.mp calls
  have path : Runs sampleStart called := Machine.reaches_of_run ran
  have inTime : InTime ⟨[[1], [2]], none⟩ called := .inl (by rw [asked]; decide)
  have exactly := @cancel_effective (fun _ => []) Resume.samplePaths
    (Resume.sampleRequest none [[1], [2]]) Resume.emptyServer called cancelled path inTime cancels
  refine ⟨called, cancelled, path, cancels, exactly.mpr ?_⟩
  rintro (paused | ⟨fails, -⟩)
  · exact of_decide_eq_false awake paused
  · cases fails

/-- A cancel while the handler waits in its pause loop with the last chunk is lost: when the session goes
on, the upload is completed. -/
theorem cancel_effective_broken :
    ¬∀ (sha256 : Sha256) (paths : StoragePaths) (request : TransferRequest) (world : ServerWorld)
      (called cancelled : Receiving), Runs (.start sha256 paths request world) called →
      InTime request.body called → called.step (.call .cancel) = some cancelled →
      TakesEffect (Resume.stagingPath paths request.transferId) called cancelled := by
  intro always
  have runs : ((follow (works 10 ++ [.call .pause]) sampleStart).bind fun called =>
      (called.step (.call .cancel)).bind fun cancelled =>
        (follow (.call .resume :: works 7) cancelled).map fun later =>
          ((decide (called.handler.At pauses),
              called.session.map fun session => called.world.cells.isPaused session.cell),
            Verified.answer later.handler)) =
      some ((true, some true), some ⟨200, "transfer complete"⟩) := by
    decide +kernel
  obtain ⟨called, ran, rest⟩ := Option.bind_eq_some_iff.mp runs
  obtain ⟨cancelled, cancels, rest⟩ := Option.bind_eq_some_iff.mp rest
  obtain ⟨later, follows, outcome⟩ := Option.map_eq_some_iff.mp rest
  obtain ⟨here, answered⟩ := Prod.mk.inj outcome
  obtain ⟨waits, paused⟩ := Prod.mk.inj here
  have inTime : InTime ⟨[[1], [2]], none⟩ called :=
    .inr ⟨of_decide_eq_true waits, Option.map_eq_some_iff.mp paused⟩
  have path : Runs sampleStart called := Machine.reaches_of_run ran
  have goesOn : Runs cancelled later := Machine.reaches_of_run follows
  have obeys := always (fun _ => []) Resume.samplePaths (Resume.sampleRequest none [[1], [2]])
    Resume.emptyServer called cancelled path inTime cancels later goesOn
  have done := Verified.done_of_answer answered
  have never := (obeys.reply _ done).1
  exact never ⟨200, "transfer complete"⟩ rfl rfl

end FileDrop.CancelReceive
