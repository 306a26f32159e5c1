import FileDrop.Verif.WithinSize

/-!
# Content-Range values

The receiver takes the number between `bytes ` and the first dash for the offset, and zero when it finds
none. It reads neither the end nor the total. So a value of the documented form continues the staged file
from its start, and every other one is accepted all the same: what has no such number starts over and
empties the staged file, and what has one continues there, whatever follows. Only a number that is no file
offset is refused, by the seek.
-/
namespace FileDrop.ContentRange
open FileDrop Effects Effects.Program Unix Resume Isolation AnnouncedSize ReceiveStages WithinSize

/-! ## The documented form -/

/-- Decimal digits, one at least. -/
def Digits (text : List Char) : Prop := text ≠ [] ∧ ∀ c ∈ text, c.isDigit

/-- The number that decimal digits stand for. -/
def number (digits : List Char) : Nat := Nat.ofDigitChars 10 digits 0

/-- `bytes START-END/TOTAL`. -/
inductive RangeValue : HeaderValue → Nat → Nat → Prop where
  | intro (start last total : List Char) (isStart : Digits start) (isEnd : Digits last)
    (isTotal : Digits total) : RangeValue
      ⟨some (.ofList ("bytes ".toList ++ (start ++ '-' :: (last ++ '/' :: total))))⟩
      (number start) (number total)

/-- A value continues a request from an offset: it is of the documented form, with the announced size for
its total and an offset that is below it, or is it when nothing remains to be sent. -/
def Continues (request : TransferRequest) (value : HeaderValue) (start : Nat) : Prop :=
  ∃ size, announcedSize request = some size ∧ RangeValue value start size.toNat ∧
    (start < size.toNat ∨ start = size.toNat ∧ bodyLength request = 0)

/-- A value that continues a request is parsed to its offset. -/
theorem continues_offset {request : TransferRequest} {value : HeaderValue} {start : Nat}
    (given : request.headers.contentRange = some value) (continues : Continues request value start) :
    offset request = start := by
  obtain ⟨size, -, ranged, bound⟩ := continues
  have fits : start < 2 ^ 64 := by
    have small := size.toNat_lt
    omega
  generalize total_eq : size.toNat = total at ranged
  obtain ⟨first, last, whole, isStart, isEnd, isTotal⟩ := ranged
  have plain : ∀ c ∈ first, c ≠ '-' := fun c member => (digit_printable (isStart.2 c member)).2.2
  have parsed : parseResumeOffset request.headers = some (.ofNat (number first)) := by
    rw [parseResumeOffset_range given rfl plain, parseU64_digits isStart.1 isStart.2]
    exact if_pos fits
  rw [offset, parsed, Option.getD_some, UInt64.toNat_ofNat']
  omega

/-! ## Honoured or refused -/

section

variable (paths : StoragePaths) (request : TransferRequest) (before : ServerWorld)

/-- What is staged for a request. -/
def staged (world : ServerWorld) : Option Bytes :=
  world.files.read (stagingPath paths request.transferId)

/-- The body is written from an offset over what was staged before, or from the start over nothing: the
staging file, while it is there, has all the chunks that are written, with a part of the next one at
most, and an answer of the success class comes after the last one. -/
structure WrittenFrom (start : Nat) (state : Receiving) : Prop where
  laid : ∀ bytes, staged paths request state.world = some bytes →
    ∃ sent, state.written.flatten <+: sent ∧ sent <+: request.body.chunks.flatten ∧
      (bytes = overlay ((staged paths request before).getD []) start sent ∨ start = 0 ∧ bytes = sent)
  whole : ∀ response, state.handler = .done (some response) → response.status < 300 →
    state.written = request.body.chunks

/-- The request has come to nothing: the body is not asked for, no answer is of the success class, and
what was staged is as it was; where nothing was, there may be an empty file. -/
structure Refused (state : Receiving) : Prop where
  session : state.session = none
  unread : state.asked = 0
  fails : ∀ reply, state.handler = .done reply → Fails reply
  kept : staged paths request state.world = staged paths request before ∨
    staged paths request before = none ∧ staged paths request state.world = some []

variable (sha256 : Sha256)

/-- The states of the request's runs, whatever fails and whenever its session is called. -/
abbrev Reached : Receiving → Prop :=
  Machine.Reaches Receiving.step Anyhow (.start sha256 paths request before)

/-- A value is honoured, or the request is refused. -/
def Honours (value : HeaderValue) : Prop :=
  (∃ start, Continues request value start ∧
    ∀ reached, Reached paths request before sha256 reached → WrittenFrom paths request before start reached) ∨
  ∀ reached, Reached paths request before sha256 reached → Refused paths request before reached

end

section

variable {sha256 : Sha256} {paths : StoragePaths} {request : TransferRequest} {before : ServerWorld}
variable {upload : Upload} {reached : Receiving}

/-- An upload that is finished past its loop has written its body or fails. -/
theorem stage_finished {body : Body} {old : Option Bytes} {mayFail : Prop} {state : Receiving}
    {reply : Option Response} (stage : Stage upload body old sha256 mayFail state)
    (done : state.handler = .done reply) :
    Fails reply ∨ Valid upload ∧ state.written = body.chunks := by
  have never {P : Prop} {op : ServerOp} {next : op.Result → Handler}
      (here : state.handler = .perform op next) : P := by cases here.symm.trans done
  cases stage with
  | entered here => exact never here
  | opening here => exact never here
  | seeking file here => exact never here
  | inserting file here => exact never here
  | taking session hasher written file rest here =>
    cases rest with
    | nil => exact never (here.trans (chunkLoop_nil ..))
    | cons chunk rest => exact never (here.trans (chunkLoop_cons ..))
  | checking _ _ _ _ _ _ here => exact never here
  | pausing _ _ _ _ _ _ here => exact never here
  | writing _ _ _ _ _ _ here => exact never here
  | counting _ _ _ _ _ _ here => exact never here
  | closing closes =>
    rw [done] at closes
    exact closes

/-- An accepted upload writes its body from its offset. -/
theorem accepted_written
    (accepted : acceptRequest paths request.transferId request.headers = some (.ok upload))
    (path : Reached paths request before sha256 reached) :
    WrittenFrom paths request before (offset request) reached := by
  obtain ⟨located, -, start⟩ := accepted_words accepted
  have stage : Stage upload request.body (before.files.read upload.stagingPath) sha256 True reached :=
    stage_reached (fun _ _ _ => .inr trivial) accepted path
  constructor
  · intro bytes reads
    unfold staged at reads ⊢
    rw [← located] at reads ⊢
    rcases stage.staged bytes reads with ⟨nothing, same⟩ | ⟨sent, whole, part, rfl⟩
    · refine ⟨[], ?_, List.nil_prefix, .inl ?_⟩
      · rw [nothing, List.flatten_nil]
      · rw [← same, Option.getD_some, overlay_nil]
    · refine ⟨sent, whole, part, ?_⟩
      by_cases fresh : upload.resumeOffset = 0
      · have zero : offset request = 0 := by
          rw [← start, fresh]
          rfl
        exact .inr ⟨zero, stagedWith_fresh fresh sent⟩
      · left
        unfold stagedWith
        rw [if_neg fresh, start]
  · intro response done success
    rcases stage_finished stage done with fails | ⟨-, whole⟩
    · have failed := fails response rfl
      omega
    · exact whole

/-- A request that is not accepted is refused. -/
theorem not_accepted_refused (refused : ¬Accepted paths request)
    (path : Reached paths request before sha256 reached) : Refused paths request before reached := by
  have never (upload : Upload) :
      acceptRequest paths request.transferId request.headers ≠ some (.ok upload) :=
    fun accepted => refused ⟨upload, accepted⟩
  obtain ⟨reply, done, fails⟩ := refused_answered sha256 never
  rw [refused_reached never path]
  refine ⟨rfl, rfl, fun other ends => ?_, .inl rfl⟩
  have same : Program.done reply = .done other := done.symm.trans ends
  cases same
  exact fails

/-- So is one whose offset is none that a file has. -/
theorem invalid_refused
    (accepted : acceptRequest paths request.transferId request.headers = some (.ok upload))
    (invalid : offsetLimit ≤ offset request) (path : Reached paths request before sha256 reached) :
    Refused paths request before reached := by
  obtain ⟨located, -, start⟩ := accepted_words accepted
  have stage : Stage upload request.body (before.files.read upload.stagingPath) sha256 True reached :=
    stage_reached (fun _ _ _ => .inr trivial) accepted path
  have stuck : ¬Valid upload := by
    rw [Valid, start]
    exact Nat.not_lt.mpr invalid
  have fresh := stage.stuck stuck
  refine ⟨fresh.session, fresh.asked, fun reply done => ?_, ?_⟩
  · rcases stage_finished stage done with fails | ⟨valid, -⟩
    · exact fails
    · exact absurd valid stuck
  · unfold staged
    rw [← located]
    exact stage.kept stuck

/-- An accepted one with a file offset is not. -/
theorem accepted_not_refused (accepted : Accepted paths request)
    (valid : offset request < offsetLimit) :
    ¬∀ reached, Reached paths request before sha256 reached → Refused paths request before reached := by
  intro always
  obtain ⟨upload, accepted⟩ := accepted
  obtain ⟨-, -, start⟩ := accepted_words accepted
  have valid : Valid upload := by
    rw [Valid, start]
    exact valid
  obtain ⟨streaming, session, file, path, calm, -⟩ := runs_start accepted valid before
  have refused := always streaming (path.mono fun _ _ _ => trivial)
  have made := refused.session.symm.trans calm.made
  cases made

/-- A value is honoured, or the request refused, exactly when the value continues the request, the request
is not accepted, or its offset is none that a file has. -/
theorem honours_iff (sha256 : Sha256) (paths : StoragePaths) (request : TransferRequest)
    (before : ServerWorld) {value : HeaderValue} (given : request.headers.contentRange = some value) :
    Honours paths request before sha256 value ↔
      (∃ start, Continues request value start) ∨ ¬Accepted paths request ∨
        offsetLimit ≤ offset request := by
  constructor
  · rintro (⟨start, continues, -⟩ | refused)
    · exact .inl ⟨start, continues⟩
    · by_cases valid : offset request < offsetLimit
      · exact .inr (.inl fun accepted => accepted_not_refused accepted valid refused)
      · exact .inr (.inr (Nat.le_of_not_lt valid))
  · intro condition
    by_cases accepted : Accepted paths request
    · obtain ⟨upload, accepts⟩ := id accepted
      rcases condition with ⟨start, continues⟩ | refused | invalid
      · refine .inl ⟨start, continues, fun reached path => ?_⟩
        rw [← continues_offset given continues]
        exact accepted_written accepts path
      · exact absurd accepted refused
      · exact .inr fun reached path => invalid_refused accepts invalid path
    · exact .inr fun reached path => not_accepted_refused accepted path

end

/-! ## Sample values -/

/-- The request of the sample that sends its second byte is honoured. -/
theorem honours_iff_second : Honours samplePaths (sampleRequest (some "bytes 1-1/2") [[2]]) emptyServer
    (fun _ => []) ⟨some "bytes 1-1/2"⟩ := by
  have size : announcedSize (sampleRequest (some "bytes 1-1/2") [[2]]) = some 2 := by decide +kernel
  have ranged : RangeValue ⟨some "bytes 1-1/2"⟩ 1 2 :=
    .intro ['1'] ['1'] ['2'] ⟨by simp, by simp⟩ ⟨by simp, by simp⟩ ⟨by simp, by simp⟩
  exact (honours_iff _ _ _ _ rfl).mpr (.inl ⟨1, 2, size, ranged, .inl (by decide)⟩)

/-- Create the directory, open the file, and make the session. -/
def opens : List ReceivingMove := List.replicate 3 (.work .none)

/-- A star is no offset. -/
theorem unranged_sample {start total : Nat} : ¬RangeValue ⟨some "bytes */2"⟩ start total := by
  intro ranged
  generalize value_eq : (⟨some "bytes */2"⟩ : HeaderValue) = value at ranged
  obtain ⟨first, last, whole, isStart, -, -⟩ := ranged
  have chars : "bytes */2".toList = "bytes ".toList ++ (first ++ '-' :: (last ++ '/' :: whole)) :=
    (congrArg String.toList (Option.some.inj (HeaderValue.mk.inj value_eq))).trans String.toList_ofList
  have rest : "*/2".toList = first ++ '-' :: (last ++ '/' :: whole) :=
    List.append_cancel_left (show "bytes ".toList ++ "*/2".toList = _ from chars)
  obtain ⟨c, later, rfl⟩ := List.exists_cons_of_ne_nil isStart.1
  have star : '*' = c := (List.cons.inj rest).1
  have digit := isStart.2 c List.mem_cons_self
  rw [← star] at digit
  exact absurd digit (by decide)

/-- A value without an offset empties a staging file with bytes in it. -/
theorem honours_broken : ¬∀ (sha256 : Sha256) (paths : StoragePaths) (request : TransferRequest)
    (before : ServerWorld) (value : HeaderValue), request.headers.contentRange = some value →
      Honours paths request before sha256 value := by
  intro always
  let request := sampleRequest (some "bytes */2") [[2]]
  have runs : ((serve (fun _ => []) samplePaths emptyServer (sampleRequest none [[1]])).bind
      fun first => (Machine.run Receiving.step Anyhow opens
        (.start (fun _ => []) samplePaths request first.2)).map fun reached =>
          (staged samplePaths request first.2, staged samplePaths request reached.world)) =
      some (some [1], some []) := by
    decide +kernel
  obtain ⟨⟨reply, before⟩, served, rest⟩ := Option.bind_eq_some_iff.mp runs
  obtain ⟨reached, ran, outcome⟩ := Option.map_eq_some_iff.mp rest
  obtain ⟨had, has⟩ := Prod.mk.inj outcome
  rcases always (fun _ => []) samplePaths request before ⟨some "bytes */2"⟩ rfl with
    ⟨start, ⟨size, -, ranged, -⟩, -⟩ | refused
  · exact unranged_sample ranged
  · have kept := (refused reached (Machine.reaches_of_run ran)).kept
    rw [had, has] at kept
    rcases kept with same | ⟨none, -⟩
    · cases same
    · cases none

end FileDrop.ContentRange
