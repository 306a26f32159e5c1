import FileDrop.Verif.Resume
import FileDrop.Foundation.Interleaving

/-!
# An upload that has its id to itself

What an upload comes to is a function of its request and of what was staged for it before, as long
as no one else touches its staging file and its session: `settle` says what it answers, what it
leaves staged and what it delivers. A handler keeps to that whatever others do elsewhere, and each
of its operations touches its own staging file, its own final path and its own session only. The
file at the final path changes in one operation, the rename of an upload that `settle` delivers.
-/
namespace FileDrop.Isolation
open FileDrop Effects Effects.Program Unix

/-! ## What an upload comes to -/

/-- How an upload ends. -/
structure Outcome where
  reply : Response
  /-- The staging file it leaves. -/
  staged : Option Bytes
  /-- The file it delivers to its final path. -/
  delivered : Option Bytes
  deriving DecidableEq

section

variable (sha256 : Sha256) (upload : Upload) (body : Body) (before : Option Bytes)

/-- The staging file after the upload has written a part of its body. -/
def stagedWith (absorbed : Bytes) : Bytes :=
  overlay (if upload.resumeOffset = 0 then [] else before.getD []) upload.resumeOffset.toNat absorbed

/-- The end of a complete upload. -/
def settleComplete (staged : Bytes) : Outcome := ⟨⟨200, "transfer complete"⟩, none, some staged⟩

/-- The end of an upload whose digest is compared. -/
def settleDigest (expected : String) (staged : Bytes) : Outcome :=
  let actual := sha256Hex sha256 staged
  if actual ≠ expected then
    ⟨⟨422, "checksum mismatch: expected " ++ expected ++ ", got " ++ actual⟩, none, none⟩
  else settleComplete staged

/-- The end of an upload of the announced size. -/
def settleVerify (staged : Bytes) : Outcome :=
  match upload.expectedSha256 with
  | none => settleComplete staged
  | some expected => settleDigest sha256 expected staged

/-- The end of an upload whose body has arrived. -/
def settleFinish (written : UInt64) (staged : Bytes) : Outcome :=
  if written ≠ upload.totalSize then
    ⟨⟨206, "received " ++ decimal written ++ " of " ++ decimal upload.totalSize ++
      " bytes; resumable"⟩, some staged, none⟩
  else settleVerify sha256 upload staged

/-- The end of an upload that streams its body into the staging file. -/
def settleStream : Outcome :=
  let staged := stagedWith upload before body.chunks.flatten
  match body.failure with
  | some error => ⟨⟨400, "stream error: " ++ error⟩, some staged, none⟩
  | none =>
    settleFinish sha256 upload (upload.resumeOffset + .ofNat body.chunks.flatten.length) staged

/-- The offset of an upload is a file offset. -/
abbrev Valid : Prop := upload.resumeOffset.toNat < offsetLimit

/-- What an upload comes to, given what was staged for it before. The staging file is open when the seek to
an offset that is none fails. -/
def settle : Outcome :=
  if Valid upload then settleStream sha256 upload body before
  else ⟨⟨500, IoError.invalidArgument.text⟩, some (stagedWith upload before []), none⟩

/-- A file that an upload may deliver: the body is whole and has the announced size, and the file has
the announced digest if there is one. -/
structure Complete (bytes : Bytes) : Prop where
  valid : Valid upload
  whole : body.failure = none
  counted : upload.resumeOffset + .ofNat body.chunks.flatten.length = upload.totalSize
  digest : ∀ expected ∈ upload.expectedSha256, sha256Hex sha256 bytes = expected

/-- An upload is complete and delivers what it has staged, or delivers nothing and is not answered as
complete. -/
theorem settle_cases :
    settle sha256 upload body before =
        settleComplete (stagedWith upload before body.chunks.flatten) ∧
      Complete sha256 upload body (stagedWith upload before body.chunks.flatten) ∨
    (settle sha256 upload body before).delivered = none ∧
      (settle sha256 upload body before).reply.status ≠ 200 := by
  by_cases valid : Valid upload
  swap
  · rw [settle, if_neg valid]
    exact .inr ⟨rfl, show (500 : Nat) ≠ 200 by decide⟩
  rw [settle, if_pos valid]
  unfold settleStream
  cases failed : body.failure with
  | some error => exact .inr ⟨rfl, show (400 : Nat) ≠ 200 by decide⟩
  | none =>
    dsimp only [settleFinish]
    split
    · exact .inr ⟨rfl, show (206 : Nat) ≠ 200 by decide⟩
    · rename_i counted
      unfold settleVerify
      split
      · rename_i announced
        have unchecked : ∀ expected ∈ upload.expectedSha256, sha256Hex sha256
            (stagedWith upload before body.chunks.flatten) = expected := by simp [announced]
        exact .inl ⟨rfl, valid, failed, of_not_not counted, unchecked⟩
      · rename_i expected announced
        dsimp only [settleDigest]
        split
        · exact .inr ⟨rfl, show (422 : Nat) ≠ 200 by decide⟩
        · rename_i agree
          have checked : ∀ other ∈ upload.expectedSha256, sha256Hex sha256
              (stagedWith upload before body.chunks.flatten) = other := by
            rw [announced]
            rintro other ⟨⟩
            exact of_not_not agree
          exact .inl ⟨rfl, valid, failed, of_not_not counted, checked⟩

variable {sha256 upload body before}

/-- An upload delivers what it has staged, and only a complete file. -/
theorem settle_delivered {bytes : Bytes}
    (delivers : (settle sha256 upload body before).delivered = some bytes) :
    settle sha256 upload body before = settleComplete bytes ∧
      bytes = stagedWith upload before body.chunks.flatten ∧ Complete sha256 upload body bytes := by
  rcases settle_cases sha256 upload body before with
    ⟨comes, complete⟩ | ⟨nothing, -⟩
  · rw [comes] at delivers ⊢
    obtain rfl := Option.some.inj delivers
    exact ⟨rfl, rfl, complete⟩
  · rw [nothing] at delivers
    cases delivers

/-- An upload is answered as complete exactly when it delivers a file. -/
theorem settle_answered : (settle sha256 upload body before).reply.status = 200 ↔
    ∃ bytes, (settle sha256 upload body before).delivered = some bytes := by
  constructor
  · intro answered
    rcases settle_cases sha256 upload body before with
      ⟨comes, -⟩ | ⟨-, other⟩
    · exact ⟨_, by rw [comes]; rfl⟩
    · exact absurd answered other
  · rintro ⟨bytes, delivers⟩
    rw [(settle_delivered delivers).1]
    rfl

/-- What a fresh upload has staged is what it has received. -/
theorem stagedWith_fresh (fresh : upload.resumeOffset = 0) (absorbed : Bytes) :
    stagedWith upload before absorbed = absorbed := by
  unfold stagedWith
  rw [if_pos fresh, fresh]
  exact (overlay_end [] absorbed).trans (List.nil_append _)

/-- Writing on. -/
theorem stagedWith_append (absorbed chunk : Bytes) :
    overlay (stagedWith upload before absorbed) (upload.resumeOffset.toNat + absorbed.length) chunk =
      stagedWith upload before (absorbed ++ chunk) :=
  overlay_append _ _ _ _

end

/-! ## What one operation may touch -/

/-- The operation that puts a file at its final path. -/
def renames : serverSig.Op → Bool
  | .file (.rename ..) => true
  | _ => false

/-- The handler has renamed its upload: it has answered 200, or only drops its session before. -/
def committed : Handler → Bool
  | .done (some response) => response.status = 200
  | .perform (.removeSession _) next =>
    match next () with
    | .done (some response) => response.status = 200
    | _ => false
  | _ => false

/-- A handler that waits for its session to be resumed has a session that is not paused. -/
def Awake : Handler → ServerWorld → Prop
  | .perform (.awaitResumed session) _, world =>
    session.cell < world.cells.fresh ∧ world.cells.isPaused session.cell = false
  | _, _ => True

/-- A session stays unpaused while the cells are kept. -/
theorem Awake.kept {handler : Handler} {before after : ServerWorld} (awake : Awake handler before)
    (cells : before.cells.Kept after.cells) : Awake handler after := by
  cases handler with
  | done reply => trivial
  | perform op next =>
    cases op with
    | awaitResumed session =>
      obtain ⟨made, unpaused⟩ := awake
      exact ⟨Nat.lt_of_lt_of_le made cells.fresh, (cells.paused _ made).trans unpaused⟩
    | file | insertSession | removeSession | nextChunk | isCancelled | addBytes => trivial

/-- The others leave an upload's staging file and its session alone. -/
structure Undisturbed (upload : Upload) (before after : ServerWorld) : Prop where
  entry : after.files.entries upload.stagingPath = before.files.entries upload.stagingPath
  staged : after.files.read upload.stagingPath = before.files.read upload.stagingPath
  session : after.sessions upload.transferId = before.sessions upload.transferId
  cells : before.cells.Kept after.cells

theorem Undisturbed.refl (upload : Upload) (world : ServerWorld) : Undisturbed upload world world :=
  ⟨rfl, rfl, rfl, .refl _⟩

theorem Undisturbed.trans {upload : Upload} {first second third : ServerWorld}
    (near : Undisturbed upload first second) (far : Undisturbed upload second third) :
    Undisturbed upload first third :=
  ⟨far.entry.trans near.entry, far.staged.trans near.staged, far.session.trans near.session,
    near.cells.trans far.cells⟩

section

variable {Choice : Type} (wide : Choice → Fault)

/-- The operations under the faults that the environment may choose. -/
abbrev faulty : Meaning serverSig ServerWorld Choice := fun world op choice =>
  serverExec world op (wide choice)

/-- No operation fails. -/
def Steady : Prop := ∀ choice, wide choice = .none

variable (sha256 : Sha256) (upload : Upload) (body : Body) (old : Option Bytes)

/-- What one operation of a handler does to the final path: nothing, or it commits the upload. -/
inductive Delivers (handler : Handler) (before : ServerWorld) (rest : Handler)
    (after : ServerWorld) : Prop where
  | nothing (same : after.files.read upload.finalPath = before.files.read upload.finalPath)
      (stays : committed rest = committed handler)
      (left : committed handler → after.files = before.files)
  | commit (bytes : Bytes) (waits : handler.At renames) (early : committed handler = false)
      (late : committed rest = true)
      (delivers : (settle sha256 upload body old).delivered = some bytes)
      (staged : before.files.read upload.stagingPath = some bytes)
      (gone : after.files.read upload.stagingPath = none)
      (there : after.files.read upload.finalPath = some bytes)

/-- What one operation of a handler does. -/
structure Effect (handler : Handler) (before : ServerWorld) (rest : Handler) (after : ServerWorld) :
    Prop where
  others : ∀ path, path ≠ upload.stagingPath → path ≠ upload.finalPath →
    after.files.entries path = before.files.entries path ∧
      after.files.read path = before.files.read path
  sessions : ∀ id, id ≠ upload.transferId → after.sessions id = before.sessions id
  cells : before.cells.Kept after.cells
  final : Delivers sha256 upload body old handler before rest after
  ends : Steady wide → ∀ reply, rest = .done reply →
    reply = some (settle sha256 upload body old).reply ∧
      after.files.read upload.stagingPath = (settle sha256 upload body old).staged ∧
      (Valid upload → after.sessions upload.transferId = none)
  /-- A handler that cannot seek never gets to its session. -/
  stuck : ¬Valid upload → after.sessions upload.transferId = before.sessions upload.transferId
  awake : Awake rest after

/-- A handler that keeps to what its upload comes to, whatever others do elsewhere. -/
abbrev Tidy : Handler → ServerWorld → Prop :=
  Safe (faulty wide) (fun _ => Undisturbed upload) (Effect wide sha256 upload body old)

variable {wide sha256 upload body old}

/-- An operation of a handler that knows something the others keep. -/
theorem tidy_step {op : ServerOp} {next : op.Result → Handler} {known : ServerWorld → Prop}
    (stable : ∀ before after, known before → Undisturbed upload before after → known after)
    (sound : ∀ seen choice result after, known seen →
      serverExec seen op (wide choice) = some (result, after) →
        Effect wide sha256 upload body old (.perform op next) seen (next result) after ∧
          Tidy wide sha256 upload body old (next result) after)
    {world : ServerWorld} (knows : known world) :
    Tidy wide sha256 upload body old (.perform op next) world :=
  Safe.of_assertion stable sound knows

/-- The effect of an operation that changes no file. -/
theorem effect_quiet {handler rest : Handler} {before after : ServerWorld}
    (files : after.files = before.files)
    (sessions : ∀ id, id ≠ upload.transferId ∨ ¬Valid upload → after.sessions id = before.sessions id)
    (cells : before.cells.Kept after.cells) (stays : committed rest = committed handler)
    (ends : Steady wide → ∀ reply, rest = .done reply →
      reply = some (settle sha256 upload body old).reply ∧
        after.files.read upload.stagingPath = (settle sha256 upload body old).staged ∧
        (Valid upload → after.sessions upload.transferId = none))
    (awake : Awake rest after) : Effect wide sha256 upload body old handler before rest after where
  others path _ _ := by rw [files]; exact ⟨rfl, rfl⟩
  sessions id other := sessions id (.inl other)
  cells := cells
  final := .nothing (by rw [files]) stays fun _ => files
  ends := ends
  stuck invalid := sessions _ (.inr invalid)
  awake := awake

/-- The effect of an operation that may change the staging file only. -/
theorem effect_staging {handler rest : Handler} {before after : ServerWorld}
    (apart : upload.stagingPath ≠ upload.finalPath)
    (others : ∀ path, path ≠ upload.stagingPath →
      after.files.entries path = before.files.entries path ∧
        after.files.read path = before.files.read path)
    (sessions : after.sessions = before.sessions) (cells : after.cells = before.cells)
    (early : committed handler = false) (stays : committed rest = false)
    (ends : Steady wide → ∀ reply, rest = .done reply →
      reply = some (settle sha256 upload body old).reply ∧
        after.files.read upload.stagingPath = (settle sha256 upload body old).staged ∧
        (Valid upload → after.sessions upload.transferId = none))
    (awake : Awake rest after) : Effect wide sha256 upload body old handler before rest after where
  others path notStaging _ := others path notStaging
  sessions id _ := by rw [sessions]
  cells := by rw [cells]; exact .refl _
  final := .nothing (others _ apart.symm).2 (stays.trans early.symm)
    fun done => absurd (early.symm.trans done) (by decide)
  ends := ends
  stuck _ := by rw [sessions]
  awake := awake

/-- A handler that is not at its end, nor about to answer 200. -/
structure Continues (handler : Handler) (world : ServerWorld) : Prop where
  early : committed handler = false
  waits : ∀ reply, handler ≠ .done reply
  awake : Awake handler world

/-- A handler at a file operation continues. -/
theorem continues_file {op : FileOp Path} {next : op.Result → Handler} {world : ServerWorld} :
    Continues (.perform (.file op) next) world :=
  ⟨rfl, fun _ done => (nomatch done), trivial⟩

/-- A handler at the next chunk continues. -/
theorem continues_chunkLoop {session : TransferSession} {failure : Option String}
    {rest : List Bytes} {hasher : Sha256Hasher} {written : UInt64} {file : Handle}
    {world : ServerWorld} :
    Continues (chunkLoop sha256 upload session failure rest hasher written file) world := by
  cases rest with
  | nil => exact ⟨rfl, fun _ done => (nomatch done), trivial⟩
  | cons chunk rest => exact ⟨rfl, fun _ done => (nomatch done), trivial⟩

/-- A handler that makes its session continues. -/
theorem continues_stream {file : Handle} {world : ServerWorld} :
    Continues (streamUpload sha256 upload body file) world :=
  ⟨rfl, fun _ done => (nomatch done), trivial⟩

/-- A handler that compares digests continues. -/
theorem continues_checkDigest {expected actual : String} {world : ServerWorld} :
    Continues (checkDigest upload expected actual) world := by
  unfold checkDigest
  split
  · exact ⟨rfl, fun _ done => (nomatch done), trivial⟩
  · exact continues_file

/-- A handler that verifies continues. -/
theorem continues_verify {hasher : Sha256Hasher} {world : ServerWorld} :
    Continues (verifyUpload sha256 upload hasher) world := by
  unfold verifyUpload
  split
  · exact continues_file
  · split
    · exact continues_checkDigest
    · exact continues_file

/-- The effect of an operation that changes no file, of a handler that goes on. -/
theorem effect_goesOn {handler rest : Handler} {before after : ServerWorld}
    (files : after.files = before.files) (sessions : after.sessions = before.sessions)
    (cells : before.cells.Kept after.cells) (early : committed handler = false)
    (goes : Continues rest after) : Effect wide sha256 upload body old handler before rest after :=
  effect_quiet files (fun id _ => by rw [sessions]) cells (goes.early.trans early.symm)
    (fun _ reply done => absurd done (goes.waits reply)) goes.awake

/-- The effect of a failed operation that changes no file. -/
theorem effect_failed {handler : Handler} {error : IoError} {before after : ServerWorld}
    (files : after.files = before.files) (sessions : after.sessions = before.sessions)
    (cells : after.cells = before.cells) (early : committed handler = false)
    (fault : ¬Steady wide) :
    Effect wide sha256 upload body old handler before (serverError error) after :=
  effect_quiet files (fun id _ => by rw [sessions]) (cells ▸ .refl _) early.symm
    (fun steady => absurd steady fault) trivial

/-! ## The handler, from its end to its beginning -/

/-- Dropping the session and answering. -/
theorem tidy_close {status : Nat} {text : String} {world : ServerWorld}
    (valid : Valid upload) (ends : Steady wide → (settle sha256 upload body old).reply = ⟨status, text⟩ ∧
      world.files.read upload.stagingPath = (settle sha256 upload body old).staged) :
    Tidy wide sha256 upload body old (dropSession upload (respond status text)) world := by
  have stable : ∀ before after : ServerWorld,
      (Steady wide → (settle sha256 upload body old).reply = ⟨status, text⟩ ∧
        before.files.read upload.stagingPath = (settle sha256 upload body old).staged) →
      Undisturbed upload before after →
      (Steady wide → (settle sha256 upload body old).reply = ⟨status, text⟩ ∧
        after.files.read upload.stagingPath = (settle sha256 upload body old).staged) := by
    intro before after known still steady
    obtain ⟨reply, staged⟩ := known steady
    exact ⟨reply, still.staged.trans staged⟩
  refine tidy_step stable (fun seen choice result after known ran => ?_) ends
  refine ⟨?_, trivial⟩
  obtain ⟨-, rfl⟩ := Prod.mk.inj (Option.some.inj ran)
  refine effect_quiet rfl (fun id other =>
    Function.update_of_ne (other.resolve_right (not_not_intro valid)) _ _) (.refl _) rfl ?_ trivial
  rintro steady reply ⟨⟩
  obtain ⟨answered, staged⟩ := known steady
  exact ⟨by rw [answered], staged, fun _ => Function.update_self ..⟩

/-- Dropping the session and the staging file, and answering. -/
theorem tidy_discard {status : Nat} {text : String} {world : ServerWorld}
    (valid : Valid upload) (apart : upload.stagingPath ≠ upload.finalPath) (failed : status ≠ 200)
    (comes : settle sha256 upload body old = ⟨⟨status, text⟩, none, none⟩) :
    Tidy wide sha256 upload body old (dropSession upload <|
      (serverFile (.remove upload.stagingPath)).bind fun _ => respond status text) world := by
  have stable : ∀ before after : ServerWorld, True → Undisturbed upload before after → True :=
    fun _ _ _ _ => trivial
  refine tidy_step stable (fun seen choice result after _ ran => ?_) trivial
  obtain ⟨-, rfl⟩ := Prod.mk.inj (Option.some.inj ran)
  refine ⟨effect_quiet rfl (fun id other =>
    Function.update_of_ne (other.resolve_right (not_not_intro valid)) _ _) (.refl _) rfl ?_ trivial, ?_⟩
  · exact fun steady reply waits => nomatch waits
  have dropped : ∀ before after : ServerWorld, before.sessions upload.transferId = none →
      Undisturbed upload before after → after.sessions upload.transferId = none :=
    fun before after gone still => still.session.trans gone
  refine tidy_step dropped (fun seen choice result after gone ran => ?_) (Function.update_self ..)
  refine ⟨?_, trivial⟩
  obtain ⟨moved, without⟩ := FileOp.exec_remove (serverExec_file ran)
  obtain ⟨sessions, cells⟩ := serverExec_file_sessions ran
  have others : ∀ path, path ≠ upload.stagingPath →
      after.files.entries path = seen.files.entries path ∧
        after.files.read path = seen.files.read path := by
    intro path other
    rcases moved with same | removed
    · rw [same]
      exact ⟨rfl, rfl⟩
    · rw [removed]
      exact ⟨FileStore.remove_entries_ne _ other, FileStore.read_remove_ne _ other⟩
  have stays : committed (respond status text) = false := by simp [committed, respond, failed]
  refine effect_staging apart others sessions cells rfl stays ?_ trivial
  rintro steady reply ⟨⟩
  rw [comes, sessions]
  exact ⟨rfl, without (steady choice), fun _ => gone⟩

/-- The rename of an upload that comes to it. -/
theorem tidy_commit {bytes : Bytes} {world : ServerWorld}
    (valid : Valid upload) (apart : upload.stagingPath ≠ upload.finalPath)
    (comes : settle sha256 upload body old = settleComplete bytes)
    (staged : world.files.read upload.stagingPath = some bytes) :
    Tidy wide sha256 upload body old (commitUpload upload) world := by
  have stable : ∀ before after : ServerWorld,
      before.files.read upload.stagingPath = some bytes → Undisturbed upload before after →
      after.files.read upload.stagingPath = some bytes :=
    fun before after staged still => still.staged.trans staged
  refine tidy_step stable (fun seen choice result after staged ran => ?_) staged
  have exec := serverExec_file ran
  rcases FileOp.exec_rename exec with ⟨error, rfl, same⟩ | ⟨rfl, renamed⟩
  · obtain ⟨sessions, cells⟩ := serverExec_file_sessions ran
    refine ⟨effect_failed same sessions cells rfl fun steady => ?_, trivial⟩
    obtain ⟨moved, renamed⟩ := Option.ne_none_iff_exists'.mp fun none =>
      absurd ((seen.files.rename_eq_none upload.stagingPath upload.finalPath).mp none)
        (by simp [staged])
    rw [steady choice] at exec
    simp [FileOp.exec, FileOp.carryOut, renamed] at exec
  · obtain ⟨sessions, cells⟩ := serverExec_file_sessions ran
    have gone := FileStore.read_rename_source apart renamed
    have there := (FileStore.read_rename_target renamed).trans staged
    refine ⟨?_, tidy_close valid fun _ => ⟨by rw [comes]; rfl, by rw [comes]; exact gone⟩⟩
    exact {
      others := fun path notStaging notFinal =>
        ⟨FileStore.rename_entries_ne notStaging notFinal renamed,
          FileStore.read_rename_ne notStaging notFinal renamed⟩
      sessions := fun id _ => by rw [sessions]
      cells := cells ▸ .refl _
      final := .commit bytes rfl rfl rfl (by rw [comes]; rfl) staged gone there
      ends := fun _ _ waits => by cases waits
      stuck := fun _ => by rw [sessions]
      awake := trivial }

/-- The comparison of the staged bytes' digest. -/
theorem tidy_checkDigest {expected actual : String} {bytes : Bytes} {world : ServerWorld}
    (valid : Valid upload) (apart : upload.stagingPath ≠ upload.finalPath)
    (digest : actual = sha256Hex sha256 bytes)
    (comes : settle sha256 upload body old = settleDigest sha256 expected bytes)
    (staged : world.files.read upload.stagingPath = some bytes) :
    Tidy wide sha256 upload body old (checkDigest upload expected actual) world := by
  subst digest
  unfold checkDigest
  split
  · rename_i differs
    have notOk : (422 : Nat) ≠ 200 := by decide
    refine tidy_discard valid apart notOk ?_
    rw [comes, settleDigest]
    exact if_pos differs
  · rename_i agree
    refine tidy_commit valid apart ?_ staged
    rw [comes, settleDigest]
    exact if_neg agree

/-- What is staged stays staged, as far as the others are concerned. -/
theorem staged_stable {bytes : Bytes} (before after : ServerWorld)
    (staged : before.files.read upload.stagingPath = some bytes)
    (still : Undisturbed upload before after) :
    after.files.read upload.stagingPath = some bytes :=
  still.staged.trans staged

/-- The verification of an upload of the announced size. -/
theorem tidy_verify {hasher : Sha256Hasher} {world : ServerWorld}
    (valid : Valid upload) (apart : upload.stagingPath ≠ upload.finalPath)
    (comes : settle sha256 upload body old =
      settleVerify sha256 upload (stagedWith upload old hasher.absorbed))
    (staged : world.files.read upload.stagingPath = some (stagedWith upload old hasher.absorbed)) :
    Tidy wide sha256 upload body old (verifyUpload sha256 upload hasher) world := by
  unfold verifyUpload
  split
  · rename_i unannounced
    refine tidy_commit valid apart ?_ staged
    rw [comes, settleVerify, unannounced]
  · rename_i expected announced
    have compares : settle sha256 upload body old =
        settleDigest sha256 expected (stagedWith upload old hasher.absorbed) := by
      rw [comes, settleVerify, announced]
    split
    · rename_i fresh
      refine tidy_checkDigest valid apart ?_ compares staged
      rw [Sha256Hasher.finalizeHex, stagedWith_fresh fresh]
    · refine tidy_step staged_stable (fun seen choice result after staged ran => ?_) staged
      have same := serverExec_harmless rfl ran
      have exec := serverExec_file ran
      obtain ⟨sessions, cells⟩ := serverExec_file_sessions ran
      rcases FileOp.exec_read exec with ⟨error, rfl⟩ | ⟨bytes, rfl, reads⟩
      · refine ⟨effect_failed same sessions cells rfl fun steady => ?_, trivial⟩
        rw [steady choice] at exec
        simp [FileOp.exec, FileOp.carryOut, staged] at exec
      · obtain rfl := Option.some.inj (reads.symm.trans staged)
        refine ⟨effect_goesOn same sessions (cells ▸ .refl _) rfl continues_checkDigest, ?_⟩
        exact tidy_checkDigest valid apart rfl compares (same ▸ staged)

/-- The end of the body. -/
theorem tidy_finish {hasher : Sha256Hasher} {written : UInt64} {file : Handle} {world : ServerWorld}
    (valid : Valid upload) (apart : upload.stagingPath ≠ upload.finalPath)
    (comes : settle sha256 upload body old =
      settleFinish sha256 upload written (stagedWith upload old hasher.absorbed))
    (staged : world.files.read upload.stagingPath = some (stagedWith upload old hasher.absorbed)) :
    Tidy wide sha256 upload body old (finishUpload sha256 upload hasher written file) world := by
  refine tidy_step staged_stable (fun seen choice result after staged ran => ?_) staged
  have same := serverExec_harmless rfl ran
  obtain ⟨sessions, cells⟩ := serverExec_file_sessions ran
  cases result with
  | error error =>
    have fails := FileOp.exec_flush (serverExec_file ran)
    exact ⟨effect_failed same sessions cells rfl fun steady => fails (steady choice), trivial⟩
  | ok done =>
    by_cases counted : written = upload.totalSize
    · simp only [counted, ne_eq, not_true_eq_false, if_false]
      refine ⟨effect_goesOn same sessions (cells ▸ .refl _) rfl continues_verify, ?_⟩
      refine tidy_verify valid apart ?_ (same ▸ staged)
      rw [comes, settleFinish]
      exact if_neg (not_not_intro counted)
    · simp only [counted, ne_eq, not_false_eq_true, if_true]
      have incomplete : settle sha256 upload body old =
          ⟨⟨206, "received " ++ decimal written ++ " of " ++ decimal upload.totalSize ++
            " bytes; resumable"⟩, some (stagedWith upload old hasher.absorbed), none⟩ := by
        rw [comes, settleFinish]
        exact if_pos counted
      refine ⟨effect_goesOn same sessions (cells ▸ .refl _) rfl ?_, tidy_close valid fun _ => ?_⟩
      · exact ⟨rfl, fun _ done => (nomatch done), trivial⟩
      · rw [incomplete]
        exact ⟨rfl, same ▸ staged⟩

/-- What a handler knows while it streams. -/
structure Streaming (upload : Upload) (old : Option Bytes) (session : TransferSession)
    (absorbed : Bytes) (written : UInt64) (file : Handle) (world : ServerWorld) : Prop where
  leads : world.files.entries upload.stagingPath = some file.inode
  staged : world.files.read upload.stagingPath = some (stagedWith upload old absorbed)
  position : file.position = upload.resumeOffset.toNat + absorbed.length
  counted : written = upload.resumeOffset + .ofNat absorbed.length
  made : session.cell < world.cells.fresh
  awake : world.cells.isPaused session.cell = false
  wanted : world.cells.isCancelled session.cell = false

/-- A handler knows that whatever the others do. -/
theorem Streaming.stable {session : TransferSession} {absorbed : Bytes} {written : UInt64}
    {file : Handle} (before after : ServerWorld)
    (streaming : Streaming upload old session absorbed written file before)
    (still : Undisturbed upload before after) :
    Streaming upload old session absorbed written file after where
  leads := still.entry.trans streaming.leads
  staged := still.staged.trans streaming.staged
  position := streaming.position
  counted := streaming.counted
  made := Nat.lt_of_lt_of_le streaming.made still.cells.fresh
  awake := (still.cells.paused _ streaming.made).trans streaming.awake
  wanted := (still.cells.cancelled _ streaming.made).trans streaming.wanted

/-- A chunk that is written is hashed and counted with the ones before it. -/
theorem Streaming.write {session : TransferSession} {hasher : Sha256Hasher} {written : UInt64}
    {chunk : Bytes} {file : Handle} {seen after : ServerWorld}
    (streaming : Streaming upload old session hasher.absorbed written file seen)
    (wrote : after.files = (seen.files.write file chunk).2) (cells : after.cells = seen.cells) :
    Streaming upload old session (hasher.update chunk).absorbed (written + .ofNat chunk.length)
      (seen.files.write file chunk).1 after where
  leads := by rw [wrote]; exact streaming.leads
  staged := by
    rw [wrote, FileStore.read_write _ chunk streaming.leads streaming.staged,
      streaming.position, stagedWith_append, Sha256Hasher.update]
  position := by
    rw [FileStore.write_position, streaming.position, Sha256Hasher.update,
      List.length_append, Nat.add_assoc]
  counted := by
    rw [streaming.counted, Sha256Hasher.update, List.length_append, UInt64.ofNat_add,
      UInt64.add_assoc]
  made := by rw [cells]; exact streaming.made
  awake := by rw [cells]; exact streaming.awake
  wanted := by rw [cells]; exact streaming.wanted

/-- The write of a chunk, and the count of it. -/
theorem tidy_writeChunk {session : TransferSession} {hasher : Sha256Hasher} {chunk : Bytes}
    {written : UInt64} {file : Handle} {next : Handle → Handler} {world : ServerWorld}
    (valid : Valid upload) (apart : upload.stagingPath ≠ upload.finalPath)
    (goes : ∀ moved after, Continues (next moved) after)
    (later : ∀ moved seen, Streaming upload old session (hasher.update chunk).absorbed
      (written + .ofNat chunk.length) moved seen → Tidy wide sha256 upload body old (next moved) seen)
    (streaming : Streaming upload old session hasher.absorbed written file world) :
    Tidy wide sha256 upload body old
      ((serverFile (.write file chunk)).attempt
        (fun error => dropSession upload (serverError error)) fun moved =>
        .perform (.addBytes session (.ofNat chunk.length)) fun _ => next moved) world := by
  refine tidy_step Streaming.stable (fun seen choice result after streaming ran => ?_) streaming
  obtain ⟨sessions, cells⟩ := serverExec_file_sessions ran
  have elsewhere : ∀ path, path ≠ upload.stagingPath →
      seen.files.entries path ≠ some file.inode := fun path other leads =>
    other (seen.files.single path _ _ leads streaming.leads)
  have others (part : Bytes) : ∀ path, path ≠ upload.stagingPath →
      (seen.files.write file part).2.entries path = seen.files.entries path ∧
        (seen.files.write file part).2.read path = seen.files.read path :=
    fun path other => ⟨rfl, FileStore.read_write_ne _ part (elsewhere path other)⟩
  rcases FileOp.exec_write_part (serverExec_file ran) with
    ⟨error, part, -, rfl, fault, wrote⟩ | ⟨rfl, wrote⟩
  · refine ⟨?_, ?_⟩
    · exact effect_staging apart (wrote ▸ others part) sessions cells rfl rfl
        (fun _ reply done => by cases done) trivial
    · exact tidy_close valid fun steady => absurd (steady choice) fault
  · have moved := streaming.write wrote cells
    refine ⟨?_, ?_⟩
    · exact effect_staging apart (wrote ▸ others chunk) sessions cells rfl rfl
        (fun _ reply done => by cases done) trivial
    refine tidy_step Streaming.stable (fun seen choice result after streaming ran => ?_) moved
    obtain ⟨-, rfl⟩ := Prod.mk.inj (Option.some.inj ran)
    refine ⟨effect_goesOn rfl rfl (SessionCells.kept_addBytes ..) rfl (goes _ _), later _ _ ?_⟩
    exact ⟨streaming.leads, streaming.staged, streaming.position, streaming.counted,
      streaming.made, (SessionCells.isPaused_addBytes ..).trans streaming.awake,
      (SessionCells.isCancelled_addBytes ..).trans streaming.wanted⟩

/-- The chunk loop on what is left of the body. -/
theorem tidy_chunkLoop {session : TransferSession} {hasher : Sha256Hasher} {rest : List Bytes}
    {written : UInt64} {file : Handle} {world : ServerWorld}
    (valid : Valid upload) (apart : upload.stagingPath ≠ upload.finalPath)
    (received : body.chunks.flatten = hasher.absorbed ++ rest.flatten)
    (streaming : Streaming upload old session hasher.absorbed written file world) :
    Tidy wide sha256 upload body old
      (chunkLoop sha256 upload session body.failure rest hasher written file) world := by
  induction rest generalizing hasher written file world with
  | nil =>
    refine tidy_step Streaming.stable (fun seen choice result after streaming ran => ?_) streaming
    obtain ⟨-, rfl⟩ := Prod.mk.inj (Option.some.inj ran)
    have whole : body.chunks.flatten = hasher.absorbed := by simpa using received
    split
    · rename_i error failed
      have comes : settle sha256 upload body old = ⟨⟨400, "stream error: " ++ error⟩,
          some (stagedWith upload old hasher.absorbed), none⟩ := by
        rw [settle, if_pos valid]
        simp only [settleStream, failed, whole]
      refine ⟨effect_goesOn rfl rfl (.refl _) rfl ?_, tidy_close valid fun _ => ?_⟩
      · exact ⟨rfl, fun _ done => (by cases done), trivial⟩
      · rw [comes]
        exact ⟨rfl, streaming.staged⟩
    · rename_i ended
      refine ⟨effect_goesOn rfl rfl (.refl _) rfl continues_file, ?_⟩
      refine tidy_finish valid apart ?_ streaming.staged
      rw [settle, if_pos valid]
      simp only [settleStream, ended, whole, streaming.counted]
  | cons chunk rest ih =>
    refine tidy_step Streaming.stable (fun seen choice result after streaming ran => ?_) streaming
    obtain ⟨-, rfl⟩ := Prod.mk.inj (Option.some.inj ran)
    refine ⟨effect_goesOn rfl rfl (.refl _) rfl ⟨rfl, fun _ done => (by cases done), trivial⟩, ?_⟩
    refine tidy_step Streaming.stable (fun seen choice cancelled after streaming ran => ?_) streaming
    obtain ⟨rfl, rfl⟩ := Prod.mk.inj (Option.some.inj ran)
    simp only [streaming.wanted, Bool.false_eq_true, if_false]
    have waits : Awake (.perform (.awaitResumed session) fun _ =>
        (serverFile (.write file chunk)).attempt
          (fun error => dropSession upload (serverError error)) fun moved =>
        .perform (.addBytes session (.ofNat chunk.length)) fun _ =>
          chunkLoop sha256 upload session body.failure rest (hasher.update chunk)
            (written + .ofNat chunk.length) moved) seen := ⟨streaming.made, streaming.awake⟩
    refine ⟨effect_goesOn rfl rfl (.refl _) rfl ⟨rfl, fun _ done => (by cases done), waits⟩, ?_⟩
    refine tidy_step Streaming.stable (fun seen choice result after streaming ran => ?_) streaming
    have still : after = seen := by
      simp only [serverExec, streaming.awake, Bool.false_eq_true, if_false] at ran
      exact (Prod.mk.inj (Option.some.inj ran)).2.symm
    subst still
    refine ⟨effect_goesOn rfl rfl (.refl _) rfl continues_file, ?_⟩
    refine tidy_writeChunk valid apart (fun _ _ => continues_chunkLoop) (fun _ _ moved => ih ?_ moved) streaming
    rw [received, List.flatten_cons, Sha256Hasher.update, List.append_assoc]

/-- What the others leave alone keeps an open staging file as it is. -/
theorem opened_stable {file : Handle} {bytes : Bytes} (before after : ServerWorld)
    (known : before.files.entries upload.stagingPath = some file.inode ∧
      before.files.read upload.stagingPath = some bytes) (still : Undisturbed upload before after) :
    after.files.entries upload.stagingPath = some file.inode ∧
      after.files.read upload.stagingPath = some bytes :=
  ⟨still.entry.trans known.1, still.staged.trans known.2⟩

/-- A handler whose staging file is open and positioned. -/
theorem tidy_stream {file : Handle} {world : ServerWorld}
    (valid : Valid upload) (apart : upload.stagingPath ≠ upload.finalPath)
    (position : file.position = upload.resumeOffset.toNat)
    (leads : world.files.entries upload.stagingPath = some file.inode)
    (staged : world.files.read upload.stagingPath = some (stagedWith upload old [])) :
    Tidy wide sha256 upload body old (streamUpload sha256 upload body file) world := by
  refine tidy_step opened_stable (fun seen choice session after known ran => ?_) ⟨leads, staged⟩
  obtain ⟨rfl, rfl⟩ := Prod.mk.inj (Option.some.inj ran)
  obtain ⟨awake, wanted⟩ := seen.cells.allocate_calm upload.resumeOffset
  have goes {last : ServerWorld} : Continues (chunkLoop sha256 upload
      ⟨upload.transferId, upload.safeName, upload.totalSize, .receive, seen.cells.fresh⟩ body.failure
        body.chunks .new upload.resumeOffset file) last := continues_chunkLoop
  refine ⟨?_, ?_⟩
  · refine effect_quiet rfl (fun id other =>
      Function.update_of_ne (other.resolve_right (not_not_intro valid)) _ _)
      (SessionCells.kept_allocate ..) (@goes seen).early ?_ goes.awake
    exact fun _ reply done => absurd done ((@goes seen).waits reply)
  · refine tidy_chunkLoop valid apart rfl ?_
    exact {
      leads := known.1
      staged := known.2
      position := position
      counted := by simp [Sha256Hasher.new]
      made := Nat.lt_succ_self _
      awake := awake
      wanted := wanted }

/-- A handler that moves to its resume offset. -/
theorem tidy_seek {file : Handle} {world : ServerWorld}
    (apart : upload.stagingPath ≠ upload.finalPath)
    (leads : world.files.entries upload.stagingPath = some file.inode)
    (staged : world.files.read upload.stagingPath = some (stagedWith upload old [])) :
    Tidy wide sha256 upload body old
      ((serverFile (.seek file upload.resumeOffset.toNat)).attempt serverError fun positioned =>
        streamUpload sha256 upload body positioned) world := by
  refine tidy_step opened_stable (fun seen choice result after known ran => ?_) ⟨leads, staged⟩
  have same := serverExec_harmless rfl ran
  obtain ⟨sessions, cells⟩ := serverExec_file_sessions ran
  rcases FileOp.exec_seek (serverExec_file ran) with
    ⟨error, rfl, fails | ⟨none, rfl⟩⟩ | ⟨rfl, valid⟩
  · exact ⟨effect_failed same sessions cells rfl fun steady => fails (steady choice), trivial⟩
  · have invalid : ¬Valid upload := Nat.not_lt.mpr none
    refine ⟨effect_quiet same (fun id _ => by rw [sessions]) (cells ▸ .refl _) rfl ?_ trivial, trivial⟩
    rintro - reply ⟨⟩
    rw [settle, if_neg invalid]
    exact ⟨rfl, same ▸ known.2, fun valid => absurd valid invalid⟩
  · refine ⟨effect_goesOn same sessions (cells ▸ .refl _) rfl continues_stream, ?_⟩
    exact tidy_stream valid apart rfl (same ▸ known.1) (same ▸ known.2)

/-- A handler before its staging file is open. -/
theorem tidy_open {world : ServerWorld} (apart : upload.stagingPath ≠ upload.finalPath)
    (start : world.files.read upload.stagingPath = old) :
    Tidy wide sha256 upload body old (openStaging sha256 upload body) world := by
  have stable : ∀ before after : ServerWorld, before.files.read upload.stagingPath = old →
      Undisturbed upload before after → after.files.read upload.stagingPath = old :=
    fun before after start still => still.staged.trans start
  refine tidy_step stable (fun seen choice result after start ran => ?_) start
  obtain ⟨sessions, cells⟩ := serverExec_file_sessions ran
  rcases FileOp.exec_openWrite (serverExec_file ran) with ⟨error, rfl, fails, same⟩ | ⟨rfl, opened⟩
  · exact ⟨effect_failed same sessions cells rfl fun steady => fails (steady choice), trivial⟩
  have leads : after.files.entries upload.stagingPath =
      some (seen.files.openWrite upload.stagingPath (upload.resumeOffset = 0)).1.inode := by
    rw [opened]
    exact seen.files.openWrite_entries _ _
  have staged : after.files.read upload.stagingPath = some (stagedWith upload old []) := by
    rw [opened, FileStore.read_openWrite, start]
    simp [stagedWith]
  have others : ∀ path, path ≠ upload.stagingPath →
      after.files.entries path = seen.files.entries path ∧
        after.files.read path = seen.files.read path := by
    intro path other
    rw [opened]
    exact ⟨FileStore.openWrite_entries_ne _ _ other, FileStore.read_openWrite_ne _ _ other⟩
  have effect {handler rest : Handler} (early : committed handler = false)
      (goes : Continues rest after) : Effect wide sha256 upload body old handler seen rest after :=
    effect_staging apart others sessions cells early goes.early
      (fun _ reply done => absurd done (goes.waits reply)) goes.awake
  simp only [bind_done]
  split
  · exact ⟨effect rfl continues_file, tidy_seek apart leads staged⟩
  · rename_i notPositive
    have zero : upload.resumeOffset.toNat = 0 := by
      have le := UInt64.not_lt.mp notPositive
      simpa [UInt64.le_iff_toNat_le] using le
    have valid : Valid upload := by
      rw [Valid, zero]
      decide
    refine ⟨effect rfl continues_stream, tidy_stream valid apart ?_ leads staged⟩
    rw [zero]
    exact seen.files.openWrite_position _ _

/-- An accepted upload. -/
theorem tidy_receive {paths : StoragePaths} {request : TransferRequest} {world : ServerWorld}
    (accepted : acceptRequest paths request.transferId request.headers = some (.ok upload)) :
    Tidy wide sha256 upload request.body (world.files.read upload.stagingPath)
      (receiveTransfer sha256 paths request) world := by
  obtain ⟨-, staging, final, -, -, -, -⟩ := acceptRequest_ok accepted
  have apart : upload.stagingPath ≠ upload.finalPath := by
    rw [staging, final]
    exact staging_ne_received paths _ _
  have stable : ∀ before after : ServerWorld,
      before.files.read upload.stagingPath = world.files.read upload.stagingPath →
      Undisturbed upload before after →
      after.files.read upload.stagingPath = world.files.read upload.stagingPath :=
    fun before after start still => still.staged.trans start
  simp only [receiveTransfer, accepted]
  refine tidy_step stable (fun seen choice result after start ran => ?_) rfl
  have same := serverExec_harmless rfl ran
  obtain ⟨sessions, cells⟩ := serverExec_file_sessions ran
  cases result with
  | error error =>
    have fails := FileOp.exec_createDirAll (serverExec_file ran)
    exact ⟨effect_failed same sessions cells rfl fun steady => fails (steady choice), trivial⟩
  | ok created =>
    refine ⟨effect_goesOn same sessions (cells ▸ .refl _) rfl continues_file, ?_⟩
    exact tidy_open apart (same ▸ start)

end

end FileDrop.Isolation
