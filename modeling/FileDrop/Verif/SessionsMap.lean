import FileDrop.Foundation.Interleaving
import FileDrop.Transfer.Server
import FileDrop.Verif.Resume

/-!
# The sessions map

`AppState::sessions` is to hold the uploads in progress. A handler puts its session in once and takes it
out on its way to a reply, by its id. Three ways to a reply leave it in, two take it out before the
handler is done, and a removal takes out whatever session the id has by then. As long as none of this
shows, the keys of the map are the uploads that have inserted and not returned.
-/
namespace FileDrop.SessionsMap
open FileDrop Effects Effects.Program Unix

/-! ## Handlers and their sessions -/

/-- What handlers share, with the session that each of them has inserted. -/
structure Noted (ι : Type) where
  server : ServerWorld
  made : ι → Option TransferSession

/-- Note the session a handler inserts. -/
def note {ι : Type} [DecidableEq ι] (i : ι) (made : ι → Option TransferSession) :
    (op : ServerOp) → op.Result → ι → Option TransferSession
  | .insertSession .., session => Function.update made i (some session)
  | _, _ => made

/-- The operations, with that noted. -/
def noting {ι : Type} [DecidableEq ι] (i : ι) : Meaning serverSig (Noted ι) Fault := fun world op fault =>
  (serverExec world.server op fault).map fun (result, server) =>
    (result, ⟨server, note i world.made op result⟩)

/-- Posts, at a server whose map is empty. -/
def posts {ι : Type} (sha256 : Sha256) (paths : StoragePaths) (requests : ι → TransferRequest)
    (files : FileStore Path) (cells : SessionCells) : Pool ι serverSig (Noted ι) (Option Response) where
  world := ⟨⟨files, fun _ => none, cells⟩, fun _ => none⟩
  threads i := receiveTransfer sha256 paths (requests i)

/-! ## The life of a handler -/

/-- The failures that a handler answers without taking its session out: of the flush, of the reading
back and of the rename. -/
def fatal : (op : FileOp Path) → op.Result → Bool
  | .flush _, .error _ => true
  | .read _, .error _ => true
  | .rename .., .error _ => true
  | _, _ => false

/-- The operations on a session and a body. -/
def passive : ServerOp → Bool
  | .nextChunk | .isCancelled _ | .awaitResumed _ | .addBytes .. => true
  | _ => false

/-- What is left of a handler whose session is in the map: it waits, works on files, and takes the
session out, unless one of the fatal operations fails. -/
inductive Holding (id : Uuid) : Handler → Prop where
  | drops (next : Unit → Handler) : Holding id (.perform (.removeSession id) next)
  | works (op : FileOp Path) (next : op.Result → Handler)
      (fails : ∀ result, fatal op result = true → ∃ reply, next result = .done reply)
      (goes : ∀ result, fatal op result = false → Holding id (next result)) :
      Holding id (.perform (.file op) next)
  | waits (op : ServerOp) (next : op.Result → Handler) (plain : passive op = true)
      (goes : ∀ result, Holding id (next result)) : Holding id (.perform op next)

/-- What is left of a handler that has not inserted a session. -/
inductive Ahead (id : Uuid) : Handler → Prop where
  | returned (reply : Option Response) : Ahead id (.done reply)
  | works (op : FileOp Path) (next : op.Result → Handler) (goes : ∀ result, Ahead id (next result)) :
      Ahead id (.perform (.file op) next)
  | inserts (name : String) (total initial : UInt64) (next : TransferSession → Handler)
      (goes : ∀ session, Holding id (next session)) :
      Ahead id (.perform (.insertSession id name total initial) next)

section

variable {sha256 : Sha256} {upload : Upload}

/-- The rename and the answer. -/
theorem commit_holding : Holding upload.transferId (commitUpload upload) := by
  refine .works _ _ (fun result fails => ?_) (fun result goes => ?_)
  · cases result with
    | error error => exact ⟨_, rfl⟩
    | ok => cases fails
  · cases result with
    | error error => cases goes
    | ok => exact .drops _

/-- The comparison of the digests. -/
theorem check_holding (expected actual : String) :
    Holding upload.transferId (checkDigest upload expected actual) := by
  unfold checkDigest
  split
  · exact .drops _
  · exact commit_holding

/-- The digest. -/
theorem verify_holding (hasher : Sha256Hasher) :
    Holding upload.transferId (verifyUpload sha256 upload hasher) := by
  unfold verifyUpload
  split
  · exact commit_holding
  · split
    · exact check_holding _ _
    · refine .works _ _ (fun result fails => ?_) (fun result goes => ?_)
      · cases result with
        | error error => exact ⟨_, rfl⟩
        | ok => cases fails
      · cases result with
        | error error => cases goes
        | ok => exact check_holding _ _

/-- What follows the chunk loop. -/
theorem finish_holding (hasher : Sha256Hasher) (written : UInt64) (file : Handle) :
    Holding upload.transferId (finishUpload sha256 upload hasher written file) := by
  refine .works _ _ (fun result fails => ?_) (fun result goes => ?_)
  · cases result with
    | error error => exact ⟨_, rfl⟩
    | ok => cases fails
  · cases result with
    | error error => cases goes
    | ok =>
      simp only [bind_done]
      split
      · exact .drops _
      · exact verify_holding hasher

/-- The chunk loop holds its session. -/
theorem loop_holding (session : TransferSession) (failure : Option String) (chunks : List Bytes)
    (hasher : Sha256Hasher) (written : UInt64) (file : Handle) :
    Holding upload.transferId (chunkLoop sha256 upload session failure chunks hasher written file) := by
  induction chunks generalizing hasher written file with
  | nil =>
    refine .waits .nextChunk _ rfl fun _ => ?_
    cases failure with
    | some error => exact .drops _
    | none => exact finish_holding hasher written file
  | cons chunk rest ih =>
    refine .waits .nextChunk _ rfl fun _ => .waits (.isCancelled session) _ rfl fun cancelled => ?_
    cases cancelled with
    | true => exact .drops _
    | false =>
      refine .waits (.awaitResumed session) _ rfl fun _ => .works (.write file chunk) _ ?_ ?_
      · intro result fails
        cases result with
        | error | ok => cases fails
      · intro result goes
        cases result with
        | error error => exact .drops _
        | ok moved => exact .waits (.addBytes session (.ofNat chunk.length)) _ rfl fun _ => ih _ _ _

/-- The insertion. -/
theorem stream_ahead (body : Body) (file : Handle) :
    Ahead upload.transferId (streamUpload sha256 upload body file) :=
  .inserts _ _ _ _ fun session => loop_holding session _ _ _ _ _

/-- A handler starts without a session. -/
theorem receive_ahead (paths : StoragePaths) (request : TransferRequest) :
    Ahead request.transferId (receiveTransfer sha256 paths request) := by
  unfold receiveTransfer
  split
  · exact .returned _
  · exact .returned _
  · rename_i upload accepted
    have named : upload.transferId = request.transferId := (acceptRequest_ok accepted).1
    rw [← named]
    refine .works _ _ fun result => ?_
    cases result with
    | error error => exact .returned _
    | ok =>
      refine .works _ _ fun result => ?_
      cases result with
      | error error => exact .returned _
      | ok file =>
        simp only [bind_done]
        split
        · refine .works _ _ fun result => ?_
          cases result with
          | error error => exact .returned _
          | ok positioned => exact stream_ahead _ positioned
        · exact stream_ahead _ file

end

/-- A handler that holds its session has not returned. -/
theorem Holding.running {id : Uuid} {handler : Handler} (holding : Holding id handler)
    (reply : Option Response) : handler ≠ .done reply := by
  cases holding with
  | drops | works | waits => exact nofun

/-- Where a handler is, by the session it has inserted. -/
inductive Placed (id : Uuid) : Option TransferSession → Handler → Prop where
  | ahead {handler : Handler} (ahead : Ahead id handler) : Placed id none handler
  | holding {session : TransferSession} {handler : Handler} (named : session.id = id)
      (holding : Holding id handler) : Placed id (some session) handler
  | returned {session : TransferSession} (named : session.id = id) (reply : Option Response) :
      Placed id (some session) (.done reply)

/-- An operation on files, a body or a session changes neither the map nor the notes. -/
theorem noting_quiet {ι : Type} [DecidableEq ι] {i : ι} {world after : Noted ι} {op : ServerOp}
    {fault : Fault} {result : op.Result} (quiet : (∃ inner, op = .file inner) ∨ passive op = true)
    (ran : noting i world op fault = some (result, after)) :
    after.server.sessions = world.server.sessions ∧ after.made = world.made ∧
      world.server.cells.fresh ≤ after.server.cells.fresh := by
  obtain ⟨⟨_, server⟩, performed, same⟩ := Option.map_eq_some_iff.mp ran
  obtain ⟨rfl, rfl⟩ := Prod.mk.inj same
  cases op with
  | file inner =>
    obtain ⟨sessions, cells⟩ := serverExec_file_sessions performed
    exact ⟨sessions, rfl, Nat.le_of_eq (congrArg SessionCells.fresh cells).symm⟩
  | awaitResumed session =>
    obtain ⟨-, rfl⟩ := serverExec_awaitResumed performed
    exact ⟨rfl, rfl, Nat.le_refl _⟩
  | nextChunk | isCancelled | addBytes =>
    obtain ⟨-, rfl⟩ := Prod.mk.inj (Option.some.inj performed)
    exact ⟨rfl, rfl, Nat.le_refl _⟩
  | insertSession | removeSession =>
    rcases quiet with ⟨inner, same⟩ | plain
    · cases same
    · cases plain

/-! ## What the map is to hold -/

section

variable {ι : Type} {sha256 : Sha256} {paths : StoragePaths} {files : FileStore Path}
variable {cells : SessionCells}

/-- Handlers with their notes. -/
abbrev Serving (ι : Type) : Type := Pool ι serverSig (Noted ι) (Option Response)

/-- A handler has inserted its session and not yet returned. -/
def Underway (pool : Serving ι) (i : ι) : Prop :=
  (∃ session, pool.world.made i = some session) ∧ ∀ reply, pool.threads i ≠ .done reply

/-- The keys of the map are the ids of the uploads that are underway, and no session of a request that
has been replied to is left. -/
structure Holds (requests : ι → TransferRequest) (pool : Serving ι) : Prop where
  keys : ∀ id, (∃ session, pool.world.server.sessions id = some session) ↔
    ∃ i, (requests i).transferId = id ∧ Underway pool i
  gone : ∀ i reply session, pool.threads i = .done reply → pool.world.made i = some session →
    ∀ id, pool.world.server.sessions id ≠ some session

/-- A handler that takes a session out returns with that, and no other upload of the id is underway. A
flush, a reading back or a rename fails only in a handler whose session has been replaced. -/
def Tidy (requests : ι → TransferRequest) (pool : Serving ι) (i : ι) (fault : Fault) : Prop :=
  match pool.threads i with
  | .perform (.removeSession id) next => (∃ reply, next () = .done reply) ∧
      ∀ j, j ≠ i → (requests j).transferId = id → ¬Underway pool j
  | .perform (.file op) _ => fatal op (op.exec pool.world.server.files fault).1 = true →
      ∀ session, pool.world.made i = some session → ∀ id, pool.world.server.sessions id ≠ some session
  | _ => True

/-- What holds of every run, tidy or not. -/
structure Tracked (requests : ι → TransferRequest) (pool : Serving ι) : Prop where
  placed : ∀ i, Placed (requests i).transferId (pool.world.made i) (pool.threads i)
  cells : ∀ i session, pool.world.made i = some session →
    session.cell < pool.world.server.cells.fresh
  apart : ∀ i j session, pool.world.made i = some session → pool.world.made j = some session → i = j
  stored : ∀ id session, pool.world.server.sessions id = some session →
    ∃ i, pool.world.made i = some session ∧ (requests i).transferId = id

variable {requests : ι → TransferRequest} {before after : Serving ι} {i : ι} {fault : Fault}

/-- The upload that a session in the map is of is underway. -/
theorem stored_underway (tracked : Tracked requests before) (holds : Holds requests before) {id : Uuid}
    {session : TransferSession} (stored : before.world.server.sessions id = some session) :
    ∃ j, before.world.made j = some session ∧ (requests j).transferId = id ∧ Underway before j := by
  obtain ⟨j, made, named⟩ := tracked.stored id session stored
  exact ⟨j, made, named, ⟨session, made⟩, fun reply returned =>
    holds.gone j reply session returned made id stored⟩

/-- What an insertion of a session under an id does. -/
structure Inserted (earlier : Noted ι) (i : ι) (id : Uuid) (session : TransferSession) (later : Noted ι) :
    Prop where
  named : session.id = id
  cell : session.cell = earlier.server.cells.fresh
  fresh : later.server.cells.fresh = earlier.server.cells.fresh + 1
  here : later.server.sessions id = some session
  elsewhere : ∀ other, other ≠ id → later.server.sessions other = earlier.server.sessions other
  own : later.made i = some session
  others : ∀ j, j ≠ i → later.made j = earlier.made j

/-- The new session is nobody's yet. -/
theorem inserted_new (tracked : Tracked requests before) {id : Uuid}
    {session : TransferSession} {world : Noted ι}
    (inserted : Inserted before.world i id session world) (j : ι) :
    before.world.made j ≠ some session := by
  intro noted
  have below := tracked.cells j session noted
  have cell := inserted.cell
  omega

/-- At first there is no session. -/
theorem posts_holds : Tracked requests (posts sha256 paths requests files cells) ∧
    Holds requests (posts sha256 paths requests files cells) := by
  refine ⟨⟨fun i => ?_, ?_, ?_, ?_⟩, ⟨fun id => ?_, ?_⟩⟩
  · exact .ahead (receive_ahead paths (requests i))
  · exact fun _ _ noted => nomatch noted
  · exact fun _ _ _ noted => nomatch noted
  · exact fun _ _ stored => nomatch stored
  · refine iff_of_false ?_ ?_
    · rintro ⟨session, stored⟩
      cases stored
    · rintro ⟨i, -, ⟨session, noted⟩, -⟩
      cases noted
  · exact fun _ _ _ _ noted => nomatch noted

variable [DecidableEq ι]

/-! ### The other uploads -/

section

variable {world : Noted ι} {handler : Handler}

/-- A step moves its own handler only. -/
theorem underway_other {j : ι} (made : world.made j = before.world.made j) (other : j ≠ i) :
    Underway ⟨world, Function.update before.threads i handler⟩ j ↔ Underway before j := by
  unfold Underway
  simp only [made, Function.update_of_ne other]

/-- A step that leaves the map at another id alone keeps it there what it is to be. -/
theorem keys_elsewhere (holds : Holds requests before)
    (made : ∀ j, j ≠ i → world.made j = before.world.made j) {id : Uuid}
    (other : id ≠ (requests i).transferId)
    (sessions : world.server.sessions id = before.world.server.sessions id) :
    (∃ session, world.server.sessions id = some session) ↔
      ∃ j, (requests j).transferId = id ∧
        Underway ⟨world, Function.update before.threads i handler⟩ j := by
  rw [sessions, holds.keys id]
  refine exists_congr fun j => and_congr_right fun theirs => ?_
  have apart : j ≠ i := by
    rintro rfl
    exact other theirs.symm
  exact (underway_other (made j apart) apart).symm

end

/-! ### Steps that leave the map alone -/

section

variable {op : ServerOp} {next : op.Result → Handler} {result : op.Result} {world : Noted ι}

/-- Such a step moves its own handler only. -/
theorem underway_quiet (waiting : before.threads i = .perform op next)
    (made : world.made = before.world.made)
    (on : before.world.made i = none ∨ ∀ reply, next result ≠ .done reply) (j : ι) :
    Underway ⟨world, Function.update before.threads i (next result)⟩ j ↔ Underway before j := by
  by_cases mine : j = i
  · subst mine
    unfold Underway
    simp only [made]
    rw [waiting, Function.update_self]
    rcases on with none | running
    · constructor
      · rintro ⟨⟨session, noted⟩, -⟩
        cases none.symm.trans noted
      · rintro ⟨⟨session, noted⟩, -⟩
        cases none.symm.trans noted
    · exact and_congr_right fun _ => iff_of_true running nofun
  · exact underway_other (congrFun made j) mine

/-- Such a step keeps the map what it is to be, if its handler goes on or has no session. -/
theorem holds_quiet (holds : Holds requests before) (waiting : before.threads i = .perform op next)
    (sessions : world.server.sessions = before.world.server.sessions)
    (made : world.made = before.world.made)
    (on : before.world.made i = none ∨ ∀ reply, next result ≠ .done reply) :
    Holds requests ⟨world, Function.update before.threads i (next result)⟩ := by
  refine ⟨fun id => ?_, fun j reply session returned noted id => ?_⟩
  · simp only [underway_quiet waiting made on, sessions]
    exact holds.keys id
  · simp only [made] at noted
    simp only [sessions]
    by_cases mine : j = i
    · subst mine
      simp only [Function.update_self] at returned
      rcases on with none | running
      · cases none.symm.trans noted
      · exact absurd returned (running reply)
    · simp only [Function.update_of_ne mine] at returned
      exact holds.gone j reply session returned noted id

/-- Such a step keeps track. -/
theorem tracked_quiet (tracked : Tracked requests before)
    (sessions : world.server.sessions = before.world.server.sessions)
    (made : world.made = before.world.made)
    (fresh : before.world.server.cells.fresh ≤ world.server.cells.fresh)
    (placed : Placed (requests i).transferId (before.world.made i) (next result)) :
    Tracked requests ⟨world, Function.update before.threads i (next result)⟩ := by
  refine ⟨fun j => ?_, ?_, ?_, ?_⟩
  · simp only [made]
    by_cases mine : j = i
    · subst mine
      rwa [Function.update_self]
    · rw [Function.update_of_ne mine]
      exact tracked.placed j
  · simp only [made]
    exact fun j session noted => Nat.lt_of_lt_of_le (tracked.cells j session noted) fresh
  · simp only [made]
    exact tracked.apart
  · simp only [made, sessions]
    exact tracked.stored

/-- A handler that returns without a removal leaves the map what it is to be exactly if its session is
not in it. -/
theorem holds_fatal (tracked : Tracked requests before) (holds : Holds requests before)
    {session : TransferSession} {reply : Option Response}
    (waiting : before.threads i = .perform op next) (mine : before.world.made i = some session)
    (sessions : world.server.sessions = before.world.server.sessions)
    (made : world.made = before.world.made) (returns : next result = .done reply) :
    Holds requests ⟨world, Function.update before.threads i (next result)⟩ ↔
      ∀ id, before.world.server.sessions id ≠ some session := by
  constructor
  · intro after id
    have gone := after.gone i reply session (by simp only [Function.update_self, returns])
      (by simp only [made, mine]) id
    simpa only [sessions] using gone
  · intro replaced
    have others : ∀ j, j ≠ i → (Underway ⟨world, Function.update before.threads i (next result)⟩ j ↔
        Underway before j) := fun j => underway_other (congrFun made j)
    refine ⟨fun id => ?_, fun j reply other returned noted id => ?_⟩
    · simp only [sessions]
      constructor
      · rintro ⟨stored, there⟩
        obtain ⟨j, noted, named, underway⟩ := stored_underway tracked holds there
        have other : j ≠ i := by
          rintro rfl
          rw [mine] at noted
          exact replaced id (there.trans noted.symm)
        exact ⟨j, named, (others j other).mpr underway⟩
      · rintro ⟨j, named, underway⟩
        have other : j ≠ i := by
          rintro rfl
          refine underway.2 reply ?_
          simp only [Function.update_self, returns]
        exact (holds.keys id).mpr ⟨j, named, (others j other).mp underway⟩
    · simp only [made] at noted
      simp only [sessions]
      by_cases same : j = i
      · subst same
        rw [mine] at noted
        rw [← noted]
        exact replaced id
      · simp only [Function.update_of_ne same] at returned
        exact holds.gone j reply other returned noted id

end

/-! ### Insertions -/

section

/-- The insertion of a handler is one. -/
theorem noting_insert {name : String} {total initial : UInt64} {id : Uuid} {earlier later : Noted ι}
    {session : TransferSession}
    (ran : noting i earlier (.insertSession id name total initial) fault = some (session, later)) :
    Inserted earlier i id session later := by
  obtain ⟨⟨_, server⟩, performed, same⟩ := Option.map_eq_some_iff.mp ran
  obtain ⟨rfl, rfl⟩ := Prod.mk.inj same
  obtain ⟨rfl, rfl⟩ := Prod.mk.inj (Option.some.inj performed)
  exact ⟨rfl, rfl, rfl, Function.update_self .., fun _ other => Function.update_of_ne other ..,
    Function.update_self .., fun _ other => Function.update_of_ne other ..⟩

variable {next : TransferSession → Handler} {session : TransferSession} {world : Noted ι}

/-- An insertion keeps track. -/
theorem inserted_tracked (tracked : Tracked requests before)
    (inserted : Inserted before.world i (requests i).transferId session world)
    (goes : Holding (requests i).transferId (next session)) :
    Tracked requests ⟨world, Function.update before.threads i (next session)⟩ := by
  have new := inserted_new tracked inserted
  have fresh := inserted.fresh
  refine ⟨fun j => ?_, fun j noted holder => ?_, fun j k noted first second => ?_,
    fun id noted stored => ?_⟩
  · by_cases mine : j = i
    · subst mine
      simp only [inserted.own, Function.update_self]
      exact .holding inserted.named goes
    · simp only [inserted.others j mine, Function.update_of_ne mine]
      exact tracked.placed j
  · show noted.cell < world.server.cells.fresh
    by_cases mine : j = i
    · subst mine
      obtain rfl := Option.some.inj (inserted.own.symm.trans holder)
      have cell := inserted.cell
      omega
    · have below := tracked.cells j noted ((inserted.others j mine).symm.trans holder)
      omega
  · by_cases mine : j = i
    · subst mine
      obtain rfl := Option.some.inj (inserted.own.symm.trans first)
      by_contra other
      exact new k ((inserted.others k (Ne.symm other)).symm.trans second)
    · have earlier := (inserted.others j mine).symm.trans first
      by_cases theirs : k = i
      · subst theirs
        obtain rfl := Option.some.inj (inserted.own.symm.trans second)
        exact absurd earlier (new j)
      · exact tracked.apart j k noted earlier ((inserted.others k theirs).symm.trans second)
  · have there : world.server.sessions id = some noted := stored
    by_cases mine : id = (requests i).transferId
    · subst mine
      exact ⟨i, inserted.own.trans (inserted.here.symm.trans there), rfl⟩
    · obtain ⟨j, holder, theirs⟩ :=
        tracked.stored id noted ((inserted.elsewhere id mine).symm.trans there)
      have other : j ≠ i := by
        rintro rfl
        exact mine theirs.symm
      exact ⟨j, (inserted.others j other).trans holder, theirs⟩

/-- An insertion keeps the map what it is to be. -/
theorem inserted_holds (tracked : Tracked requests before) (holds : Holds requests before)
    (inserted : Inserted before.world i (requests i).transferId session world)
    (goes : Holding (requests i).transferId (next session)) :
    Holds requests ⟨world, Function.update before.threads i (next session)⟩ := by
  have underway : Underway ⟨world, Function.update before.threads i (next session)⟩ i := by
    refine ⟨⟨session, inserted.own⟩, fun reply => ?_⟩
    simp only [Function.update_self]
    exact goes.running reply
  refine ⟨fun id => ?_, fun j reply noted returned holder id stored => ?_⟩
  · by_cases mine : id = (requests i).transferId
    · subst mine
      exact iff_of_true ⟨session, inserted.here⟩ ⟨i, rfl, underway⟩
    · exact keys_elsewhere holds inserted.others mine (inserted.elsewhere id mine)
  · by_cases mine : j = i
    · subst mine
      simp only [Function.update_self] at returned
      exact goes.running reply returned
    · simp only [Function.update_of_ne mine] at returned
      have earlier := (inserted.others j mine).symm.trans holder
      have there : world.server.sessions id = some noted := stored
      by_cases theirs : id = (requests i).transferId
      · subst theirs
        have same := Option.some.inj (inserted.here.symm.trans there)
        exact inserted_new tracked inserted j (same ▸ earlier)
      · exact holds.gone j reply noted returned earlier id
          ((inserted.elsewhere id theirs).symm.trans there)

end

/-! ### Removals -/

section

variable {id : Uuid} {next : Unit → Handler} {session : TransferSession} {world : Noted ι}

/-- What a removal does. -/
theorem noting_remove {earlier later : Noted ι} {result : Unit}
    (ran : noting i earlier (.removeSession id) fault = some (result, later)) :
    later.server.sessions = Function.update earlier.server.sessions id none ∧
      later.server.cells = earlier.server.cells ∧ later.made = earlier.made := by
  obtain ⟨⟨_, server⟩, performed, same⟩ := Option.map_eq_some_iff.mp ran
  obtain ⟨rfl, rfl⟩ := Prod.mk.inj same
  obtain ⟨rfl, rfl⟩ := Prod.mk.inj (Option.some.inj performed)
  exact ⟨rfl, rfl, rfl⟩

/-- A removal leaves no session of a request that has been replied to. -/
theorem removed_gone (tracked : Tracked requests before) (holds : Holds requests before)
    (mine : before.world.made i = some session) (named : (requests i).transferId = id)
    (sessions : world.server.sessions = Function.update before.world.server.sessions id none) {j : ι}
    {reply : Option Response} {noted : TransferSession}
    (returned : Function.update before.threads i (next ()) j = .done reply)
    (holder : before.world.made j = some noted) (other : Uuid) :
    world.server.sessions other ≠ some noted := by
  intro there
  have apart : other ≠ id := by
    rintro rfl
    rw [sessions, Function.update_self] at there
    cases there
  have earlier : before.world.server.sessions other = some noted := by
    rw [sessions, Function.update_of_ne apart] at there
    exact there
  by_cases own : j = i
  · subst own
    obtain ⟨k, noting, theirs⟩ := tracked.stored other noted earlier
    obtain rfl := tracked.apart j k noted holder noting
    exact apart (theirs.symm.trans named)
  · rw [Function.update_of_ne own] at returned
    exact holds.gone j reply noted returned holder other earlier

/-- A removal leaves the map what it is to be exactly if it is the last of its handler, and of the
uploads of its id. -/
theorem removed_holds (tracked : Tracked requests before) (holds : Holds requests before)
    (waiting : before.threads i = .perform (.removeSession id) next)
    (mine : before.world.made i = some session) (named : (requests i).transferId = id)
    (sessions : world.server.sessions = Function.update before.world.server.sessions id none)
    (made : world.made = before.world.made) :
    Holds requests ⟨world, Function.update before.threads i (next ())⟩ ↔
      (∃ reply, next () = .done reply) ∧
        ∀ j, j ≠ i → (requests j).transferId = id → ¬Underway before j := by
  have gone : world.server.sessions id = none := by rw [sessions, Function.update_self]
  have elsewhere : ∀ other, other ≠ id →
      world.server.sessions other = before.world.server.sessions other := fun other apart => by
    rw [sessions, Function.update_of_ne apart]
  have others : ∀ j, j ≠ i → (Underway ⟨world, Function.update before.threads i (next ())⟩ j ↔
      Underway before j) := fun j => underway_other (congrFun made j)
  constructor
  · intro after
    have nobody : ∀ j, (requests j).transferId = id →
        ¬Underway ⟨world, Function.update before.threads i (next ())⟩ j := by
      intro j theirs underway
      obtain ⟨stored, there⟩ := (after.keys id).mpr ⟨j, theirs, underway⟩
      cases gone.symm.trans there
    refine ⟨?_, fun j other theirs underway => nobody j theirs ((others j other).mpr underway)⟩
    by_contra running
    refine nobody i named ⟨⟨session, made ▸ mine⟩, fun reply returned => running ⟨reply, ?_⟩⟩
    simpa only [Function.update_self] using returned
  · rintro ⟨⟨reply, returns⟩, last⟩
    refine ⟨fun other => ?_, fun j answer noted returned holder other => ?_⟩
    · by_cases same : other = id
      · subst same
        refine iff_of_false ?_ ?_
        · rintro ⟨stored, there⟩
          cases gone.symm.trans there
        · rintro ⟨j, theirs, underway⟩
          by_cases own : j = i
          · subst own
            refine underway.2 reply ?_
            simp only [Function.update_self, returns]
          · exact last j own theirs ((others j own).mp underway)
      · have apart : other ≠ (requests i).transferId := fun mine => same (mine.trans named)
        exact keys_elsewhere holds (fun j _ => congrFun made j) apart (elsewhere other same)
    · have earlier : before.world.made j = some noted := made ▸ holder
      exact removed_gone tracked holds mine named sessions returned earlier other

/-- A removal that ends its handler keeps track. -/
theorem removed_tracked (tracked : Tracked requests before)
    (mine : before.world.made i = some session) (named : session.id = (requests i).transferId)
    (sessions : world.server.sessions = Function.update before.world.server.sessions id none)
    (cells : world.server.cells = before.world.server.cells) (made : world.made = before.world.made)
    {reply : Option Response} (returns : next () = .done reply) :
    Tracked requests ⟨world, Function.update before.threads i (next ())⟩ := by
  refine ⟨fun j => ?_, ?_, ?_, fun other noted stored => ?_⟩
  · simp only [made]
    by_cases own : j = i
    · subst own
      rw [Function.update_self, mine, returns]
      exact .returned named reply
    · rw [Function.update_of_ne own]
      exact tracked.placed j
  · simp only [made, cells]
    exact tracked.cells
  · simp only [made]
    exact tracked.apart
  · have there : world.server.sessions other = some noted := stored
    rw [sessions] at there
    simp only [made]
    by_cases same : other = id
    · subst same
      rw [Function.update_self] at there
      cases there
    · rw [Function.update_of_ne same] at there
      exact tracked.stored other noted there

end

/-! ### Runs -/

/-- A step of a handler that has not inserted keeps track, and the map what it is to be. -/
theorem ahead_step (tracked : Tracked requests before) (holds : Holds requests before)
    {op : ServerOp} {next : op.Result → Handler} {result : op.Result} {world : Noted ι}
    (waiting : before.threads i = .perform op next) (none : before.world.made i = none)
    (ahead : Ahead (requests i).transferId (.perform op next))
    (ran : noting i before.world op fault = some (result, world)) :
    Tracked requests ⟨world, Function.update before.threads i (next result)⟩ ∧
      Holds requests ⟨world, Function.update before.threads i (next result)⟩ := by
  cases ahead with
  | works inner next goes =>
    obtain ⟨sessions, made, fresh⟩ := noting_quiet (.inl ⟨inner, rfl⟩) ran
    have placed : Placed (requests i).transferId (before.world.made i) (next result) := by
      rw [none]
      exact .ahead (goes result)
    exact ⟨tracked_quiet tracked sessions made fresh placed,
      holds_quiet holds waiting sessions made (.inl none)⟩
  | inserts name total initial next goes =>
    have inserted := noting_insert ran
    exact ⟨inserted_tracked tracked inserted (goes result),
      inserted_holds tracked holds inserted (goes result)⟩

/-- A step of a handler that holds its session, and goes on to hold it. -/
theorem onward_step (tracked : Tracked requests before) (holds : Holds requests before)
    {op : ServerOp} {next : op.Result → Handler} {result : op.Result} {world : Noted ι}
    {session : TransferSession} (waiting : before.threads i = .perform op next)
    (mine : before.world.made i = some session) (named : session.id = (requests i).transferId)
    (quiet : (∃ inner, op = .file inner) ∨ passive op = true)
    (on : Holding (requests i).transferId (next result))
    (ran : noting i before.world op fault = some (result, world)) :
    Holds requests ⟨world, Function.update before.threads i (next result)⟩ ∧
      Tracked requests ⟨world, Function.update before.threads i (next result)⟩ := by
  obtain ⟨sessions, made, fresh⟩ := noting_quiet quiet ran
  have placed : Placed (requests i).transferId (before.world.made i) (next result) := by
    rw [mine]
    exact .holding named on
  exact ⟨holds_quiet holds waiting sessions made (.inr on.running),
    tracked_quiet tracked sessions made fresh placed⟩

/-- A file operation of a handler whose session is in the map. -/
theorem file_step {inner : FileOp Path} {next : (ServerOp.file inner).Result → Handler}
    {result : (ServerOp.file inner).Result} {world : Noted ι} {session : TransferSession}
    (tracked : Tracked requests before) (holds : Holds requests before)
    (waiting : before.threads i = .perform (.file inner) next)
    (mine : before.world.made i = some session) (named : session.id = (requests i).transferId)
    (fails : ∀ result, fatal inner result = true → ∃ reply, next result = .done reply)
    (goes : ∀ result, fatal inner result = false → Holding (requests i).transferId (next result))
    (ran : noting i before.world (.file inner) fault = some (result, world)) :
    (Holds requests ⟨world, Function.update before.threads i (next result)⟩ ↔
        Tidy requests before i fault) ∧
      (Tidy requests before i fault →
        Tracked requests ⟨world, Function.update before.threads i (next result)⟩) := by
  have performed : (inner.exec before.world.server.files fault).1 = result := by
    obtain ⟨⟨_, server⟩, performed, same⟩ := Option.map_eq_some_iff.mp ran
    obtain ⟨rfl, rfl⟩ := Prod.mk.inj same
    rw [serverExec_file performed]
  have tidy : Tidy requests before i fault ↔ (fatal inner result = true →
      ∀ id, before.world.server.sessions id ≠ some session) := by
    unfold Tidy
    rw [waiting]
    simp only [performed, mine, Option.some.injEq, forall_eq']
  cases fate : fatal inner result with
  | true =>
    obtain ⟨sessions, made, fresh⟩ := noting_quiet (.inl ⟨inner, rfl⟩) ran
    obtain ⟨reply, returns⟩ := fails result fate
    have stays := holds_fatal tracked holds waiting mine sessions made returns
    refine ⟨stays.trans ?_, fun _ => tracked_quiet tracked sessions made fresh ?_⟩
    · rw [tidy]
      exact ⟨fun replaced _ => replaced, fun replaced => replaced fate⟩
    · rw [mine, returns]
      exact .returned named reply
  | false =>
    have clean : Tidy requests before i fault := tidy.mpr fun failed => by
      cases fate.symm.trans failed
    obtain ⟨stays, kept⟩ :=
      onward_step tracked holds waiting mine named (.inl ⟨inner, rfl⟩) (goes result fate) ran
    exact ⟨iff_of_true stays clean, fun _ => kept⟩

/-- A step of a handler whose session is in the map leaves the map what it is to be exactly if it is
tidy, and then it keeps track. -/
theorem holding_step (tracked : Tracked requests before) (holds : Holds requests before)
    {op : ServerOp} {next : op.Result → Handler} {result : op.Result} {world : Noted ι}
    {session : TransferSession} (waiting : before.threads i = .perform op next)
    (mine : before.world.made i = some session) (named : session.id = (requests i).transferId)
    (holding : Holding (requests i).transferId (.perform op next))
    (ran : noting i before.world op fault = some (result, world)) :
    (Holds requests ⟨world, Function.update before.threads i (next result)⟩ ↔
        Tidy requests before i fault) ∧
      (Tidy requests before i fault →
        Tracked requests ⟨world, Function.update before.threads i (next result)⟩) := by
  cases holding with
  | drops next =>
    obtain ⟨sessions, cells, made⟩ := noting_remove ran
    have tidy : Tidy requests before i fault ↔ (∃ reply, next () = .done reply) ∧
        ∀ j, j ≠ i → (requests j).transferId = (requests i).transferId → ¬Underway before j := by
      unfold Tidy
      rw [waiting]
    refine ⟨(removed_holds tracked holds waiting mine rfl sessions made).trans tidy.symm, fun clean => ?_⟩
    obtain ⟨⟨reply, returns⟩, -⟩ := tidy.mp clean
    exact removed_tracked tracked mine named sessions cells made returns
  | works inner next fails goes => exact file_step tracked holds waiting mine named fails goes ran
  | waits op next plain goes =>
    have clean : Tidy requests before i fault := by
      unfold Tidy
      rw [waiting]
      cases op with
      | file | removeSession => cases plain
      | insertSession | nextChunk | isCancelled | awaitResumed | addBytes => trivial
    obtain ⟨stays, kept⟩ := onward_step tracked holds waiting mine named (.inr plain) (goes result) ran
    exact ⟨iff_of_true stays clean, fun _ => kept⟩

/-- A step leaves the map what it is to be exactly if it is tidy, and then it keeps track. -/
theorem step_holds (tracked : Tracked requests before) (holds : Holds requests before)
    (stepped : before.step noting i fault = some after) :
    (Holds requests after ↔ Tidy requests before i fault) ∧
      (Tidy requests before i fault → Tracked requests after) := by
  obtain ⟨op, next, result, world, waiting, ran, rfl⟩ := Pool.step_cases stepped
  have placed := tracked.placed i
  rw [waiting] at placed
  generalize noted : before.world.made i = made at placed
  cases placed with
  | ahead ahead =>
    obtain ⟨kept, stays⟩ := ahead_step tracked holds waiting noted ahead ran
    have tidy : Tidy requests before i fault := by
      unfold Tidy
      rw [waiting]
      cases ahead with
      | works inner => exact fun _ session mine => nomatch noted.symm.trans mine
      | inserts => trivial
    exact ⟨iff_of_true stays tidy, fun _ => kept⟩
  | holding named holding => exact holding_step tracked holds waiting noted named holding ran

/-- In every run of tidy steps, for any requests: in every state reached the keys of the map are the ids
of the uploads that have inserted a session and not yet returned, and no session of a request that was
replied to is left. A further step keeps it so exactly if it is tidy. -/
theorem sessions_exact {reached : Serving ι}
    (path : Pool.Reaches noting (Tidy requests) (posts sha256 paths requests files cells) reached) :
    Holds requests reached ∧ ∀ i fault after, reached.step noting i fault = some after →
      (Holds requests after ↔ Tidy requests reached i fault) := by
  have run : Tracked requests reached ∧ Holds requests reached := by
    induction path with
    | refl => exact posts_holds
    | tail _ last ih =>
      obtain ⟨i, fault, tidy, stepped⟩ := last
      have step := step_holds ih.1 ih.2 stepped
      exact ⟨step.2 tidy, step.1.mpr tidy⟩
  exact ⟨run.2, fun i fault after stepped => (step_holds run.1 run.2 stepped).1⟩

end

/-! ## One upload -/

/-- A tidy step of a handler that is alone. -/
def tidyAlone (pool : Serving Unit) (i : Unit) (fault : Fault) : Bool :=
  match pool.threads i with
  | .perform (.removeSession _) next => (next ()).returned?.isSome
  | .perform (.file op) _ => !fatal op (op.exec pool.world.server.files fault).1
  | _ => true

/-- It is a tidy step. -/
theorem tidy_alone {requests : Unit → TransferRequest} {pool : Serving Unit} {i : Unit} {fault : Fault}
    (alone : tidyAlone pool i fault = true) : Tidy requests pool i fault := by
  unfold tidyAlone at alone
  unfold Tidy
  split
  · rename_i id next waiting
    rw [waiting] at alone
    obtain ⟨reply, returns⟩ := Option.isSome_iff_exists.mp alone
    exact ⟨⟨reply, returned?_eq_some returns⟩, fun j other => absurd rfl other⟩
  · rename_i op next waiting
    rw [waiting] at alone
    intro failed
    simp only [failed] at alone
    cases alone
  · trivial

/-- One upload of two bytes. -/
def sampleRequests : Unit → TransferRequest := fun _ => Resume.sampleRequest none [[1], [2]]

/-- Its handler. -/
def samplePosts : Serving Unit :=
  posts Resume.sampleSha256 Resume.samplePaths sampleRequests .empty .none

/-- The upload runs to its end, and the map is empty again. -/
theorem sessions_exact_alone : ∃ reached reply,
    Pool.run noting (fun pool i fault => tidyAlone pool i fault = true)
        (List.replicate 17 ((), .none)) samplePosts = some reached ∧
      reached.threads () = .done reply ∧ Holds sampleRequests reached := by
  have runs : (Pool.run noting (fun pool i fault => tidyAlone pool i fault = true)
      (List.replicate 17 ((), .none)) samplePosts).map
        (fun reached => (reached.threads ()).returned?.isSome) = some true := by
    decide +kernel
  obtain ⟨reached, ran, ended⟩ := Option.map_eq_some_iff.mp runs
  obtain ⟨reply, returned⟩ := Option.isSome_iff_exists.mp ended
  have path : Pool.Reaches noting (Tidy sampleRequests) samplePosts reached :=
    Pool.reaches_mono (fun _ _ _ alone => tidy_alone alone) (Pool.reaches_of_run ran)
  exact ⟨reached, reply, ran, returned?_eq_some returned, (sessions_exact path).1⟩

/-- When the flush fails, the session stays in the map after the reply. -/
theorem sessions_exact_broken :
    ¬∀ (sha256 : Sha256) (paths : StoragePaths) (requests : Unit → TransferRequest)
      (files : FileStore Path) (cells : SessionCells) (reached : Serving Unit),
      Pool.Reaches noting (fun _ _ _ => True) (posts sha256 paths requests files cells) reached →
      Holds requests reached := by
  intro always
  have runs : (Pool.run noting (fun _ _ _ => True)
      (List.replicate 14 ((), .none) ++ [((), .error ⟨"Input/output error (os error 5)"⟩ 0)])
      samplePosts).map (fun reached => ((reached.threads ()).returned?.isSome,
        (reached.world.server.sessions Resume.sampleId).isSome)) = some (true, true) := by
    decide +kernel
  obtain ⟨reached, ran, both⟩ := Option.map_eq_some_iff.mp runs
  obtain ⟨ended, left⟩ := Prod.mk.inj both
  obtain ⟨reply, returned⟩ := Option.isSome_iff_exists.mp ended
  have holds := always _ _ _ _ _ reached (Pool.reaches_of_run ran)
  obtain ⟨i, -, -, running⟩ := (holds.keys Resume.sampleId).mp (Option.isSome_iff_exists.mp left)
  exact running reply (returned?_eq_some returned)

end FileDrop.SessionsMap
