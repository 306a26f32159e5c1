import FileDrop.Foundation.Machine
import FileDrop.Verif.SharedHistory

/-!
# Changes of the history made one at a time

A change alters memory first and saves it after: the records are listed, encoded, written next to the
store's file and renamed over it. A save that fails leaves the file as it was, whichever step fails, and
leaves memory changed, for no step takes the change back. A save that succeeds leaves the encoding of
what is in memory, so a store loaded from it has the same records; only a load whose existence check
fails starts from nothing.
-/
namespace FileDrop.SoloHistory
open Effects Unix HistoryStore SharedHistory

variable {serde : SerdeJson} {file : HistoryFile} {json : Bytes} {choices : Nat → HistoryChoice}
variable {before after : HistoryWorld} {result : Except FileDropError Unit}

/-! ## What a save leaves -/

/-- A file operation of a call changes files alone. -/
theorem exec_file {op : FileOp Path} {choice : HistoryChoice} {answer : op.Result}
    (ran : historyExec before (.file op) choice = some (answer, after)) :
    ∃ files, op.exec before.files choice.fault = (answer, files) ∧ after = { before with files } :=
  ⟨_, Prod.ext (Prod.mk.inj (Option.some.inj ran)).1 rfl, (Prod.mk.inj (Option.some.inj ran)).2.symm⟩

/-- A save leaves memory as it is, and the file as it is when it fails, or the encoding. -/
structure Saved (file : HistoryFile) (json : Bytes) (before after : HistoryWorld)
    (result : Except FileDropError Unit) : Prop where
  records : after.records = before.records
  content : (∃ error, result = .error error) ∧
      after.files.read file.path = before.files.read file.path ∨
    result = .ok () ∧ after.files.read file.path = some json

/-- A save that has failed in an operation that left the file. -/
theorem Saved.failed {error : IoError} {files : FileStore Path}
    (same : files.read file.path = before.files.read file.path)
    (ran : (raise error : Method Unit).solo historyExec choices { before with files } =
      some (result, after)) : Saved file json before after result := by
  obtain ⟨rfl, rfl⟩ := Program.solo_done ran
  exact ⟨rfl, .inl ⟨⟨_, rfl⟩, same⟩⟩

/-- What is left to do saves from files with the same content at the store's path. -/
theorem Saved.later {files : FileStore Path}
    (same : files.read file.path = before.files.read file.path)
    (saved : Saved file json { before with files } after result) :
    Saved file json before after result where
  records := saved.records
  content := by
    rcases saved.content with ⟨failed, kept⟩ | written
    · exact .inl ⟨failed, kept.trans same⟩
    · exact .inr written

/-- The rename of a temporary file that has the whole encoding. -/
theorem solo_commit {handle : Handle} (staged : Staged file json handle [] before.files)
    (ran : (commit file).solo historyExec choices before = some (result, after)) :
    Saved file json before after result := by
  obtain ⟨answer, middle, performed, rest⟩ := Program.solo_perform ran
  obtain ⟨files, moved, rfl⟩ := exec_file performed
  rcases FileOp.exec_rename moved with ⟨error, rfl, rfl⟩ | ⟨rfl, renamed⟩
  · exact Saved.failed rfl rest
  · obtain ⟨rfl, rfl⟩ := Program.solo_done rest
    have left := congrArg List.length staged.left
    rw [List.length_nil, List.length_drop] at left
    have whole : json.length ≤ handle.position := by omega
    have reads := (FileStore.read_rename_target renamed).trans staged.staged
    rw [List.take_of_length_le whole] at reads
    exact ⟨rfl, .inr ⟨rfl, reads⟩⟩

/-- The writes into the temporary file, and the rename. -/
theorem solo_writeAll {handle : Handle} {rest : Bytes} {fuel : Nat}
    (staged : Staged file json handle rest before.files) (enough : rest.length ≤ fuel)
    (ran : (writeAll (commit file) fuel handle rest).solo historyExec choices before =
      some (result, after)) : Saved file json before after result := by
  induction fuel generalizing handle rest before choices with
  | zero =>
    obtain rfl := List.length_eq_zero_iff.mp (Nat.le_zero.mp enough)
    exact solo_commit staged ran
  | succ fuel ih =>
    unfold writeAll at ran
    split at ran
    · rename_i finished
      subst finished
      exact solo_commit staged ran
    · rename_i more
      obtain ⟨answer, middle, performed, later⟩ := Program.solo_perform ran
      obtain ⟨files, wrote, rfl⟩ := exec_file performed
      rcases FileOp.exec_writeSome wrote with ⟨error, rfl, rfl⟩ | ⟨count, atMost, least, rfl, rfl⟩
      · exact Saved.failed rfl later
      · have apart : before.files.entries file.path ≠ some handle.inode := fun same =>
          file.tmpPath_ne (before.files.single _ _ _ staged.leads same)
        have same := before.files.read_write_ne (rest.take count) apart
        have shorter : (rest.drop count).length ≤ fuel := by
          have positive := least more
          rw [List.length_drop]
          omega
        exact Saved.later same (ih (staged.write atMost) shorter later)

/-- A whole save. -/
theorem solo_save (ran : (save file json).solo historyExec choices before = some (result, after)) :
    Saved file json before after result := by
  obtain ⟨answer, middle, performed, rest⟩ := Program.solo_perform ran
  obtain ⟨files, created, rfl⟩ := exec_file performed
  have same : files = before.files := by
    have quiet := FileOp.exec_harmless before.files (.createDirAll file.parent) rfl (choices 0).fault
    rw [created] at quiet
    exact quiet
  subst same
  cases answer with
  | error error => exact Saved.failed rfl rest
  | ok =>
    obtain ⟨answer, middle, performed, rest⟩ := Program.solo_perform rest
    obtain ⟨files, opened, rfl⟩ := exec_file performed
    rcases FileOp.exec_openWrite opened with ⟨error, rfl, -, rfl⟩ | ⟨rfl, rfl⟩
    · exact Saved.failed rfl rest
    · have same := before.files.read_openWrite_ne true file.tmpPath_ne.symm
      have staged := Staged.opened file json before.files
      exact Saved.later same (solo_writeAll staged (Nat.le_refl _) rest)

/-! ## What a change leaves -/

/-- The records after a change. -/
def changed (records : Records) : HistoryCall → Records
  | .add record => records.insert record
  | .clear => .empty

/-- A listing has the map's records in any order and changes nothing. -/
theorem exec_snapshot {choice : HistoryChoice} {list : List TransferRecord}
    (ran : historyExec before .snapshot choice = some (list, after)) :
    list.Perm before.records.values ∧ list = choice.listing ∧ after = before := by
  by_cases listing : choice.listing.Perm before.records.values
  · simp only [historyExec, listing, if_true, Option.some.injEq, Prod.mk.injEq] at ran
    exact ⟨ran.1 ▸ listing, ran.1.symm, ran.2.symm⟩
  · simp [historyExec, listing] at ran

/-- Saving what is in memory leaves the file as it is when it fails, or its encoding. -/
theorem solo_persist
    (ran : (persist serde file).solo historyExec choices before = some (result, after)) :
    after.records = before.records ∧ ((∃ error, result = .error error) ∧
        after.files.read file.path = before.files.read file.path ∨
      result = .ok () ∧ ∃ list, list.Perm after.records.values ∧ Holds serde file after list) := by
  obtain ⟨list, middle, performed, rest⟩ := Program.solo_perform ran
  obtain ⟨listing, -, rfl⟩ := exec_snapshot performed
  cases encoded : serde.toVecPretty list with
  | error reason =>
    simp only [encoded] at rest
    obtain ⟨rfl, rfl⟩ := Program.solo_done rest
    exact ⟨rfl, .inl ⟨⟨_, rfl⟩, rfl⟩⟩
  | ok json =>
    simp only [encoded] at rest
    have saved := solo_save rest
    refine ⟨saved.records, saved.content.imp_right fun ⟨succeeded, reads⟩ => ?_⟩
    rw [← saved.records] at listing
    exact ⟨succeeded, list, listing, json, encoded, reads⟩

/-- A change is made in memory whether it is saved or not. -/
theorem solo_change {call : HistoryCall}
    (ran : (call.program serde file).solo historyExec choices before = some (result, after)) :
    after.records = changed before.records call ∧ ((∃ error, result = .error error) ∧
        after.files.read file.path = before.files.read file.path ∨
      result = .ok () ∧ ∃ list, list.Perm after.records.values ∧ Holds serde file after list) := by
  cases call with
  | add record =>
    obtain ⟨answer, middle, performed, rest⟩ := Program.solo_perform ran
    obtain rfl := (Prod.mk.inj (Option.some.inj performed)).2
    exact solo_persist rest
  | clear =>
    obtain ⟨answer, middle, performed, rest⟩ := Program.solo_perform ran
    obtain rfl := (Prod.mk.inj (Option.some.inj performed)).2
    exact solo_persist rest

/-! ## What can be seen of a store -/

/-- A result that `list` can return; the order of the map is the environment's. -/
def CanList (store : HistoryWorld) (listed : List TransferRecord) : Prop :=
  ∃ choices, HistoryStore.list.solo historyExec choices store = some (listed, store)

/-- What `list` can return is a listing of the map, sorted. -/
theorem canList_iff (store : HistoryWorld) (listed : List TransferRecord) :
    CanList store listed ↔ ∃ listing : List TransferRecord, listing.Perm store.records.values ∧
      listed = listing.mergeSort fun one other => other.completedAt ≤ one.completedAt := by
  constructor
  · rintro ⟨choices, ran⟩
    obtain ⟨listing, middle, performed, rest⟩ := Program.solo_perform ran
    obtain ⟨perm, -, rfl⟩ := exec_snapshot performed
    exact ⟨listing, perm, (Program.solo_done rest).1⟩
  · rintro ⟨listing, perm, rfl⟩
    refine ⟨fun _ => ⟨listing, .none⟩, ?_⟩
    simp [HistoryStore.list, Program.solo, historyExec, perm]

/-- Nothing that can be seen of the store has changed. -/
structure Unchanged (file : HistoryFile) (before after : HistoryWorld) : Prop where
  get : ∀ id, HistoryStore.get after id = HistoryStore.get before id
  list : ∀ listed, CanList after listed ↔ CanList before listed
  file : after.files.read file.path = before.files.read file.path

/-- Memory that answers every lookup alike lists alike. -/
theorem Unchanged.of_get (get : ∀ id, HistoryStore.get after id = HistoryStore.get before id)
    (file_ : after.files.read file.path = before.files.read file.path) :
    Unchanged file before after where
  get := get
  list listed := by
    have same : after.records.values.Perm before.records.values := Records.perm_of_get get
    rw [canList_iff, canList_iff]
    constructor
    · rintro ⟨listing, perm, sorted⟩
      exact ⟨listing, perm.trans same, sorted⟩
    · rintro ⟨listing, perm, sorted⟩
      exact ⟨listing, perm.trans same.symm, sorted⟩
  file := file_

/-! ## A change that fails -/

/-- Memory already is as the change makes it: it has the record to add, or it has none to clear. -/
def Redundant (records : Records) : HistoryCall → Prop
  | .add record => records.get record.id = some record
  | .clear => records = .empty

/-- A redundant change is one that no lookup can tell. -/
theorem redundant_iff (records : Records) (call : HistoryCall) :
    (∀ id, (changed records call).get id = records.get id) ↔ Redundant records call := by
  cases call with
  | add record =>
    constructor
    · intro same
      have own := same record.id
      rw [changed, Records.get_insert, if_pos rfl] at own
      exact own.symm
    · intro stored id
      rw [changed, Records.get_insert]
      split
      · rename_i own
        exact own ▸ stored.symm
      · rfl
  | clear =>
    constructor
    · intro same
      have none : records.values = [] := (Records.perm_of_get same).symm.eq_nil
      obtain ⟨values, distinct⟩ := records
      subst none
      rfl
    · rintro rfl id
      rfl

/-- A change that fails can be seen, unless memory already was as it makes it. -/
theorem unchanged_iff {call : HistoryCall} {error : FileDropError}
    (failed : (call.program serde file).solo historyExec choices before = some (.error error, after)) :
    Unchanged file before after ↔ Redundant before.records call := by
  obtain ⟨memory, ⟨-, same⟩ | ⟨succeeded, -⟩⟩ := solo_change failed
  · rw [← redundant_iff, ← memory]
    exact ⟨fun unchanged => unchanged.get, fun get => .of_get get same⟩
  · cases succeeded

/-- The error of a disk without space. -/
def diskFull : IoError := ⟨"No space left on device (os error 28)"⟩

/-- A call of which the operations on files fail. -/
def onFullDisk : HistoryChoice := ⟨[sampleRecord], .error diskFull 0⟩

/-- Adding a record on a full disk puts it into memory and fails. -/
theorem add_on_full_disk (records : Records)
    (listed : (records.insert sampleRecord).values = [sampleRecord]) :
    ((HistoryCall.add sampleRecord).program sampleSerde sampleFile).solo historyExec
        (fun _ => onFullDisk) ⟨records, .empty⟩ =
      some (.error (.io diskFull), ⟨records.insert sampleRecord, .empty⟩) := by
  simp [HistoryCall.program, add, persist, Program.solo, historyExec, onFullDisk, listed, sampleSerde,
    save, fileOp, Program.attempt, FileOp.exec, FileOp.fail, raise]

/-- Adding a record again on a full disk is not seen. -/
theorem unchanged_iff_again :
    Unchanged sampleFile ⟨.insert .empty sampleRecord, .empty⟩
      ⟨.insert (.insert .empty sampleRecord) sampleRecord, .empty⟩ :=
  (unchanged_iff (add_on_full_disk (.insert .empty sampleRecord) rfl)).mpr rfl

/-- A record that is added on a full disk is listed, though the call fails. -/
theorem unchanged_broken :
    ¬∀ (serde : SerdeJson) (file : HistoryFile) (call : HistoryCall) (choices : Nat → HistoryChoice)
      (before after : HistoryWorld) (error : FileDropError),
      reload serde file before = some (.ok before.records) →
      (call.program serde file).solo historyExec choices before = some (.error error, after) →
      Unchanged file before after := by
  intro always
  have loaded : reload sampleSerde sampleFile emptyStore = some (.ok emptyStore.records) := by
    rw [reload_eq]
    rfl
  have unchanged := always _ _ _ _ _ _ _ loaded (add_on_full_disk .empty rfl)
  have same := unchanged.get sampleRecord.id
  exact absurd same (by decide)

/-- A record that no list can be encoded with makes every later add of another one fail, before the file is
touched. -/
theorem later_add_fails {record other : TransferRecord}
    (refused : ∀ list, record ∈ list → ∃ reason, serde.toVecPretty list = .error reason)
    (held : HistoryStore.get before record.id = some record) (apart : other.id ≠ record.id)
    (ran : (add serde file other).solo historyExec choices before = some (result, after)) :
    (∃ reason, result = .error (.serde reason)) ∧ HistoryStore.get after record.id = some record ∧
      after.files = before.files := by
  obtain ⟨answer, middle, inserted, rest⟩ := Program.solo_perform ran
  obtain rfl := (Prod.mk.inj (Option.some.inj inserted)).2
  obtain ⟨list, later, listing, final⟩ := Program.solo_perform rest
  obtain ⟨perm, -, rfl⟩ := exec_snapshot listing
  have still : (before.records.insert other).get record.id = some record := by
    rw [Records.get_insert, if_neg apart]
    exact held
  have listed : record ∈ list := perm.mem_iff.mpr ((Records.mem_iff_get _ _).mpr still)
  obtain ⟨reason, refuses⟩ := refused list listed
  simp only [refuses] at final
  obtain ⟨rfl, rfl⟩ := Program.solo_done final
  exact ⟨⟨reason, rfl⟩, still, rfl⟩

/-! ## Reloads -/

/-- The last record added for an id since the last clear; the calls come newest first. -/
def latest : List HistoryCall → Uuid → Option TransferRecord
  | [], _ => none
  | .clear :: _, _ => none
  | .add record :: earlier, id => if record.id = id then some record else latest earlier id

/-- A store and the changes that succeeded since it was empty, newest first. -/
structure Session where
  store : HistoryWorld
  calls : List HistoryCall

/-- What is done with the store of a path. -/
inductive Move where
  | change (call : HistoryCall) (choices : Nat → HistoryChoice)
  | reload (choices : Nat → HistoryChoice)

/-- A change, or a load of a new store from the path of the old one; either has to succeed. -/
def step (serde : SerdeJson) (file : HistoryFile) (session : Session) : Move → Option Session
  | .change call choices =>
    match (call.program serde file).solo historyExec choices session.store with
    | some (.ok (), store) => some ⟨store, call :: session.calls⟩
    | _ => none
  | .reload choices =>
    match (load serde file).solo historyExec choices session.store with
    | some (.ok records, store) => some ⟨{ store with records }, session.calls⟩
    | _ => none

/-- The operation fails. -/
def fails : Fault → Bool
  | .error _ _ => true
  | _ => false

/-- The existence check of a load does not fail. -/
def Checked (_ : Session) : Move → Prop
  | .change _ _ => True
  | .reload choices => fails (choices 0).fault = false

/-- An existence check that does not fail tells whether the file is there. -/
theorem exec_exists {choice : HistoryChoice} {path : Path} {answer : Except IoError Bool}
    (checked : fails choice.fault = false)
    (ran : historyExec before (.file (.tryExists path)) choice = some (answer, after)) :
    answer = .ok (before.files.read path).isSome ∧ after = before := by
  obtain ⟨files, looked, rfl⟩ := exec_file ran
  unfold fails at checked
  cases fault : choice.fault with
  | none | short =>
    rw [fault] at looked
    obtain ⟨told, rfl⟩ := Prod.mk.inj looked
    exact ⟨told.symm, rfl⟩
  | error error written =>
    rw [fault] at checked
    cases checked

/-- A read fails or gives the content, and changes nothing. -/
theorem exec_read {choice : HistoryChoice} {path : Path} {answer : Except IoError Bytes}
    (ran : historyExec before (.file (.read path)) choice = some (answer, after)) :
    ((∃ error, answer = .error error) ∨
      ∃ bytes, answer = .ok bytes ∧ before.files.read path = some bytes) ∧ after = before := by
  obtain ⟨files, read, rfl⟩ := exec_file ran
  have quiet := FileOp.exec_harmless before.files (.read path) rfl choice.fault
  rw [show FileOp.exec before.files (.read path) choice.fault = (answer, files) from read] at quiet
  obtain rfl : files = before.files := quiet
  exact ⟨FileOp.exec_read read, rfl⟩

/-- A load whose existence check does not fail gives what the file holds, or fails. -/
theorem solo_load {records : Records} (checked : fails (choices 0).fault = false)
    (ran : (load serde file).solo historyExec choices before = some (.ok records, after)) :
    after = before ∧ reload serde file before = some (.ok records) := by
  rw [reload_eq]
  obtain ⟨answer, middle, looked, rest⟩ := Program.solo_perform ran
  obtain ⟨rfl, rfl⟩ := exec_exists checked looked
  cases content : middle.files.read file.path with
  | none =>
    rw [content] at rest
    obtain ⟨same, rfl⟩ := Program.solo_done rest
    rw [Except.ok.inj same]
    exact ⟨rfl, rfl⟩
  | some raw =>
    rw [content] at rest
    simp only [Option.isSome_some, if_true] at rest
    obtain ⟨answer, last, read, final⟩ := Program.solo_perform rest
    obtain ⟨⟨error, rfl⟩ | ⟨bytes, rfl, reads⟩, rfl⟩ := exec_read read
    · have wrong := (Program.solo_done final).1
      cases wrong
    · obtain rfl := Option.some.inj (content.symm.trans reads)
      simp only [Program.bind_done] at final
      by_cases blank : raw = []
      · rw [if_pos blank] at final
        obtain ⟨same, rfl⟩ := Program.solo_done final
        rw [Except.ok.inj same]
        refine ⟨rfl, ?_⟩
        simp only [blank, if_true]
      · rw [if_neg blank] at final
        simp only [if_neg blank]
        cases decoded : serde.fromSlice raw with
        | error reason =>
          rw [decoded] at final
          have wrong := (Program.solo_done final).1
          cases wrong
        | ok list =>
          rw [decoded] at final
          obtain ⟨same, rfl⟩ := Program.solo_done final
          rw [Except.ok.inj same]
          exact ⟨rfl, rfl⟩

/-- Memory is the reference history, and the file loads as memory. -/
structure Tracks (serde : SerdeJson) (file : HistoryFile) (session : Session) : Prop where
  memory : ∀ id, session.store.records.get id = latest session.calls id
  saved : Loads serde file session.store session.store.records

/-- A move keeps the reference history. -/
theorem Tracks.step {session next : Session} {move : Move} (tracks : Tracks serde file session)
    (checked : Checked session move) (moved : step serde file session move = some next) :
    Tracks serde file next := by
  cases move with
  | change call choices =>
    simp only [SoloHistory.step] at moved
    split at moved
    · rename_i store ran
      obtain rfl := Option.some.inj moved
      obtain ⟨memory, ⟨failed, -⟩ | ⟨-, list, listing, holds⟩⟩ := solo_change ran
      · obtain ⟨error, wrong⟩ := failed
        cases wrong
      · refine ⟨fun id => ?_, holds.loads listing⟩
        rw [memory]
        cases call with
        | add record =>
          rw [changed, Records.get_insert, latest, tracks.memory]
        | clear => rfl
    · cases moved
  | reload choices =>
    simp only [SoloHistory.step] at moved
    split at moved
    · rename_i records store ran
      obtain rfl := Option.some.inj moved
      obtain ⟨rfl, loaded⟩ := solo_load checked ran
      obtain ⟨again, same, perm⟩ := tracks.saved
      rw [loaded, Option.some.injEq, Except.ok.injEq] at same
      subst same
      refine ⟨fun id => ?_, records, ?_, .refl _⟩
      · rw [← tracks.memory]
        exact Records.get_of_perm perm id
      · rw [reload_eq] at loaded ⊢
        exact loaded
    · cases moved

instance (session : Session) : (move : Move) → Decidable (Checked session move)
  | .change _ _ => .isTrue trivial
  | .reload choices => inferInstanceAs (Decidable (fails (choices 0).fault = false))

/-- A listing of the reference history: each of its records once, the last completed first. -/
structure Lists (calls : List HistoryCall) (listed : List TransferRecord) : Prop where
  exact : ∀ record, record ∈ listed ↔ latest calls record.id = some record
  once : (listed.map (·.id)).Nodup
  sorted : listed.Pairwise fun one other => other.completedAt ≤ one.completedAt

/-- What can be listed of memory that is the reference history. -/
theorem Tracks.lists {session : Session} (tracks : Tracks serde file session)
    {listed : List TransferRecord} (canList : CanList session.store listed) :
    Lists session.calls listed := by
  obtain ⟨listing, perm, rfl⟩ := (canList_iff _ _).mp canList
  have same : (listing.mergeSort fun one other => other.completedAt ≤ one.completedAt).Perm
      session.store.records.values := (List.mergeSort_perm listing _).trans perm
  refine ⟨fun record => ?_, (same.map _).nodup_iff.mpr session.store.records.distinct, ?_⟩
  · rw [same.mem_iff, Records.mem_iff_get, tracks.memory]
  · have sorted : (listing.mergeSort fun one other => other.completedAt ≤ one.completedAt).Pairwise
        fun one other => decide (other.completedAt ≤ one.completedAt) := by
      apply List.pairwise_mergeSort
      · intro first second third near far
        simp only [decide_eq_true_eq] at near far ⊢
        omega
      · intro first second
        simp only [Bool.or_eq_true, decide_eq_true_eq]
        omega
    refine sorted.imp fun ordered => ?_
    simpa using ordered

/-- Changes and loads one after the other, without a failing existence check: `list` always returns, and
what it returns is the reference history, whatever the order of the map. -/
theorem lists_latest {files : FileStore Path} (blank : Loads serde file ⟨.empty, files⟩ .empty)
    {reached : Session} (path : Machine.Reaches (step serde file) Checked ⟨⟨.empty, files⟩, []⟩ reached) :
    (∃ listed, CanList reached.store listed) ∧
      ∀ listed, CanList reached.store listed → Lists reached.calls listed := by
  have tracks : Tracks serde file reached := by
    refine Machine.Reaches.invariant ⟨fun id => rfl, blank⟩ ?_ path
    intro session move next tracks checked moved
    exact tracks.step checked moved
  refine ⟨?_, fun listed canList => tracks.lists canList⟩
  exact ⟨_, (canList_iff _ _).mpr ⟨_, .refl _, rfl⟩⟩

/-- No fault; the listings have the sample record. -/
def smoothly : Nat → HistoryChoice := fun _ => ⟨[sampleRecord], .none⟩

/-- The existence check of a load fails. -/
def uncheckable : Nat → HistoryChoice := fun _ => ⟨[], .error ⟨"Permission denied (os error 13)"⟩ 0⟩

/-- A record added, and the store loaded again. -/
theorem lists_latest_reload : ∃ reached,
    Machine.run (step sampleSerde sampleFile) Checked
        [.change (.add sampleRecord) smoothly, .reload smoothly] ⟨emptyStore, []⟩ = some reached ∧
      ∀ listed, CanList reached.store listed → Lists reached.calls listed := by
  have runs : (Machine.run (step sampleSerde sampleFile) Checked
      [.change (.add sampleRecord) smoothly, .reload smoothly] ⟨emptyStore, []⟩).isSome := by
    decide +kernel
  obtain ⟨reached, ran⟩ := Option.isSome_iff_exists.mp runs
  have blank : Loads sampleSerde sampleFile ⟨.empty, .empty⟩ .empty := emptyStore_loads
  exact ⟨reached, ran, (lists_latest blank (Machine.reaches_of_run ran)).2⟩

/-- A load that cannot check for the file starts from nothing. -/
theorem lists_latest_broken :
    ¬∀ (serde : SerdeJson) (file : HistoryFile) (files : FileStore Path) (reached : Session),
      Loads serde file ⟨.empty, files⟩ .empty →
      Machine.Reaches (step serde file) (fun _ _ => True) ⟨⟨.empty, files⟩, []⟩ reached →
      ∀ listed, CanList reached.store listed → Lists reached.calls listed := by
  intro always
  have outcome : (Machine.run (step sampleSerde sampleFile) (fun _ _ => True)
      [.change (.add sampleRecord) smoothly, .reload uncheckable] ⟨emptyStore, []⟩).map
        (fun reached => (reached.store.records, latest reached.calls sampleRecord.id)) =
      some (.empty, some sampleRecord) := by
    decide +kernel
  obtain ⟨reached, ran, left⟩ := Option.map_eq_some_iff.mp outcome
  obtain ⟨memory, added⟩ := Prod.mk.inj left
  have nothing : CanList reached.store [] := by
    rw [canList_iff, memory]
    exact ⟨[], .refl _, List.mergeSort_nil.symm⟩
  have lists := always _ _ _ reached emptyStore_loads (Machine.reaches_of_run ran) [] nothing
  have listed := (lists.exact sampleRecord).mpr added
  cases listed

end FileDrop.SoloHistory
