import FileDrop.Foundation.Exclusive
import FileDrop.Security.Token
import FileDrop.Storage.History

/-!
# Concurrent changes to one history store

Every change rewrites the whole file through one temporary file, and no lock spans the listing,
the write and the rename. Two orders go wrong: a call truncates the temporary file while another
call is still about to rename it, and a call renames an older listing after a newer one. The
results here say that nothing else does: without the first order every file a crash can leave is
a complete one, and without both the file ends as memory does.
-/
namespace FileDrop.SharedHistory
open Effects Unix HistoryStore

variable {ι : Type}

/-! ## Calls made at the same time -/

/-- A change of the store. -/
inductive HistoryCall where
  | add (record : TransferRecord)
  | clear
  deriving DecidableEq

/-- The program of a change. -/
def HistoryCall.program (serde : SerdeJson) (file : HistoryFile) : HistoryCall → Method Unit
  | .add record => HistoryStore.add serde file record
  | .clear => HistoryStore.clear serde file

/-- The store with what a reader of the run remembers about it. -/
structure Observed (ι : Type) where
  store : HistoryWorld
  /-- Every content the memory has had, newest first. -/
  past : List Records
  /-- The call that listed the records last, with its listing. -/
  newest : Option (ι × List TransferRecord)

/-- Remember what an operation of thread `i` did. -/
def Observed.note (seen : Observed ι) (i : ι) :
    (op : HistoryOp) → op.Result → HistoryWorld → Observed ι
  | .insert _, _, store => { seen with store, past := store.records :: seen.past }
  | .clear, _, store => { seen with store, past := store.records :: seen.past }
  | .snapshot, list, store => { seen with store, newest := some (i, list) }
  | .file _, _, store => { seen with store }

/-- One operation of thread `i`. -/
def observe (i : ι) : Meaning historySig (Observed ι) HistoryChoice := fun seen op choice =>
  (historyExec seen.store op choice).map fun (result, store) => (result, seen.note i op result store)

/-- Calls about to start on a store. -/
def start (serde : SerdeJson) (file : HistoryFile) (call : ι → HistoryCall)
    (store : HistoryWorld) : Pool ι historySig (Observed ι) (Except FileDropError Unit) where
  world := { store, past := [store.records], newest := none }
  threads i := (call i).program serde file

/-- What loading the store's file gives when nothing fails. -/
def reload (serde : SerdeJson) (file : HistoryFile) (store : HistoryWorld) :
    Option (Except FileDropError Records) :=
  ((load serde file).solo historyExec (fun _ => ⟨[], .none⟩) store).map Prod.fst

/-- Loading gives exactly these records. -/
def Loads (serde : SerdeJson) (file : HistoryFile) (store : HistoryWorld) (records : Records) :
    Prop :=
  ∃ loaded, reload serde file store = some (.ok loaded) ∧ loaded.values.Perm records.values

/-- Loading depends on the bytes of the store's file alone. -/
theorem reload_eq (serde : SerdeJson) (file : HistoryFile) (store : HistoryWorld) :
    reload serde file store = some (match store.files.read file.path with
      | none => .ok .empty
      | some raw =>
        if raw = [] then .ok .empty
        else match serde.fromSlice raw with
          | .error reason => .error (.serde reason)
          | .ok list => .ok (.ofList list)) := by
  unfold reload load
  cases found : store.files.read file.path with
  | none => simp [Program.solo, historyExec, FileOp.exec, FileOp.carryOut, found]
  | some raw =>
    by_cases blank : raw = []
    · simp [Program.solo, historyExec, FileOp.exec, FileOp.carryOut, Program.attempt, fileOp,
        found, blank]
    · cases decoded : serde.fromSlice raw <;>
        simp [Program.solo, historyExec, FileOp.exec, FileOp.carryOut, Program.attempt, fileOp,
          found, blank, decoded]

/-- The store's file is the complete encoding of a listing. -/
def Holds (serde : SerdeJson) (file : HistoryFile) (store : HistoryWorld)
    (list : List TransferRecord) : Prop :=
  ∃ json, serde.toVecPretty list = .ok json ∧ store.files.read file.path = some json

/-- A complete encoding of a listing loads as the records listed. -/
theorem Holds.loads {serde : SerdeJson} {file : HistoryFile} {store : HistoryWorld}
    {list : List TransferRecord} {records : Records} (holds : Holds serde file store list)
    (listing : list.Perm records.values) : Loads serde file store records := by
  obtain ⟨json, encoded, reads⟩ := holds
  have some : json ≠ [] := serde.nonempty list json encoded
  have decoded := serde.roundTrip list json encoded
  refine ⟨.ofList list, ?_, Records.ofList_perm listing⟩
  rw [reload_eq]
  simp [reads, some, decoded]

/-! ## Where a call is -/

/-- The call is about to list the records. -/
def lists : historySig.Op → Bool
  | .snapshot => true
  | _ => false

/-- The call has listed the records and is not through with the file. -/
def saves : historySig.Op → Bool
  | .file _ => true
  | _ => false

/-- The call is about to rename the temporary file. -/
def renames : historySig.Op → Bool
  | .file (.rename _ _) => true
  | _ => false

/-- From a call's opening of the temporary file to its rename. -/
def tempFile : Section historySig where
  inside
    | .file (.writeSome _ _) => true
    | .file (.rename _ _) => true
    | _ => false
  enters
    | .file (.openWrite _ _) => true
    | _ => false

/-- The call has returned an error. -/
def Failed (program : Method Unit) : Prop := ∃ error, program = .done (.error error)

/-- The writes of a call, and its rename, are part of its saving. -/
theorem writeAll_saves (file : HistoryFile) (fuel : Nat) (handle : Handle) (rest : Bytes) :
    (writeAll (commit file) fuel handle rest).At saves := by
  cases fuel with
  | zero => rfl
  | succ fuel =>
    unfold writeAll
    split <;> rfl

/-! ## What one operation of a call does -/

/-- What the other calls may do under call `i`. -/
structure Drift (i : ι) (before after : Observed ι) : Prop where
  past : before.past <:+ after.past
  memory : before.store.records ∈ before.past → after.store.records ∈ after.past
  newest : after.newest = before.newest ∨ ∃ j list, j ≠ i ∧ after.newest = some (j, list)

/-- Nothing happened. -/
theorem Drift.refl (i : ι) (seen : Observed ι) : Drift i seen seen :=
  ⟨List.suffix_refl _, id, .inl rfl⟩

/-- One thing after another. -/
theorem Drift.trans (i : ι) (first second third : Observed ι) (near : Drift i first second)
    (far : Drift i second third) : Drift i first third where
  past := near.past.trans far.past
  memory := fun member => far.memory (near.memory member)
  newest := by
    rcases far.newest with same | other
    · rw [same]
      exact near.newest
    · exact .inr other

/-- What an operation of call `i` does: memory changes only on the way to a listing, the newest
listing is the call's own, and the store's file changes only when the temporary file is renamed
over it, with the complete encoding of the call's listing. -/
structure Effect (serde : SerdeJson) (file : HistoryFile) (i : ι) (program : Method Unit)
    (before : Observed ι) (rest : Method Unit) (after : Observed ι) : Prop where
  past : before.past <:+ after.past
  remembered : before.store.records ∈ before.past → after.store.records ∈ after.past
  memory : after.store.records = before.store.records ∨ rest.At lists
  newest : program.At lists ∨ after.newest = before.newest
  listing : program.At lists → after.store.records = before.store.records ∧
    (∃ list, after.newest = some (i, list) ∧ list.Perm after.store.records.values) ∧
    (rest.At saves ∨ Failed rest)
  saving : program.At saves → rest.At saves ∨ Failed rest ∨ program.At renames
  moving : ∀ value, program ≠ .done value
  file : (after.store.files.read file.path = before.store.files.read file.path ∧
      (program.At renames → Failed rest)) ∨
    program.At renames ∧ ∃ list, Holds serde file after.store list ∧
      (∃ content ∈ after.past, list.Perm content.values) ∧ before.newest ≠ none ∧
      ∀ own, before.newest = some (i, own) → own = list

/-- An operation of one call is a drift to every other call. -/
theorem Effect.drift {serde : SerdeJson} {file : HistoryFile} {i j : ι} {before after : Observed ι}
    {program rest : Method Unit} (effect : Effect serde file i program before rest after)
    (apart : j ≠ i) : Drift j before after where
  past := effect.past
  memory := effect.remembered
  newest := by
    rcases effect.newest with listing | same
    · obtain ⟨-, ⟨list, newest, -⟩, -⟩ := effect.listing listing
      exact .inr ⟨i, list, apart.symm, newest⟩
    · exact .inl same

/-- Call `i` keeps its effects whatever the other calls do. -/
abbrev Guarded (serde : SerdeJson) (file : HistoryFile) (i : ι) :
    Method Unit → Observed ι → Prop :=
  tempFile.Keeps (observe i) (fun seen => seen.store.files) (Drift i) (Effect serde file i)

/-- The same run with other files. -/
def Observed.withFiles (seen : Observed ι) (files : FileStore Path) : Observed ι :=
  { seen with store := { seen.store with files } }

/-- A file operation of a call changes files alone. -/
theorem observe_file {i : ι} {seen after : Observed ι} {op : FileOp Path} {choice : HistoryChoice}
    {result : op.Result} (ran : observe i seen (.file op) choice = some (result, after)) :
    ∃ files, op.exec seen.store.files choice.fault = (result, files) ∧
      after = seen.withFiles files := by
  simp only [observe, historyExec, Option.map_some, Option.some.injEq, Prod.mk.injEq] at ran
  exact ⟨_, Prod.ext ran.1 rfl, ran.2.symm⟩

section

variable {serde : SerdeJson} {file : HistoryFile} {i : ι} {list : List TransferRecord}
variable {json : Bytes} {seen : Observed ι}

/-- A file operation other than the rename leaves the store's file as it is. -/
theorem Effect.of_file {op : FileOp Path} {next : op.Result → Method Unit} {rest : Method Unit}
    {files : FileStore Path} (other : renames (.file op) = false)
    (same : files.read file.path = seen.store.files.read file.path)
    (goes : rest.At saves ∨ Failed rest) :
    Effect serde file i (.perform (.file op) next) seen rest (seen.withFiles files) where
  past := List.suffix_refl _
  remembered := id
  memory := .inl rfl
  newest := .inr rfl
  listing := by simp [lists]
  saving := fun _ => goes.imp_right .inl
  moving := by simp
  file := .inl ⟨same, by simp [other]⟩

/-- What a call knows about its own listing. -/
structure Listed (serde : SerdeJson) (i : ι) (list : List TransferRecord) (json : Bytes)
    (seen : Observed ι) : Prop where
  encoded : serde.toVecPretty list = .ok json
  content : ∃ content ∈ seen.past, list.Perm content.values
  someone : seen.newest ≠ none
  mine : ∀ own, seen.newest = some (i, own) → own = list

/-- The other calls do not change what a call knows about its listing. -/
theorem Listed.drift {later : Observed ι} (listed : Listed serde i list json seen)
    (moved : Drift i seen later) : Listed serde i list json later where
  encoded := listed.encoded
  content := by
    obtain ⟨content, member, listing⟩ := listed.content
    exact ⟨content, moved.past.mem member, listing⟩
  someone := by
    rcases moved.newest with same | ⟨j, other, -, same⟩
    · exact same ▸ listed.someone
    · simp [same]
  mine := by
    intro own found
    rcases moved.newest with same | ⟨j, other, apart, same⟩
    · exact listed.mine own (same ▸ found)
    · rw [same, Option.some.injEq, Prod.mk.injEq] at found
      exact absurd found.1 apart

/-- The temporary file under the call's handle holds what was written of the encoding. -/
structure Staged (file : HistoryFile) (json : Bytes) (handle : Handle) (rest : Bytes)
    (files : FileStore Path) : Prop where
  leads : files.entries file.tmpPath = some handle.inode
  staged : files.read file.tmpPath = some (json.take handle.position)
  left : rest = json.drop handle.position
  inside : handle.position ≤ json.length

/-- Opening the temporary file stages nothing yet. -/
theorem Staged.opened (file : HistoryFile) (json : Bytes) (files : FileStore Path) :
    Staged file json (files.openWrite file.tmpPath true).1 json
      (files.openWrite file.tmpPath true).2 where
  leads := files.openWrite_entries file.tmpPath true
  staged := by simp [FileStore.read_openWrite]
  left := by simp
  inside := by simp

/-- Writing some of what is left stages it. -/
theorem Staged.write {handle : Handle} {rest : Bytes} {files : FileStore Path}
    (staged : Staged file json handle rest files) {count : Nat} (atMost : count ≤ rest.length) :
    Staged file json (files.write handle (rest.take count)).1 (rest.drop count)
      (files.write handle (rest.take count)).2 := by
  have length : (rest.take count).length = count := List.length_take_of_le atMost
  have left := staged.left
  have inside := staged.inside
  have fits : handle.position + count ≤ json.length := by
    rw [left, List.length_drop] at atMost
    omega
  refine ⟨by simpa using staged.leads, ?_, ?_, by simpa [length] using fits⟩
  · have position : (json.take handle.position).length = handle.position :=
      List.length_take_of_le inside
    have appended := overlay_end (json.take handle.position) (rest.take count)
    rw [position] at appended
    rw [FileStore.read_write files _ staged.leads staged.staged, appended,
      FileStore.write_position, length, left, List.take_add]
  · rw [FileStore.write_position, length, left, List.drop_drop]

/-- What a call knows inside the section. -/
def Inside (serde : SerdeJson) (file : HistoryFile) (i : ι) (list : List TransferRecord)
    (json : Bytes) (handle : Handle) (rest : Bytes) (seen : Observed ι) : Prop :=
  Listed serde i list json seen ∧ Staged file json handle rest seen.store.files

/-- The other calls do not change what a call knows inside the section. -/
theorem Inside.drift {handle : Handle} {rest : Bytes} (before later : Observed ι)
    (known : Inside serde file i list json handle rest before) (moved : Drift i before later)
    (still : later.store.files = before.store.files) :
    Inside serde file i list json handle rest later :=
  ⟨known.1.drift moved, still ▸ known.2⟩

/-! ## Calls are safe -/

/-- The rename at the end of a call that has staged the whole encoding. -/
theorem guarded_rename {handle : Handle}
    (known : Inside serde file i list json handle [] seen) :
    Guarded serde file i (commit file) seen := by
  refine Section.Keeps.inside rfl Inside.drift ?_ known
  rintro before choice result after ⟨listed, staged⟩ ran
  obtain ⟨files, moved, rfl⟩ := observe_file ran
  rcases FileOp.exec_rename moved with ⟨error, rfl, rfl⟩ | ⟨rfl, renamed⟩
  · exact ⟨{
      past := List.suffix_refl _
      remembered := id
      memory := .inl rfl
      newest := .inr rfl
      listing := by simp [lists]
      saving := fun _ => .inr (.inl ⟨_, rfl⟩)
      moving := by simp
      file := .inl ⟨rfl, fun _ => ⟨_, rfl⟩⟩ }, trivial⟩
  · have whole : json.length ≤ handle.position := by
      have left := congrArg List.length staged.left
      simp only [List.length_nil, List.length_drop] at left
      omega
    have holds : Holds serde file (before.withFiles files).store list := by
      refine ⟨json, listed.encoded, ?_⟩
      have reads := (FileStore.read_rename_target renamed).trans staged.staged
      rw [List.take_of_length_le whole] at reads
      exact reads
    exact ⟨{
      past := List.suffix_refl _
      remembered := id
      memory := .inl rfl
      newest := .inr rfl
      listing := by simp [lists]
      saving := fun _ => .inr (.inr rfl)
      moving := by simp
      file := .inr ⟨rfl, list, holds, listed.content, listed.someone, listed.mine⟩ }, trivial⟩

/-- The writes of a call that has opened the temporary file. -/
theorem guarded_writeAll {handle : Handle} {rest : Bytes} {fuel : Nat}
    (known : Inside serde file i list json handle rest seen) (enough : rest.length ≤ fuel) :
    Guarded serde file i (writeAll (commit file) fuel handle rest) seen := by
  induction fuel generalizing handle rest seen with
  | zero =>
    obtain rfl := List.length_eq_zero_iff.mp (Nat.le_zero.mp enough)
    exact guarded_rename known
  | succ fuel ih =>
    unfold writeAll
    split
    · rename_i finished
      subst finished
      exact guarded_rename known
    · rename_i more
      refine Section.Keeps.inside rfl Inside.drift ?_ known
      rintro before choice result after ⟨listed, staged⟩ ran
      obtain ⟨files, wrote, rfl⟩ := observe_file ran
      rcases FileOp.exec_writeSome wrote with ⟨error, rfl, rfl⟩ | ⟨count, atMost, least, rfl, rfl⟩
      · exact ⟨.of_file rfl rfl (.inr ⟨_, rfl⟩), trivial⟩
      · have apart : before.store.files.entries file.path ≠ some handle.inode := fun same =>
          file.tmpPath_ne (before.store.files.single _ _ _ staged.leads same)
        have shorter : (rest.drop count).length ≤ fuel := by
          have := least more
          rw [List.length_drop]
          omega
        have saving := writeAll_saves file fuel
        exact ⟨.of_file rfl (before.store.files.read_write_ne _ apart) (.inl (saving _ _)),
          ih ⟨⟨listed.encoded, listed.content, listed.someone, listed.mine⟩, staged.write atMost⟩
            shorter⟩

/-- A call that has listed the records and encoded the listing. -/
theorem guarded_save (listed : Listed serde i list json seen) :
    Guarded serde file i (save file json) seen := by
  have stable := fun before later (known : Listed serde i list json before)
    (moved : Drift i before later) => known.drift moved
  refine Section.Keeps.outside stable ?_ listed
  intro before choice result after listed ran
  obtain ⟨files, created, rfl⟩ := observe_file ran
  have same : files = before.store.files := by
    have quiet := FileOp.exec_harmless before.store.files (.createDirAll file.parent) rfl
      choice.fault
    rw [created] at quiet
    exact quiet
  subst same
  cases result with
  | error error => exact ⟨.of_file rfl rfl (.inr ⟨_, rfl⟩), .inr ⟨rfl, id⟩, trivial⟩
  | ok =>
    refine ⟨.of_file rfl rfl (.inl rfl), .inr ⟨rfl, by simp [tempFile, Program.attempt, fileOp]⟩, ?_⟩
    refine Section.Keeps.outside stable ?_ listed
    intro before choice result after listed ran
    obtain ⟨files, opened, rfl⟩ := observe_file ran
    rcases FileOp.exec_openWrite opened with ⟨error, rfl, -, rfl⟩ | ⟨rfl, rfl⟩
    · exact ⟨.of_file rfl rfl (.inr ⟨_, rfl⟩), .inl rfl, trivial⟩
    · have kept := before.store.files.read_openWrite_ne true file.tmpPath_ne.symm
      have staged := Staged.opened file json before.store.files
      exact ⟨.of_file rfl kept (.inl (writeAll_saves file _ _ _)), .inl rfl,
        guarded_writeAll ⟨⟨listed.encoded, listed.content, listed.someone, listed.mine⟩, staged⟩
          (Nat.le_refl _)⟩

/-- A call about to list the records, or one that has failed to encode them. -/
theorem guarded_persist (remembered : seen.store.records ∈ seen.past) :
    Guarded serde file i (persist serde file) seen := by
  have stable := fun before later (member : before.store.records ∈ before.past)
    (moved : Drift i before later) => moved.memory member
  refine Section.Keeps.outside stable ?_ remembered
  intro before choice list after member ran
  obtain ⟨perm, rfl⟩ : list.Perm before.store.records.values ∧
      after = { before with newest := some (i, list) } := by
    by_cases listing : choice.listing.Perm before.store.records.values
    · simp only [observe, historyExec, listing, if_true, Option.map_some, Option.some.injEq,
        Prod.mk.injEq] at ran
      exact ⟨ran.1 ▸ listing, by rw [← ran.2, ← ran.1]; rfl⟩
    · simp [observe, historyExec, listing] at ran
  have effect (rest : Method Unit) (goes : rest.At saves ∨ Failed rest) :
      Effect serde file i (persist serde file) before rest
        { before with newest := some (i, list) } := {
    past := List.suffix_refl _
    remembered := id
    memory := .inl rfl
    newest := .inl rfl
    listing := fun _ => ⟨rfl, ⟨list, rfl, perm⟩, goes⟩
    saving := by simp [persist, saves]
    moving := by simp [persist]
    file := .inl ⟨rfl, by simp [persist, renames]⟩ }
  cases encoded : serde.toVecPretty list with
  | error reason => exact ⟨effect _ (.inr ⟨_, rfl⟩), .inr ⟨rfl, id⟩, trivial⟩
  | ok json =>
    refine ⟨effect _ (.inl rfl), .inr ⟨rfl, by simp [save, tempFile, Program.attempt, fileOp]⟩, ?_⟩
    have listed : Listed serde i list json { before with newest := some (i, list) } := {
      encoded
      content := ⟨_, member, perm⟩
      someone := by simp
      mine := fun own found => by simpa using found.symm }
    exact guarded_save listed

/-- Every change of the store is safe from any point on. -/
theorem guarded_call (call : HistoryCall) : Guarded serde file i (call.program serde file) seen := by
  -- both changes put a content into memory and go on to list it
  have changed {op : HistoryOp} {next : op.Result → Method Unit} (before after : Observed ι)
      (records : Records) (same : after = { before with
        store := { before.store with records }, past := records :: before.past })
      (other : lists op = false ∧ saves op = false ∧ renames op = false) :
      Effect serde file i (.perform op next) before (persist serde file) after := by
    subst same
    exact {
      past := List.suffix_cons _ _
      remembered := fun _ => List.mem_cons_self
      memory := .inr rfl
      newest := .inr rfl
      listing := by simp [other.1]
      saving := by simp [other.2.1]
      moving := by simp
      file := .inl ⟨rfl, by simp [other.2.2]⟩ }
  cases call with
  | add record =>
    refine Section.Keeps.outside (fun _ _ (_ : True) _ => trivial) ?_ trivial
    rintro before choice result after - ran
    obtain rfl := (Prod.mk.inj (Option.some.inj ran)).2
    exact ⟨changed before _ (before.store.records.insert record) rfl ⟨rfl, rfl, rfl⟩,
      .inr ⟨rfl, by simp [persist, tempFile]⟩, guarded_persist List.mem_cons_self⟩
  | clear =>
    refine Section.Keeps.outside (fun _ _ (_ : True) _ => trivial) ?_ trivial
    rintro before choice result after - ran
    obtain rfl := (Prod.mk.inj (Option.some.inj ran)).2
    exact ⟨changed before _ .empty rfl ⟨rfl, rfl, rfl⟩,
      .inr ⟨rfl, by simp [persist, tempFile]⟩, guarded_persist List.mem_cons_self⟩

end

/-! ## A sample store -/

/-- The record of a sent file. -/
def sampleRecord : TransferRecord where
  id := ⟨1⟩
  fileName := "photo.jpg"
  fileSizeBytes := 1024
  peerDeviceId := ⟨2⟩
  peerName := "laptop"
  outgoing := true
  status := .completed
  sha256 := some "deadbeef"
  startedAt := 100
  completedAt := 200
  savedPath := none

/-- The pretty-printed list of no records. -/
def blankJson : Bytes := asBytes "[]"

/-- The pretty-printed list of the sample record. -/
def sampleJson : Bytes :=
  ["[\n  \x7b\n", "    \"id\": \"00000000-0000-0000-0000-000000000001\",\n",
    "    \"file_name\": \"photo.jpg\",\n", "    \"file_size_bytes\": 1024,\n",
    "    \"peer_device_id\": \"00000000-0000-0000-0000-000000000002\",\n",
    "    \"peer_name\": \"laptop\",\n", "    \"outgoing\": true,\n",
    "    \"status\": \"Completed\",\n", "    \"sha256\": \"deadbeef\",\n",
    "    \"started_at\": 100,\n", "    \"completed_at\": 200,\n", "    \"saved_path\": null\n",
    "  \x7d\n]"].flatMap asBytes

/-- The two encodings differ in their second byte. -/
theorem sampleJson_ne : sampleJson ≠ blankJson ∧ sampleJson ≠ [] := by
  decide +kernel

/-- The two lists of the sample runs with their encodings. -/
def sampleSerde : SerdeJson where
  toVecPretty list :=
    if list = [] then .ok blankJson
    else if list = [sampleRecord] then .ok sampleJson
    else .error "a list outside the sample runs"
  fromSlice raw :=
    if raw = blankJson then .ok []
    else if raw = sampleJson then .ok [sampleRecord]
    else .error "EOF while parsing a list at line 1 column 1"
  roundTrip := by
    intro list json encoded
    split at encoded
    · rename_i none
      rw [← Except.ok.inj encoded, if_pos rfl, none]
    · split at encoded
      · rename_i single
        rw [← Except.ok.inj encoded, if_neg sampleJson_ne.1, if_pos rfl, single]
      · cases encoded
  nonempty := by
    intro list json encoded
    split at encoded
    · rw [← Except.ok.inj encoded]
      decide
    · split at encoded
      · rw [← Except.ok.inj encoded]
        exact sampleJson_ne.2
      · cases encoded

/-- Where the sample store keeps its file. -/
def sampleFile : HistoryFile := ⟨["data"], "history.json"⟩

/-- A store with no file and no records. -/
def emptyStore : HistoryWorld := ⟨.empty, .empty⟩

/-- A new store has nothing to load. -/
theorem emptyStore_loads : Loads sampleSerde sampleFile emptyStore emptyStore.records :=
  ⟨.empty, by rw [reload_eq]; rfl, .refl _⟩

/-- No fault, and an empty listing where one is asked for. -/
def smooth : HistoryChoice := ⟨[], .none⟩

section

variable {serde : SerdeJson} {file : HistoryFile} {call : ι → HistoryCall}
variable {store : HistoryWorld}

/-! ## Every file a crash can leave -/

/-- The file is as it was at the start, absent or not, or it is the complete encoding of a content
that memory has had. -/
def Legible (serde : SerdeJson) (file : HistoryFile) (store : HistoryWorld)
    (seen : Observed ι) : Prop :=
  seen.store.files.read file.path = store.files.read file.path ∨
    ∃ list, Holds serde file seen.store list ∧ ∃ content ∈ seen.past, list.Perm content.values

/-- An operation of a call leaves a legible file legible. -/
theorem Legible.step {i : ι} {before after : Observed ι} {program rest : Method Unit}
    (legible : Legible serde file store before)
    (effect : Effect serde file i program before rest after) :
    Legible serde file store after := by
  rcases effect.file with ⟨same, -⟩ | ⟨-, list, holds, content, -, -⟩
  · rcases legible with unchanged | ⟨list, ⟨json, encoded, reads⟩, content, member, listing⟩
    · exact .inl (same.trans unchanged)
    · exact .inr ⟨list, ⟨json, encoded, same.trans reads⟩, content, effect.past.mem member, listing⟩
  · exact .inr ⟨list, holds, content⟩

/-- A legible file loads. -/
theorem Legible.reload {seen : Observed ι} (legible : Legible serde file store seen)
    (loads : Loads serde file store store.records) :
    ∃ records, reload serde file seen.store = some (.ok records) := by
  rcases legible with unchanged | ⟨list, holds, content, -, listing⟩
  · obtain ⟨records, loaded, -⟩ := loads
    rw [reload_eq] at loaded ⊢
    exact ⟨records, unchanged ▸ loaded⟩
  · obtain ⟨records, loaded, -⟩ := holds.loads listing
    exact ⟨records, loaded⟩

/-- No call opens the temporary file while another call is between opening and renaming it. -/
abbrev Undisturbed (pool : Pool ι historySig (Observed ι) (Except FileDropError Unit)) (i : ι)
    (_ : HistoryChoice) : Prop :=
  tempFile.Respected pool i

/-- At the start no call is inside the section. -/
theorem start_alone : tempFile.Alone (start serde file call store) := by
  intro i j inside
  have outside : ¬((call i).program serde file).At tempFile.inside := by
    cases call i <;> exact Bool.false_ne_true
  exact absurd inside outside

/-- As long as no call disturbs another one's temporary file, the store's file is legible at every
moment, so a crash leaves a file that loads. -/
theorem always_legible [DecidableEq ι] (loads : Loads serde file store store.records)
    {reached : Pool ι historySig (Observed ι) (Except FileDropError Unit)}
    (path : Pool.Reaches observe Undisturbed (start serde file call store) reached) :
    Legible serde file store reached.world ∧
      ∃ records, reload serde file reached.world.store = some (.ok records) := by
  have legible := (Section.reachable (fun i => Drift.refl i) (fun i => Drift.trans i)
    (fun pool i choice respected => respected)
    (fun i program before rest after effect j apart => effect.drift apart)
    (fun before after i choice alone (legible : Legible serde file store before.world) permitted
      others effect => legible.step effect)
    start_alone (.inl rfl) (fun i => guarded_call (call i)) path).1.2
  exact ⟨legible, legible.reload loads⟩

/-- Two clears that list together, and of which the second is writing when the first is done. -/
def clearsInTurn : List (Bool × HistoryChoice) :=
  [(true, smooth), (false, smooth), (true, smooth), (false, smooth), (true, smooth),
    (true, smooth), (true, smooth), (true, smooth), (false, smooth), (false, smooth)]

/-- The second call stopped with its temporary file open, the file is the first one's. -/
theorem always_legible_clears : ∃ reached,
    Pool.run observe Undisturbed clearsInTurn
        (start sampleSerde sampleFile (fun _ => .clear) emptyStore) = some reached ∧
      Legible sampleSerde sampleFile emptyStore reached.world := by
  have runs : (Pool.run observe Undisturbed clearsInTurn
      (start sampleSerde sampleFile (fun _ => .clear) emptyStore)).isSome := by
    decide +kernel
  obtain ⟨reached, ran⟩ := Option.isSome_iff_exists.mp runs
  exact ⟨reached, ran, (always_legible emptyStore_loads (Pool.reaches_of_run ran)).1⟩

/-- The second call truncates the temporary file and writes one byte before the first renames. -/
def clearsMixed : List (Bool × HistoryChoice) :=
  [(true, smooth), (true, smooth), (true, smooth), (true, smooth), (true, smooth),
    (false, smooth), (false, smooth), (false, smooth), (false, smooth), (false, ⟨[], .short 1⟩),
    (true, smooth)]

/-- A call can rename what another call has just truncated. -/
theorem always_legible_broken :
    ¬∀ (serde : SerdeJson) (file : HistoryFile) (call : Bool → HistoryCall) (store : HistoryWorld)
      (reached : Pool Bool historySig (Observed Bool) (Except FileDropError Unit)),
      Loads serde file store store.records →
      Pool.Reaches observe (fun _ _ _ => True) (start serde file call store) reached →
      Legible serde file store reached.world ∧
        ∃ records, reload serde file reached.world.store = some (.ok records) := by
  intro always
  have outcome : (Pool.run observe (fun _ _ _ => True) clearsMixed
      (start sampleSerde sampleFile (fun _ => .clear) emptyStore)).map
        (fun reached => reload sampleSerde sampleFile reached.world.store) =
      some (some (.error (.serde "EOF while parsing a list at line 1 column 1"))) := by
    decide +kernel
  obtain ⟨reached, ran, left⟩ := Option.map_eq_some_iff.mp outcome
  obtain ⟨-, records, loaded⟩ :=
    always _ _ _ _ reached emptyStore_loads (Pool.reaches_of_run ran)
  rw [left] at loaded
  cases loaded

/-! ## The file a finished set of calls leaves -/

/-- No call disturbs another one's temporary file, and no call renames an older listing after the
newest one has been renamed. -/
def InOrder (pool : Pool ι historySig (Observed ι) (Except FileDropError Unit)) (i : ι)
    (_ : HistoryChoice) : Prop :=
  tempFile.Respected pool i ∧
    ((pool.threads i).At renames →
      ∀ newest ∈ pool.world.newest.map Prod.fst, (pool.threads newest).At saves)

instance [Fintype ι] [DecidableEq ι]
    (pool : Pool ι historySig (Observed ι) (Except FileDropError Unit)) (i : ι)
    (choice : HistoryChoice) : Decidable (InOrder pool i choice) :=
  inferInstanceAs (Decidable (tempFile.Respected pool i ∧ ((pool.threads i).At renames →
    ∀ newest ∈ pool.world.newest.map Prod.fst, (pool.threads newest).At saves)))

/-- Memory is listed or about to be, and the newest listing is in the file or on its way there;
or a call has failed. -/
structure Accounted (serde : SerdeJson) (file : HistoryFile) (store : HistoryWorld)
    (pool : Pool ι historySig (Observed ι) (Except FileDropError Unit)) : Prop where
  memory : (pool.world.newest = none ∧ pool.world.store.records = store.records) ∨
    (∃ i list, pool.world.newest = some (i, list) ∧
      list.Perm pool.world.store.records.values) ∨
    (∃ i, (pool.threads i).At lists) ∨ ∃ i, Failed (pool.threads i)
  file : (pool.world.newest = none ∧
      pool.world.store.files.read file.path = store.files.read file.path) ∨
    ∃ i list, pool.world.newest = some (i, list) ∧ ((pool.threads i).At saves ∨
      Failed (pool.threads i) ∨ Holds serde file pool.world.store list)

/-- An operation of a call keeps memory accounted for. -/
theorem Accounted.memory_step {before after : Pool ι historySig (Observed ι) (Except FileDropError Unit)}
    {i : ι} (accounted : Accounted serde file store before)
    (others : ∀ j, j ≠ i → after.threads j = before.threads j)
    (effect : Effect serde file i (before.threads i) before.world (after.threads i) after.world) :
    (after.world.newest = none ∧ after.world.store.records = store.records) ∨
      (∃ i list, after.world.newest = some (i, list) ∧
        list.Perm after.world.store.records.values) ∨
      (∃ i, (after.threads i).At lists) ∨ ∃ i, Failed (after.threads i) := by
  rcases effect.memory with unchanged | about
  · by_cases listing : (before.threads i).At lists
    · obtain ⟨-, ⟨list, newest, perm⟩, -⟩ := effect.listing listing
      exact .inr (.inl ⟨i, list, newest, perm⟩)
    · have newest := effect.newest.resolve_left listing
      rcases accounted.memory with ⟨none, same⟩ | ⟨k, list, found, perm⟩ | ⟨k, waits⟩ | ⟨k, failed⟩
      · exact .inl ⟨newest.trans none, unchanged.trans same⟩
      · exact .inr (.inl ⟨k, list, newest.trans found, unchanged ▸ perm⟩)
      · have apart : k ≠ i := fun same => listing (same ▸ waits)
        exact .inr (.inr (.inl ⟨k, others k apart ▸ waits⟩))
      · have apart : k ≠ i := by
          rintro rfl
          obtain ⟨error, finished⟩ := failed
          exact effect.moving _ finished
        exact .inr (.inr (.inr ⟨k, others k apart ▸ failed⟩))
  · exact .inr (.inr (.inl ⟨i, about⟩))

/-- An operation of a call keeps the file accounted for, when the rename of an older listing does
not come after that of the newest. -/
theorem Accounted.file_step {before after : Pool ι historySig (Observed ι) (Except FileDropError Unit)}
    {i : ι} (accounted : Accounted serde file store before)
    (ordered : (before.threads i).At renames →
      ∀ newest ∈ before.world.newest.map Prod.fst, (before.threads newest).At saves)
    (others : ∀ j, j ≠ i → after.threads j = before.threads j)
    (effect : Effect serde file i (before.threads i) before.world (after.threads i) after.world) :
    (after.world.newest = none ∧
        after.world.store.files.read file.path = store.files.read file.path) ∨
      ∃ i list, after.world.newest = some (i, list) ∧ ((after.threads i).At saves ∨
        Failed (after.threads i) ∨ Holds serde file after.world.store list) := by
  by_cases listing : (before.threads i).At lists
  · obtain ⟨-, ⟨list, newest, -⟩, goes⟩ := effect.listing listing
    exact .inr ⟨i, list, newest, goes.imp_right .inl⟩
  have newest := effect.newest.resolve_left listing
  rcases effect.file with ⟨same, failing⟩ | ⟨moves, written, holds, -, someone, own⟩
  · rcases accounted.file with ⟨none, unchanged⟩ | ⟨k, list, found, state⟩
    · exact .inl ⟨newest.trans none, same.trans unchanged⟩
    · refine .inr ⟨k, list, newest.trans found, ?_⟩
      rcases state with saving | failed | ⟨json, encoded, reads⟩
      · by_cases isK : k = i
        · subst isK
          rcases effect.saving saving with still | failed | moves
          · exact .inl still
          · exact .inr (.inl failed)
          · exact .inr (.inl (failing moves))
        · exact .inl (others k isK ▸ saving)
      · have apart : k ≠ i := by
          rintro rfl
          obtain ⟨error, finished⟩ := failed
          exact effect.moving _ finished
        exact .inr (.inl (others k apart ▸ failed))
      · exact .inr (.inr ⟨json, encoded, same.trans reads⟩)
  · obtain ⟨⟨k, list⟩, found⟩ := Option.ne_none_iff_exists'.mp someone
    refine .inr ⟨k, list, newest.trans found, ?_⟩
    by_cases isK : k = i
    · subst isK
      exact .inr (.inr (own list found ▸ holds))
    · have saving := ordered moves k (by simp [found])
      exact .inl (others k isK ▸ saving)

/-- When the calls write in order and all of them succeed, the file loads as exactly the records
in memory. -/
theorem saved_in_order [DecidableEq ι] (loads : Loads serde file store store.records)
    {reached : Pool ι historySig (Observed ι) (Except FileDropError Unit)}
    (path : Pool.Reaches observe InOrder (start serde file call store) reached)
    (succeeded : ∀ i, reached.threads i = .done (.ok ())) :
    Loads serde file reached.world.store reached.world.store.records := by
  have accounted := (Section.reachable (fun i => Drift.refl i) (fun i => Drift.trans i)
    (fun pool i choice ordered => ordered.1)
    (fun i program before rest after effect j apart => effect.drift apart)
    (fun before after i choice alone (accounted : Accounted serde file store before) ordered
      others effect => ⟨accounted.memory_step others effect,
        accounted.file_step ordered.2 others effect⟩)
    start_alone ⟨.inl ⟨rfl, rfl⟩, .inl ⟨rfl, rfl⟩⟩ (fun i => guarded_call (call i)) path).1.2
  have finished (kind : HistoryOp → Bool) (i : ι) : ¬(reached.threads i).At kind := by
    rw [succeeded i]
    exact id
  have unfailed (i : ι) : ¬Failed (reached.threads i) := by
    rintro ⟨error, failed⟩
    rw [succeeded i] at failed
    cases failed
  rcases accounted.file with ⟨none, unchanged⟩ | ⟨i, list, newest, saving | failed | holds⟩
  · rcases accounted.memory with ⟨-, same⟩ | ⟨i, list, found, -⟩ | ⟨i, waits⟩ | ⟨i, failed⟩
    · obtain ⟨records, loaded, perm⟩ := loads
      rw [reload_eq] at loaded
      refine ⟨records, ?_, same ▸ perm⟩
      rw [reload_eq, unchanged, loaded]
    · rw [none] at found
      cases found
    · exact absurd waits (finished lists i)
    · exact absurd failed (unfailed i)
  · exact absurd saving (finished saves i)
  · exact absurd failed (unfailed i)
  · rcases accounted.memory with ⟨none, -⟩ | ⟨j, other, found, perm⟩ | ⟨j, waits⟩ | ⟨j, failed⟩
    · rw [none] at newest
      cases newest
    · rw [newest, Option.some.injEq, Prod.mk.injEq] at found
      exact holds.loads (found.2 ▸ perm)
    · exact absurd waits (finished lists j)
    · exact absurd failed (unfailed j)

/-- The call has returned without an error. -/
def succeeds : Method Unit → Bool
  | .done (.ok ()) => true
  | _ => false

/-- A call that succeeds is done. -/
theorem succeeds_iff (program : Method Unit) : succeeds program ↔ program = .done (.ok ()) := by
  unfold succeeds
  split <;> simp_all

/-- Two clears, the second in memory before the first has renamed. -/
def clearsOrdered : List (Bool × HistoryChoice) :=
  [(true, smooth), (true, smooth), (true, smooth), (true, smooth), (true, smooth),
    (false, smooth), (true, smooth), (false, smooth), (false, smooth), (false, smooth),
    (false, smooth), (false, smooth)]

/-- Both calls succeed, and the file loads as memory. -/
theorem saved_in_order_clears : ∃ reached,
    Pool.run observe InOrder clearsOrdered
        (start sampleSerde sampleFile (fun _ => .clear) emptyStore) = some reached ∧
      Loads sampleSerde sampleFile reached.world.store reached.world.store.records := by
  have outcome : (Pool.run observe InOrder clearsOrdered
      (start sampleSerde sampleFile (fun _ => .clear) emptyStore)).map
        (fun reached => succeeds (reached.threads true) && succeeds (reached.threads false)) =
      some true := by
    decide +kernel
  obtain ⟨reached, ran, finished⟩ := Option.map_eq_some_iff.mp outcome
  rw [Bool.and_eq_true, succeeds_iff, succeeds_iff] at finished
  refine ⟨reached, ran, saved_in_order emptyStore_loads (Pool.reaches_of_run ran) ?_⟩
  intro i
  cases i with
  | true => exact finished.1
  | false => exact finished.2

/-- The add lists first and renames last; the clear lists and renames in between. -/
def addOvertaken : List (Bool × HistoryChoice) :=
  [(true, smooth), (true, ⟨[sampleRecord], .none⟩), (false, smooth), (false, smooth),
    (false, smooth), (false, smooth), (false, smooth), (false, smooth), (true, smooth),
    (true, smooth), (true, smooth), (true, smooth)]

/-- A call can rename its older listing over a newer one. -/
theorem saved_in_order_broken :
    ¬∀ (serde : SerdeJson) (file : HistoryFile) (call : Bool → HistoryCall) (store : HistoryWorld)
      (reached : Pool Bool historySig (Observed Bool) (Except FileDropError Unit)),
      Loads serde file store store.records →
      Pool.Reaches observe (fun _ _ _ => True) (start serde file call store) reached →
      (∀ i, reached.threads i = .done (.ok ())) →
      Loads serde file reached.world.store reached.world.store.records := by
  intro always
  have outcome : (Pool.run observe (fun _ _ _ => True) addOvertaken
      (start sampleSerde sampleFile (fun i => if i then .add sampleRecord else .clear)
        emptyStore)).map (fun reached => (succeeds (reached.threads true) &&
          succeeds (reached.threads false), reload sampleSerde sampleFile reached.world.store,
          reached.world.store.records)) =
      some (true, some (.ok (.ofList [sampleRecord])), .empty) := by
    decide +kernel
  obtain ⟨reached, ran, left⟩ := Option.map_eq_some_iff.mp outcome
  simp only [Prod.mk.injEq, Bool.and_eq_true, succeeds_iff] at left
  obtain ⟨finished, loaded, memory⟩ := left
  have both : ∀ i, reached.threads i = .done (.ok ()) := by
    intro i
    cases i with
    | true => exact finished.1
    | false => exact finished.2
  obtain ⟨records, again, perm⟩ :=
    always _ _ _ _ reached emptyStore_loads (Pool.reaches_of_run ran) both
  rw [loaded, Option.some.injEq, Except.ok.injEq] at again
  rw [← again, memory] at perm
  exact absurd perm.length_eq (by decide)

end

end FileDrop.SharedHistory
