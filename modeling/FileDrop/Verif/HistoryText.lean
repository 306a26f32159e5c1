import FileDrop.Storage.HistoryJson
import FileDrop.Verif.SoloHistory

/-!
# What is in the history file

Whatever the JSON library looks like inside: the list of records is read back whole or not at all, so a file
that was cut off is never taken for a shorter history, unless nothing is left of it. A record whose saved
path is no text cannot be written, and since memory takes a record before the file does, it stops every
later add of another record.
-/
namespace FileDrop.HistoryText
open Effects Unix HistoryStore SharedHistory SoloHistory

variable {serde : SerdeJson} {file : HistoryFile} {store : HistoryWorld}

/-! ## A file that was cut off -/

/-- A store that is loaded from the first bytes of a history has all of its records when no byte is missing.
Otherwise the load fails, except on an empty file: that one is loaded as an empty history. -/
theorem reload_take (serde : Json.Codec Json.Mark.ofByte (List TransferRecord)) {list : List TransferRecord}
    {json : Bytes} {count : Nat} (encoded : serde.write list = .ok json)
    (held : store.files.read file.path = some (json.take count)) :
    ∃ reason, reload (.ofCodec serde) file store = some (
      if count = 0 then .ok .empty
      else if count < json.length then .error (.serde reason)
      else .ok (.ofList list)) := by
  have some : json ≠ [] := serde.write_ne_nil encoded
  rw [reload_eq, held]
  by_cases nothing : count = 0
  · subst nothing
    exact ⟨"", by simp only [List.take_zero, if_true]⟩
  · have left : json.take count ≠ [] := by
      rw [Ne, List.take_eq_nil_iff]
      rintro (zero | none)
      · exact nothing zero
      · exact some none
    simp only [if_neg left, if_neg nothing]
    by_cases short : count < json.length
    · rw [← List.take_append_drop count json] at encoded
      obtain ⟨reason, unread⟩ :
          ∃ reason, (SerdeJson.ofCodec serde).fromSlice (json.take count) = .error reason :=
        serde.unread encoded (List.ne_nil_of_length_pos (by rw [List.length_drop]; omega))
      exact ⟨reason, by simp only [unread, if_pos short]⟩
    · have read : (SerdeJson.ofCodec serde).fromSlice json = .ok list := serde.roundTrip list json encoded
      exact ⟨"", by simp only [List.take_of_length_le (Nat.le_of_not_lt short), read, if_neg short]⟩

/-- A file with this content. -/
def fileWith (content : Bytes) : HistoryWorld :=
  ⟨.empty, (FileStore.empty.create sampleFile.path).setContents 0 content⟩

/-- The content is there. -/
theorem read_fileWith (content : Bytes) : (fileWith content).files.read sampleFile.path = some content := by
  simp [fileWith, FileStore.create, FileStore.read, FileStore.empty]

/-- A file with the first ten bytes of a record is not loaded. -/
theorem reload_take_sample : ∃ json reason, HistoryJson.codec.write [sampleRecord] = .ok json ∧
    reload (.ofCodec HistoryJson.codec) sampleFile (fileWith (json.take 10)) =
      some (.error (.serde reason)) := by
  have writes : ((HistoryJson.codec.write [sampleRecord]).map fun json => decide (10 < json.length)) =
      .ok true := by
    decide +kernel
  obtain ⟨json, encoded, long⟩ := Json.map_eq_ok writes
  obtain ⟨reason, loaded⟩ := reload_take HistoryJson.codec encoded (read_fileWith (json.take 10))
  rw [if_neg (by decide), if_pos (of_decide_eq_true long)] at loaded
  exact ⟨json, reason, encoded, loaded⟩

/-! ## A record that cannot be written -/

/-- What is documented of paths: one that is no text is not written. -/
def RefusesPaths (serde : SerdeJson) : Prop :=
  ∀ (list : List TransferRecord) (record : TransferRecord), record ∈ list → ¬record.Spelled →
    ∃ reason, serde.toVecPretty list = .error reason

/-- A change of the history, in an environment, whether it succeeds or not. -/
def change (serde : SerdeJson) (file : HistoryFile) (store : HistoryWorld)
    (move : HistoryCall × (Nat → HistoryChoice)) : Option HistoryWorld :=
  ((move.1.program serde file).solo historyExec move.2 store).map Prod.snd

/-- It adds a record of another transfer. -/
def AddsOther (id : Uuid) (_ : HistoryWorld) (move : HistoryCall × (Nat → HistoryChoice)) : Prop :=
  match move.1 with
  | .add other => other.id ≠ id
  | .clear => False

/-- Memory has a record that cannot be written, and the file has this content. -/
structure Stuck (file : HistoryFile) (record : TransferRecord) (content : Option Bytes)
    (store : HistoryWorld) : Prop where
  held : HistoryStore.get store record.id = some record
  content : store.files.read file.path = content

/-- Adding another record fails then, and changes neither. -/
theorem Stuck.add {record other : TransferRecord} {content : Option Bytes} {choices : Nat → HistoryChoice}
    {after : HistoryWorld} {result : Except FileDropError Unit} (stuck : Stuck file record content store)
    (refuses : RefusesPaths serde) (unspelled : ¬record.Spelled) (apart : other.id ≠ record.id)
    (ran : (HistoryStore.add serde file other).solo historyExec choices store = some (result, after)) :
    (∃ reason, result = .error (.serde reason)) ∧ Stuck file record content after := by
  obtain ⟨failed, still, same⟩ := later_add_fails
    (fun list listed => refuses list record listed unspelled) stuck.held apart ran
  exact ⟨failed, still, same ▸ stuck.content⟩

/-- Once memory has a record whose saved path is no text: however many records of other transfers are added
one after the other, whatever the file system does, each add fails as a serialization error and the file
keeps its content. -/
theorem unspelled_blocks (refuses : RefusesPaths serde) {record : TransferRecord} (unspelled : ¬record.Spelled)
    (held : HistoryStore.get store record.id = some record) {reached : HistoryWorld}
    (path : Machine.Reaches (change serde file) (AddsOther record.id) store reached) :
    reached.files.read file.path = store.files.read file.path ∧
      ∀ {other : TransferRecord} {choices : Nat → HistoryChoice} {result : Except FileDropError Unit}
        {after : HistoryWorld}, other.id ≠ record.id →
        (HistoryStore.add serde file other).solo historyExec choices reached = some (result, after) →
          ∃ reason, result = .error (.serde reason) := by
  have stuck : Stuck file record (store.files.read file.path) reached := by
    refine path.invariant ⟨held, rfl⟩ fun before move after stuck others changed => ?_
    obtain ⟨call, choices⟩ := move
    obtain ⟨⟨result, last⟩, ran, rfl⟩ := Option.map_eq_some_iff.mp changed
    cases call with
    | add other => exact (stuck.add refuses unspelled others ran).2
    | clear => exact others.elim
  exact ⟨stuck.content, fun apart ran => (stuck.add refuses unspelled apart ran).1⟩

/-- A received file with a name that is no text. -/
def unspelledRecord : TransferRecord := { sampleRecord with id := ⟨9⟩, savedPath := some [0xff] }

/-- Its path is no text. -/
theorem unspelled_sample : ¬unspelledRecord.Spelled := by decide +kernel

/-- A store that has it. -/
def stuckStore : HistoryWorld := ⟨.ofList [unspelledRecord], .empty⟩

/-- The environment of an add after it. -/
def listsBoth : Nat → HistoryChoice := fun _ => ⟨[unspelledRecord, sampleRecord], .none⟩

/-- An add that nothing hinders fails, and there still is no file. -/
theorem unspelled_blocks_sample : ∃ result after,
    (HistoryStore.add (.ofCodec HistoryJson.codec) sampleFile sampleRecord).solo historyExec listsBoth
      stuckStore = some (result, after) ∧ ∃ reason, result = .error (.serde reason) := by
  have refuses : RefusesPaths (.ofCodec HistoryJson.codec) := fun _ _ => HistoryJson.codec_refuses
  have held : HistoryStore.get stuckStore unspelledRecord.id = some unspelledRecord := rfl
  have runs : ((HistoryStore.add (.ofCodec HistoryJson.codec) sampleFile sampleRecord).solo historyExec listsBoth
      stuckStore).isSome = true := by
    decide +kernel
  obtain ⟨⟨result, after⟩, ran⟩ := Option.isSome_iff_exists.mp runs
  exact ⟨result, after, ran, (unspelled_blocks refuses unspelled_sample held .refl).2 (by decide) ran⟩

end FileDrop.HistoryText
