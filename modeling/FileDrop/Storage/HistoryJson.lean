import FileDrop.Core.JsonBytes
import FileDrop.Core.UuidText
import FileDrop.Storage.History

/-!
# The text of the history

A JSON library as the store uses it, of which only what it documents is known, and one such library: it
writes each record as an object with its fields, and the list of records with indentation.
-/
namespace FileDrop

open Unix (Bytes)

/-- `serde_json`, as the store uses it. -/
def SerdeJson.ofCodec (serde : Json.Codec Json.Mark.ofByte (List TransferRecord)) : SerdeJson where
  toVecPretty := serde.write
  fromSlice := serde.read
  roundTrip := serde.roundTrip
  nonempty _ _ := serde.write_ne_nil

/-! ## A library -/

namespace TransferRecordStatus

/-- The name of a variant. -/
def name : TransferRecordStatus → String
  | .completed => "Completed"
  | .failed => "Failed"
  | .cancelled => "Cancelled"

/-- The variant of a name. -/
def ofName (text : String) : Option TransferRecordStatus :=
  [TransferRecordStatus.completed, .failed, .cancelled].find? fun status => status.name = text

/-- The variant of a name that stands alone, or as the key of nothing. -/
def ofJson : Json.Value → Option TransferRecordStatus
  | .string text => ofName text
  | .object [(text, .null)] => ofName text
  | _ => none

/-- A variant is read from its name. -/
theorem ofName_name (status : TransferRecordStatus) : ofName status.name = some status := by
  cases status with
  | completed | failed | cancelled => decide

end TransferRecordStatus

namespace TransferRecord

/-- The names of the fields, in the order of the declaration. -/
def fieldNames : List String :=
  ["id", "file_name", "file_size_bytes", "peer_device_id", "peer_name", "outgoing", "status", "sha256",
    "started_at", "completed_at", "saved_path"]

/-- Both times are 64-bit integers, as they are in every record of the store. -/
def Wide (record : TransferRecord) : Prop :=
  (-(2 ^ 63) ≤ record.startedAt ∧ record.startedAt < 2 ^ 63) ∧
    -(2 ^ 63) ≤ record.completedAt ∧ record.completedAt < 2 ^ 63

instance (record : TransferRecord) : Decidable record.Wide := inferInstanceAs (Decidable (_ ∧ _))

/-- The saved path is a text. -/
def Spelled (record : TransferRecord) : Prop := ∀ bytes ∈ record.savedPath, (fromUtf8 bytes).isSome

instance (record : TransferRecord) : Decidable record.Spelled :=
  Option.decidableForallMem record.savedPath

/-- An optional path; one that is no text is refused. -/
def pathToJson : Option Bytes → Except String Json.Value
  | none => .ok .null
  | some bytes =>
    match fromUtf8 bytes with
    | some chars => .ok (.string (.ofList chars))
    | none => .error "path contains invalid UTF-8 characters"

/-- An object with the fields. A time beyond 64 bits, which the type of the source excludes, is refused. -/
def toJson (record : TransferRecord) : Except String Json.Value :=
  if record.Wide then
    (pathToJson record.savedPath).map fun savedPath =>
      Json.record fieldNames [.string record.id.toText, .string record.fileName,
        .ofNat record.fileSizeBytes.toNat, .string record.peerDeviceId.toText, .string record.peerName,
        .bool record.outgoing, .string record.status.name, .ofNullable record.sha256,
        .ofInt record.startedAt, .ofInt record.completedAt, savedPath]
  else .error "number out of range"

/-- A record is read from the fields of an object. -/
def ofJson (value : Json.Value) : Option TransferRecord :=
  match Json.fields ["sha256", "saved_path"] fieldNames value with
  | some [id, fileName, fileSizeBytes, peerDeviceId, peerName, outgoing, status, sha256, startedAt,
      completedAt, savedPath] => do
    some {
      id := ← Uuid.parseStr (← id.asString)
      fileName := ← fileName.asString
      fileSizeBytes := .ofNat (← fileSizeBytes.asNat (2 ^ 64))
      peerDeviceId := ← Uuid.parseStr (← peerDeviceId.asString)
      peerName := ← peerName.asString
      outgoing := ← outgoing.asBool
      status := ← TransferRecordStatus.ofJson status
      sha256 := ← sha256.asNullable
      startedAt := ← startedAt.asInt 64
      completedAt := ← completedAt.asInt 64
      savedPath := (← savedPath.asNullable).map asBytes }
  | _ => none

/-- A path that was written is read back. -/
theorem pathOfJson_pathToJson {path : Option Bytes} {value : Json.Value}
    (encoded : pathToJson path = .ok value) :
    ∃ text, value.asNullable = some text ∧ text.map asBytes = path := by
  cases path with
  | none =>
    obtain rfl := Except.ok.inj encoded
    exact ⟨none, rfl, rfl⟩
  | some bytes =>
    cases read : fromUtf8 bytes with
    | none =>
      simp only [pathToJson, read] at encoded
      cases encoded
    | some chars =>
      simp only [pathToJson, read] at encoded
      obtain rfl := Except.ok.inj encoded
      refine ⟨some (.ofList chars), rfl, congrArg some ?_⟩
      rw [asBytes, String.toByteArray_ofList, utf8Encode_of_fromUtf8 read]

/-- A record that was written is read back. -/
theorem ofJson_toJson {record : TransferRecord} {value : Json.Value} (encoded : record.toJson = .ok value) :
    ofJson value = some record := by
  unfold toJson at encoded
  split at encoded
  · rename_i wide
    cases path : pathToJson record.savedPath with
    | error reason =>
      rw [path] at encoded
      cases encoded
    | ok savedPath =>
      rw [path] at encoded
      obtain rfl := Except.ok.inj encoded
      obtain ⟨text, read, same⟩ := pathOfJson_pathToJson path
      have fields : Json.fields ["sha256", "saved_path"] fieldNames (Json.record fieldNames
          [.string record.id.toText, .string record.fileName, .ofNat record.fileSizeBytes.toNat,
            .string record.peerDeviceId.toText, .string record.peerName, .bool record.outgoing,
            .string record.status.name, .ofNullable record.sha256, .ofInt record.startedAt,
            .ofInt record.completedAt, savedPath]) = some _ :=
        Json.fields_record _ (by decide) rfl
      have size := Json.Value.asNat_ofNat record.fileSizeBytes.toNat_lt
      have startedAt : Json.Value.asInt 64 (.ofInt record.startedAt) = some record.startedAt :=
        Json.Value.asInt_ofInt wide.1.1 wide.1.2
      have completedAt : Json.Value.asInt 64 (.ofInt record.completedAt) = some record.completedAt :=
        Json.Value.asInt_ofInt wide.2.1 wide.2.2
      rw [ofJson, fields]
      simp only [size, startedAt, completedAt, read, same, Json.Value.asString_string, Json.Value.asBool_bool,
        Uuid.parseStr_toText, TransferRecordStatus.ofJson, TransferRecordStatus.ofName_name,
        Json.Value.asNullable_ofNullable, Option.bind_eq_bind, Option.bind_some, UInt64.ofNat_toNat]
  · cases encoded

/-- A record that was written has a text as its path. -/
theorem spelled_of_toJson {record : TransferRecord} {value : Json.Value}
    (encoded : record.toJson = .ok value) : record.Spelled := by
  intro bytes path
  unfold toJson at encoded
  split at encoded
  · rw [path] at encoded
    cases read : fromUtf8 bytes with
    | none =>
      simp only [pathToJson, read] at encoded
      cases encoded
    | some chars => rfl
  · cases encoded

end TransferRecord

/-! ### The file -/

namespace HistoryJson

/-- The records that a text lists. -/
def records : Json.Value → Option (List TransferRecord)
  | .array items => items.mapM TransferRecord.ofJson
  | _ => none

/-- Only texts are written. -/
theorem spelled_of_written {list : List TransferRecord} {items : List Json.Value}
    (encoded : list.mapM TransferRecord.toJson = .ok items) : ∀ record ∈ list, record.Spelled := by
  induction list generalizing items with
  | nil => nofun
  | cons record list ih =>
    rw [List.mapM_cons] at encoded
    cases first : record.toJson with
    | error reason =>
      rw [first] at encoded
      cases encoded
    | ok value =>
      cases later : list.mapM TransferRecord.toJson with
      | error reason =>
        rw [first, later] at encoded
        cases encoded
      | ok values => exact List.forall_mem_cons.mpr ⟨TransferRecord.spelled_of_toJson first, ih later⟩

/-- Records that were written are read back. -/
theorem mapM_ofJson {list : List TransferRecord} {items : List Json.Value}
    (encoded : list.mapM TransferRecord.toJson = .ok items) :
    items.mapM TransferRecord.ofJson = some list := by
  induction list generalizing items with
  | nil =>
    obtain rfl := Except.ok.inj encoded
    rfl
  | cons record list ih =>
    rw [List.mapM_cons] at encoded
    cases first : record.toJson with
    | error reason =>
      rw [first] at encoded
      cases encoded
    | ok value =>
      cases later : list.mapM TransferRecord.toJson with
      | error reason =>
        rw [first, later] at encoded
        cases encoded
      | ok values =>
        rw [first, later] at encoded
        obtain rfl := Except.ok.inj encoded
        rw [List.mapM_cons, TransferRecord.ofJson_toJson first, ih later]
        rfl

/-- A library that writes the list with indentation and in UTF-8. -/
def codec : Json.Codec Json.Mark.ofByte (List TransferRecord) :=
  Json.Codec.inUtf8 (.ofLayout (fun list => (list.mapM TransferRecord.toJson).map .array) records
    (Json.pretty 0) fun list value represented => by
      obtain ⟨items, encoded, rfl⟩ := Json.map_eq_ok represented
      exact ⟨Json.parse_pretty _, Json.bracketed_pretty items, mapM_ofJson encoded⟩)

/-- It refuses a path that is no text. -/
theorem codec_refuses {list : List TransferRecord} {record : TransferRecord} (listed : record ∈ list)
    (unspelled : ¬record.Spelled) : ∃ reason, codec.write list = .error reason := by
  cases written : codec.write list with
  | error reason => exact ⟨reason, rfl⟩
  | ok json =>
    obtain ⟨text, laidOut, -⟩ := Json.map_eq_ok written
    obtain ⟨value, represented, -⟩ := Json.map_eq_ok laidOut
    obtain ⟨items, encoded, -⟩ := Json.map_eq_ok represented
    exact absurd (spelled_of_written encoded record listed) unspelled

end HistoryJson

end FileDrop
