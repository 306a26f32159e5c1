import FileDrop.Core.Error
import FileDrop.Core.Path
import FileDrop.Foundation.Program

/-!
# The history store

A map of transfer records in memory and a JSON file that every change rewrites: the records are
listed, encoded, written to a temporary file next to the store and renamed over it. Each await
point of a call is one operation of its program, so two calls interleave at every one of them.
The iteration order of the map and the faults of the file system are the environment's choices.
-/
namespace FileDrop

open Effects Unix

/-- `history::TransferRecordStatus`. -/
inductive TransferRecordStatus where
  | completed
  | failed
  | cancelled
  deriving DecidableEq, Repr

/-- `history::TransferRecord`. A saved path is its bytes, which need not be a text. -/
structure TransferRecord where
  id : Uuid
  fileName : String
  fileSizeBytes : UInt64
  peerDeviceId : Uuid
  peerName : String
  outgoing : Bool
  status : TransferRecordStatus
  sha256 : Option String
  startedAt : Int
  completedAt : Int
  savedPath : Option Bytes
  deriving DecidableEq

/-! ## The map of records -/

/-- The records by their ids, in the order of their insertion. -/
structure Records where
  /-- One record for each id. -/
  values : List TransferRecord
  /-- No id has two records. -/
  distinct : (values.map (·.id)).Nodup
  deriving DecidableEq

namespace Records

/-- No records. -/
def empty : Records := ⟨[], List.nodup_nil⟩

/-- The records with other ids. -/
def others (values : List TransferRecord) (id : Uuid) : List TransferRecord :=
  values.filter fun record => record.id ≠ id

/-- Every other record keeps its own id. -/
theorem others_distinct {values : List TransferRecord} (distinct : (values.map (·.id)).Nodup)
    (id : Uuid) : id ∉ (others values id).map (·.id) ∧ ((others values id).map (·.id)).Nodup := by
  constructor
  · intro member
    obtain ⟨record, kept, same⟩ := List.mem_map.mp member
    have differs := (List.mem_filter.mp kept).2
    simp [same] at differs
  · exact distinct.sublist ((List.filter_sublist).map _)

/-- Put a record in the place of the one with its id, if there is one. -/
def insert (records : Records) (record : TransferRecord) : Records where
  values := others records.values record.id ++ [record]
  distinct := by
    obtain ⟨absent, rest⟩ := others_distinct records.distinct record.id
    rw [List.map_append, List.nodup_append]
    refine ⟨rest, by simp, ?_⟩
    intro id member other last same
    simp only [List.map_cons, List.map_nil, List.mem_singleton] at last
    exact absent ((same.trans last) ▸ member)

/-- The record of an id. -/
def get (records : Records) (id : Uuid) : Option TransferRecord :=
  records.values.find? fun record => record.id = id

/-- Collect a list into a map; of two records with one id the later one stays. -/
def ofList (list : List TransferRecord) : Records := list.foldl insert empty

/-- A record with a new id joins the others. -/
theorem insert_new {records : Records} {record : TransferRecord}
    (new : record.id ∉ records.values.map (·.id)) :
    (records.insert record).values = records.values ++ [record] := by
  have untouched : others records.values record.id = records.values := by
    refine List.filter_eq_self.mpr fun other member => ?_
    have differs : other.id ≠ record.id := fun same =>
      new (List.mem_map.mpr ⟨other, member, same⟩)
    simp [differs]
  simp only [insert, untouched]

/-- Records with ids of their own are collected as they come. -/
theorem foldl_insert_values (list : List TransferRecord) (records : Records)
    (distinct : ((records.values ++ list).map (·.id)).Nodup) :
    (list.foldl insert records).values = records.values ++ list := by
  induction list generalizing records with
  | nil => simp
  | cons record list ih =>
    have new : record.id ∉ records.values.map (·.id) := by
      rw [List.map_append, List.map_cons, List.nodup_append] at distinct
      exact fun member => distinct.2.2 _ member _ List.mem_cons_self rfl
    have inserted := insert_new new
    rw [List.foldl_cons, ih _ (by simpa [inserted] using distinct), inserted,
      List.append_assoc, List.singleton_append]

/-- A listing of a map collects to the same map, up to the order of its records. -/
theorem ofList_perm {list : List TransferRecord} {records : Records}
    (listing : list.Perm records.values) : (ofList list).values.Perm records.values := by
  have distinct : (list.map (·.id)).Nodup :=
    (listing.map _).nodup_iff.mpr records.distinct
  have collected := foldl_insert_values list empty (by simpa [empty] using distinct)
  have same : (ofList list).values = list := by
    rw [ofList, collected]
    rfl
  rw [same]
  exact listing

/-- A lookup finds exactly the record with the id. -/
theorem get_eq_some_iff (records : Records) (id : Uuid) (record : TransferRecord) :
    records.get id = some record ↔ record ∈ records.values ∧ record.id = id := by
  obtain ⟨values, distinct⟩ := records
  unfold get
  induction values with
  | nil => simp
  | cons head values ih =>
    rw [List.map_cons, List.nodup_cons] at distinct
    have tail := ih distinct.2
    by_cases same : head.id = id
    · simp only [List.find?_cons, same, decide_true, Option.some.injEq, List.mem_cons]
      constructor
      · rintro rfl
        exact ⟨.inl rfl, same⟩
      · rintro ⟨rfl | member, other⟩
        · rfl
        · exact absurd (List.mem_map.mpr ⟨record, member, other.trans same.symm⟩) distinct.1
    · simp only [List.find?_cons, same, decide_false, List.mem_cons, tail]
      constructor
      · exact fun ⟨member, found⟩ => ⟨.inr member, found⟩
      · rintro ⟨rfl | member, found⟩
        · exact absurd found same
        · exact ⟨member, found⟩

/-- Maps with the same records answer every lookup alike. -/
theorem get_of_perm {left right : Records} (same : left.values.Perm right.values) (id : Uuid) :
    left.get id = right.get id := by
  refine Option.ext fun record => ?_
  rw [get_eq_some_iff, get_eq_some_iff, same.mem_iff]

/-- A record that is inserted is found under its id, and every other one as before. -/
theorem get_insert (records : Records) (record : TransferRecord) (id : Uuid) :
    (records.insert record).get id = if record.id = id then some record else records.get id := by
  refine Option.ext fun found => ?_
  rw [get_eq_some_iff]
  simp only [insert, others, List.mem_append, List.mem_filter, List.mem_singleton, ne_eq,
    decide_not, Bool.not_eq_true', decide_eq_false_iff_not]
  by_cases same : record.id = id
  · rw [if_pos same, Option.some.injEq]
    constructor
    · rintro ⟨⟨member, differs⟩ | rfl, own⟩
      · exact absurd (own.trans same.symm) differs
      · rfl
    · rintro rfl
      exact ⟨.inr rfl, same⟩
  · rw [if_neg same, get_eq_some_iff]
    constructor
    · rintro ⟨⟨member, differs⟩ | rfl, own⟩
      · exact ⟨member, own⟩
      · exact absurd own same
    · rintro ⟨member, own⟩
      exact ⟨.inl ⟨member, fun also => same (also.symm.trans own)⟩, own⟩

/-- The records are those that a lookup of their id finds. -/
theorem mem_iff_get (records : Records) (record : TransferRecord) :
    record ∈ records.values ↔ records.get record.id = some record := by
  rw [get_eq_some_iff, and_iff_left rfl]

/-- Maps that answer every lookup alike have the same records. -/
theorem perm_of_get {left right : Records} (same : ∀ id, left.get id = right.get id) :
    left.values.Perm right.values := by
  refine (List.perm_ext_iff_of_nodup (.of_map _ left.distinct) (.of_map _ right.distinct)).mpr ?_
  intro record
  rw [mem_iff_get, mem_iff_get, same]

end Records

/-! ## The store -/

/-- The `serde_json` functions the store calls, with what it relies on: a decoder reads back
what the encoder wrote, and no encoding is empty. -/
structure SerdeJson where
  /-- `to_vec_pretty` of a list of records. -/
  toVecPretty : List TransferRecord → Except String Bytes
  /-- `from_slice` into a list of records. -/
  fromSlice : Bytes → Except String (List TransferRecord)
  /-- What was encoded is read back. -/
  roundTrip : ∀ list json, toVecPretty list = .ok json → fromSlice json = .ok list
  /-- An encoding has at least its brackets. -/
  nonempty : ∀ list json, toVecPretty list = .ok json → json ≠ []

/-- Where a store keeps its file: the directory and the file name of its `path`. -/
structure HistoryFile where
  parent : Path
  fileName : String
  deriving DecidableEq, Repr

/-- The path of the store. -/
def HistoryFile.path (file : HistoryFile) : Path := file.parent ++ [file.fileName]

/-- `path.with_extension("json.tmp")`. -/
def HistoryFile.tmpPath (file : HistoryFile) : Path :=
  file.parent ++ [withExtension file.fileName "json.tmp"]

/-- The temporary file never is the store's own file. -/
theorem HistoryFile.tmpPath_ne (file : HistoryFile) : file.tmpPath ≠ file.path := by
  intro same
  have names := List.append_cancel_left same
  exact withExtension_ne file.fileName "json.tmp" (by decide) (List.cons.inj names).1

/-- The operations of a store's methods. -/
inductive HistoryOp where
  /-- Insert a record under the write lock. -/
  | insert (record : TransferRecord)
  /-- Remove every record under the write lock. -/
  | clear
  /-- List the records under the read lock. -/
  | snapshot
  | file (op : FileOp Path)

/-- What each operation returns. -/
abbrev HistoryOp.Result : HistoryOp → Type
  | .insert _ => Unit
  | .clear => Unit
  | .snapshot => List TransferRecord
  | .file op => op.Result

/-- The signature of a store's methods. -/
abbrev historySig : Signature := ⟨HistoryOp, HistoryOp.Result⟩

/-- Memory and disk. -/
structure HistoryWorld where
  /-- `HistoryStore::records`. -/
  records : Records
  files : FileStore Path

/-- What the environment decides: the order a listing comes in, or the fault of a file
operation. -/
structure HistoryChoice where
  listing : List TransferRecord
  fault : Fault

/-- Carry out one operation. A listing has the map's records in any order. -/
def historyExec : Meaning historySig HistoryWorld HistoryChoice
  | world, .insert record, _ => some ((), { world with records := world.records.insert record })
  | world, .clear, _ => some ((), { world with records := .empty })
  | world, .snapshot, choice =>
    if choice.listing.Perm world.records.values then some (choice.listing, world) else none
  | world, .file op, choice =>
    let (result, files) := op.exec world.files choice.fault
    some (result, { world with files })

namespace HistoryStore

/-- A program of a method. -/
abbrev Method (α : Type) : Type := Program historySig (Except FileDropError α)

/-- Wait for a file operation. -/
def fileOp (op : FileOp Path) : Program historySig op.Result := .perform (.file op) .done

/-- An I/O error ends the method. -/
def raise {α : Type} (error : IoError) : Method α := .done (.error (.io error))

/-- `write_all` of `tokio::fs::write`: write what is left until nothing is. Every write takes at
least one byte, so as many rounds as there are bytes are enough. -/
def writeAll (next : Method Unit) : Nat → Handle → Bytes → Method Unit
  | 0, _, _ => next
  | fuel + 1, handle, rest =>
    if rest = [] then next
    else (fileOp (.writeSome handle rest)).attempt raise fun (moved, count) =>
      writeAll next fuel moved (rest.drop count)

/-- The rename at the end of `persist`. -/
def commit (file : HistoryFile) : Method Unit :=
  (fileOp (.rename file.tmpPath file.path)).attempt raise fun _ => .done (.ok ())

/-- `persist`, once the listing is encoded. -/
def save (file : HistoryFile) (json : Bytes) : Method Unit :=
  (fileOp (.createDirAll file.parent)).attempt raise fun _ =>
  (fileOp (.openWrite file.tmpPath true)).attempt raise fun handle =>
  writeAll (commit file) json.length handle json

/-- `persist`. -/
def persist (serde : SerdeJson) (file : HistoryFile) : Method Unit :=
  .perform .snapshot fun list =>
    match serde.toVecPretty list with
    | .error reason => .done (.error (.serde reason))
    | .ok json => save file json

/-- `add`. -/
def add (serde : SerdeJson) (file : HistoryFile) (record : TransferRecord) : Method Unit :=
  .perform (.insert record) fun _ => persist serde file

/-- `clear`. -/
def clear (serde : SerdeJson) (file : HistoryFile) : Method Unit :=
  .perform .clear fun _ => persist serde file

/-- `list`: the records by their completion, the latest first. -/
def list : Program historySig (List TransferRecord) :=
  .perform .snapshot fun records =>
    .done (records.mergeSort fun one other => other.completedAt ≤ one.completedAt)

/-- `get`: one lookup under the read lock. -/
def get (world : HistoryWorld) (id : Uuid) : Option TransferRecord := world.records.get id

/-- `load`, up to the lock it wraps the records in. -/
def load (serde : SerdeJson) (file : HistoryFile) : Method Records :=
  .perform (.file (.tryExists file.path)) fun exists_ =>
    if (match exists_ with | .ok found => found | .error _ => false) then
      (fileOp (.read file.path)).attempt raise fun raw =>
        if raw = [] then .done (.ok .empty)
        else match serde.fromSlice raw with
          | .error reason => .done (.error (.serde reason))
          | .ok list => .done (.ok (.ofList list))
    else .done (.ok .empty)

end HistoryStore

end FileDrop
