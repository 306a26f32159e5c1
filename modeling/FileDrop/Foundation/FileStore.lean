import Mathlib.Data.List.TakeDrop
import Mathlib.Logic.Function.Basic

/-!
# Files behind names

A store separates the names of a directory tree from the files they lead to, as a Unix file
system does: an open handle keeps writing to the same file after its name is renamed or
removed, and every handle has a position of its own. The two facts every update keeps are
fields of the store, so a name never leads to an unused file number and no two names lead to
the same file.
-/
namespace Unix

/-- File contents. -/
abbrev Bytes : Type := List UInt8

/-! ## Writing at a position -/

/-- Bytes after a write at a position: a gap before it reads as zeros, and a write of nothing
does not lengthen the file. -/
def overlay (old : Bytes) (position : Nat) (chunk : Bytes) : Bytes :=
  if chunk = [] then old
  else old.takeD position 0 ++ chunk ++ old.drop (position + chunk.length)

@[simp] theorem overlay_nil (old : Bytes) (position : Nat) : overlay old position [] = old := by
  simp [overlay]

/-- A write inside the file keeps what is before the position and after the chunk. -/
theorem overlay_inside (old : Bytes) (position : Nat) (chunk : Bytes)
    (inside : position ≤ old.length) :
    overlay old position chunk =
      if chunk = [] then old
      else old.take position ++ chunk ++ old.drop (position + chunk.length) := by
  unfold overlay
  rw [List.takeD_eq_take _ inside]

/-- A write at the end of the file appends. -/
theorem overlay_end (old chunk : Bytes) : overlay old old.length chunk = old ++ chunk := by
  rw [overlay_inside old old.length chunk (Nat.le_refl _)]
  split
  · rename_i empty
    rw [empty, List.append_nil]
  · rw [List.take_length, List.drop_eq_nil_of_le (by omega), List.append_nil]

/-- A write of something never shortens the file, and reaches its own end. -/
theorem overlay_length_of_ne_nil (old : Bytes) (position : Nat) {chunk : Bytes}
    (something : chunk ≠ []) :
    (overlay old position chunk).length = max old.length (position + chunk.length) := by
  unfold overlay
  rw [if_neg something, List.length_append, List.length_append, List.takeD_length, List.length_drop]
  omega

/-- A write inside the file never shortens it, and reaches at least its own end. -/
theorem overlay_length (old : Bytes) (position : Nat) (chunk : Bytes)
    (inside : position ≤ old.length) :
    (overlay old position chunk).length = max old.length (position + chunk.length) := by
  by_cases empty : chunk = []
  · rw [empty, overlay_nil, List.length_nil, Nat.add_zero, Nat.max_eq_left inside]
  · exact overlay_length_of_ne_nil old position empty

/-- Two writes one after the other are one write of both chunks. -/
theorem overlay_append (old : Bytes) (position : Nat) (first second : Bytes) :
    overlay (overlay old position first) (position + first.length) second =
      overlay old position (first ++ second) := by
  by_cases noFirst : first = []
  · simp [noFirst]
  by_cases noSecond : second = []
  · simp [noSecond]
  have neither : first ++ second ≠ [] := by simp [noFirst]
  have start : (old.takeD position 0 ++ first).length = position + first.length := by simp
  have reach : position + first.length ≤
      (old.takeD position 0 ++ first ++ old.drop (position + first.length)).length := by
    rw [List.length_append, start]
    omega
  simp only [overlay, noFirst, noSecond, neither, if_false]
  rw [List.takeD_eq_take _ reach, List.take_left' start, ← List.drop_drop, List.drop_left' start,
    List.drop_drop, List.length_append, ← Nat.add_assoc]
  simp only [List.append_assoc]

/-- A correct continuation keeps a prefix: bytes of `whole` written at their own position into
a prefix of `whole` that reaches that position give a prefix of `whole`. -/
theorem overlay_prefix {old whole chunk : Bytes} {position : Nat} (partly : old <+: whole)
    (inside : position ≤ old.length) (correct : chunk <+: whole.drop position) :
    overlay old position chunk <+: whole := by
  obtain ⟨missing, rfl⟩ := partly
  rw [overlay_inside old position chunk inside]
  split
  · exact List.prefix_append old missing
  · obtain ⟨later, joined⟩ := correct
    have whole_eq : old ++ missing = old.take position ++ (chunk ++ later) := by
      rw [joined, List.drop_append_of_le_length inside, ← List.append_assoc,
        List.take_append_drop]
    by_cases short : position + chunk.length ≤ old.length
    · have tail : old.drop (position + chunk.length) ++ missing = later := by
        have dropped := congrArg (List.drop (position + chunk.length)) whole_eq
        rw [List.drop_append_of_le_length short, ← List.append_assoc,
          List.drop_left' (by simp [List.length_take, Nat.min_eq_left inside])] at dropped
        exact dropped
      exact ⟨missing, by rw [whole_eq, ← tail]; simp only [List.append_assoc]⟩
    · rw [List.drop_eq_nil_of_le (by omega), List.append_nil, whole_eq, ← List.append_assoc]
      exact List.prefix_append _ _

/-! ## The store -/

/-- Names, the files they lead to, and the contents of every file ever created. -/
structure FileStore (Path : Type) where
  /-- The file a name leads to. -/
  entries : Path → Option Nat
  /-- What each file holds. -/
  contents : Nat → Bytes
  /-- The number of the next file to be created. -/
  fresh : Nat
  /-- A name leads to a file that was created. -/
  linked : ∀ path inode, entries path = some inode → inode < fresh
  /-- A file has at most one name. -/
  single : ∀ path other inode, entries path = some inode → entries other = some inode →
    path = other

/-- An open file: the file itself and the position of the next write. -/
structure Handle where
  /-- The open file, whatever its name is now. -/
  inode : Nat
  /-- Where the next write goes. -/
  position : Nat
  deriving DecidableEq, Repr

namespace FileStore

variable {Path : Type}

/-- No names and no files. -/
def empty : FileStore Path where
  entries _ := none
  contents _ := []
  fresh := 0
  linked := by simp
  single := by simp

/-- What the file under a name holds. -/
def read (store : FileStore Path) (path : Path) : Option Bytes :=
  (store.entries path).map store.contents

/-- Replace what a file holds. -/
def setContents (store : FileStore Path) (inode : Nat) (bytes : Bytes) : FileStore Path :=
  { store with contents := Function.update store.contents inode bytes }

/-- Write a chunk at a handle's position, and move the handle past it. -/
def write (store : FileStore Path) (handle : Handle) (chunk : Bytes) :
    Handle × FileStore Path :=
  (⟨handle.inode, handle.position + chunk.length⟩,
    store.setContents handle.inode
      (overlay (store.contents handle.inode) handle.position chunk))

@[simp] theorem setContents_entries (store : FileStore Path) (inode : Nat) (bytes : Bytes) :
    (store.setContents inode bytes).entries = store.entries := rfl

@[simp] theorem setContents_self (store : FileStore Path) (inode : Nat) (bytes : Bytes) :
    (store.setContents inode bytes).contents inode = bytes := by
  simp [setContents]

/-- Names that lead elsewhere read as before. -/
theorem read_setContents_ne (store : FileStore Path) {inode : Nat} {path : Path} (bytes : Bytes)
    (apart : store.entries path ≠ some inode) :
    (store.setContents inode bytes).read path = store.read path := by
  unfold read
  cases found : store.entries path with
  | none => simp [found]
  | some other =>
    have differs : other ≠ inode := fun same => apart (by rw [found, same])
    simp [found, setContents, Function.update_of_ne differs]

@[simp] theorem write_entries (store : FileStore Path) (handle : Handle) (chunk : Bytes) :
    (store.write handle chunk).2.entries = store.entries := rfl

@[simp] theorem write_inode (store : FileStore Path) (handle : Handle) (chunk : Bytes) :
    (store.write handle chunk).1.inode = handle.inode := rfl

@[simp] theorem write_position (store : FileStore Path) (handle : Handle) (chunk : Bytes) :
    (store.write handle chunk).1.position = handle.position + chunk.length := rfl

/-- A write shows under the name that leads to the handle's file. -/
theorem read_write (store : FileStore Path) {handle : Handle} {path : Path} {old : Bytes}
    (chunk : Bytes) (leads : store.entries path = some handle.inode)
    (reads : store.read path = some old) :
    (store.write handle chunk).2.read path = some (overlay old handle.position chunk) := by
  simp only [read, leads, Option.map_some, Option.some.injEq] at reads
  unfold read
  rw [write_entries, leads, Option.map_some]
  simp only [write, setContents_self, reads]

/-- A write shows under no other name. -/
theorem read_write_ne (store : FileStore Path) {handle : Handle} {path : Path} (chunk : Bytes)
    (apart : store.entries path ≠ some handle.inode) :
    (store.write handle chunk).2.read path = store.read path :=
  read_setContents_ne store _ apart

variable [DecidableEq Path]

/-- Give a name to a new empty file. -/
def create (store : FileStore Path) (path : Path) : FileStore Path where
  entries := Function.update store.entries path (some store.fresh)
  contents := Function.update store.contents store.fresh []
  fresh := store.fresh + 1
  linked := by
    intro other inode found
    by_cases same : other = path
    · subst same
      simp only [Function.update_self, Option.some.injEq] at found
      omega
    · rw [Function.update_of_ne same] at found
      have := store.linked other inode found
      omega
  single := by
    intro left right inode first second
    by_cases isLeft : left = path <;> by_cases isRight : right = path
    · rw [isLeft, isRight]
    · subst isLeft
      rw [Function.update_of_ne isRight] at second
      have old := store.linked right inode second
      simp only [Function.update_self, Option.some.injEq] at first
      omega
    · subst isRight
      rw [Function.update_of_ne isLeft] at first
      have old := store.linked left inode first
      simp only [Function.update_self, Option.some.injEq] at second
      omega
    · rw [Function.update_of_ne isLeft] at first
      rw [Function.update_of_ne isRight] at second
      exact store.single left right inode first second

/-- Open a name for writing from position zero, creating the file when there is none and
emptying it first when asked to. -/
def openWrite (store : FileStore Path) (path : Path) (truncate : Bool) :
    Handle × FileStore Path :=
  match store.entries path with
  | none => (⟨store.fresh, 0⟩, store.create path)
  | some inode => (⟨inode, 0⟩, if truncate then store.setContents inode [] else store)

/-- Take a name away; its file lives on in the handles open on it. -/
def remove (store : FileStore Path) (path : Path) : FileStore Path where
  entries := Function.update store.entries path none
  contents := store.contents
  fresh := store.fresh
  linked := by
    intro other inode found
    by_cases same : other = path
    · subst same
      simp at found
    · rw [Function.update_of_ne same] at found
      exact store.linked other inode found
  single := by
    intro left right inode first second
    by_cases isLeft : left = path
    · subst isLeft
      simp at first
    · by_cases isRight : right = path
      · subst isRight
        simp at second
      · rw [Function.update_of_ne isLeft] at first
        rw [Function.update_of_ne isRight] at second
        exact store.single left right inode first second

/-- Let `target` lead to a file that has no name, replacing what `target` led to. -/
def link (store : FileStore Path) (target : Path) (inode : Nat) (created : inode < store.fresh)
    (nameless : ∀ path, store.entries path ≠ some inode) : FileStore Path where
  entries := Function.update store.entries target (some inode)
  contents := store.contents
  fresh := store.fresh
  linked := by
    intro other found leads
    by_cases same : other = target
    · subst same
      simp only [Function.update_self, Option.some.injEq] at leads
      omega
    · rw [Function.update_of_ne same] at leads
      exact store.linked other found leads
  single := by
    intro left right found first second
    by_cases isLeft : left = target <;> by_cases isRight : right = target
    · rw [isLeft, isRight]
    · subst isLeft
      rw [Function.update_of_ne isRight] at second
      simp only [Function.update_self, Option.some.injEq] at first
      exact absurd (first ▸ second) (nameless right)
    · subst isRight
      rw [Function.update_of_ne isLeft] at first
      simp only [Function.update_self, Option.some.injEq] at second
      exact absurd (second ▸ first) (nameless left)
    · rw [Function.update_of_ne isLeft] at first
      rw [Function.update_of_ne isRight] at second
      exact store.single left right found first second

/-- After its name is taken away, no name leads to the file. -/
theorem remove_nameless (store : FileStore Path) {path : Path} {inode : Nat}
    (found : store.entries path = some inode) (other : Path) :
    (store.remove path).entries other ≠ some inode := by
  intro leads
  by_cases same : other = path
  · subst same
    simp [remove] at leads
  · simp only [remove, Function.update_of_ne same] at leads
    exact same (store.single other path inode leads found)

/-- Move a file to another name in one step, replacing the file there. -/
def rename (store : FileStore Path) (source target : Path) : Option (FileStore Path) :=
  match found : store.entries source with
  | none => none
  | some inode =>
    some ((store.remove source).link target inode (store.linked source inode found)
      (store.remove_nameless found))

/-! ## What each update leaves readable -/

/-- Opening leads the name to the handle's file. -/
theorem openWrite_entries (store : FileStore Path) (path : Path) (truncate : Bool) :
    (store.openWrite path truncate).2.entries path =
      some (store.openWrite path truncate).1.inode := by
  unfold openWrite
  split
  · simp [create]
  · rename_i inode found
    cases truncate <;> simp [found]

/-- A handle starts at the beginning of its file. -/
@[simp] theorem openWrite_position (store : FileStore Path) (path : Path) (truncate : Bool) :
    (store.openWrite path truncate).1.position = 0 := by
  unfold openWrite
  split <;> rfl

/-- Opening shows an empty file when there was none or it is emptied, else the file there. -/
theorem read_openWrite (store : FileStore Path) (path : Path) (truncate : Bool) :
    (store.openWrite path truncate).2.read path =
      some (if truncate then [] else (store.read path).getD []) := by
  unfold openWrite
  split
  · rename_i absent
    simp [read, create, absent]
  · rename_i inode found
    cases truncate <;> simp [read, found]

/-- Opening one name changes no other. -/
theorem openWrite_entries_ne (store : FileStore Path) {path other : Path} (truncate : Bool)
    (apart : other ≠ path) :
    (store.openWrite path truncate).2.entries other = store.entries other := by
  unfold openWrite
  split
  · simp [create, Function.update_of_ne apart]
  · cases truncate <;> simp

/-- Opening one name shows under no other. -/
theorem read_openWrite_ne (store : FileStore Path) {path other : Path} (truncate : Bool)
    (apart : other ≠ path) :
    (store.openWrite path truncate).2.read other = store.read other := by
  unfold openWrite
  split
  · unfold read
    simp only [create, Function.update_of_ne apart]
    cases found : store.entries other with
    | none => rfl
    | some inode =>
      have old := store.linked other inode found
      simp [Function.update_of_ne (Nat.ne_of_lt old)]
  · rename_i inode found
    cases truncate with
    | false => rfl
    | true =>
      refine read_setContents_ne store _ fun leads => apart ?_
      exact store.single other path inode leads found

@[simp] theorem read_remove_self (store : FileStore Path) (path : Path) :
    (store.remove path).read path = none := by
  simp [read, remove]

/-- Removing one name changes no other. -/
theorem read_remove_ne (store : FileStore Path) {path other : Path} (apart : other ≠ path) :
    (store.remove path).read other = store.read other := by
  simp [read, remove, Function.update_of_ne apart]

/-- Removing one name leads no other elsewhere. -/
theorem remove_entries_ne (store : FileStore Path) {path other : Path} (apart : other ≠ path) :
    (store.remove path).entries other = store.entries other :=
  Function.update_of_ne apart _ _

/-- A rename fails exactly when there is nothing to rename. -/
theorem rename_eq_none (store : FileStore Path) (source target : Path) :
    store.rename source target = none ↔ store.read source = none := by
  unfold rename read
  split
  · rename_i absent
    simp [absent]
  · rename_i inode found
    simp [found]

/-- Everything a rename changes: the target leads to the source's file, the source to nothing,
and no file's contents change. -/
theorem rename_cases {store after : FileStore Path} {source target : Path}
    (renamed : store.rename source target = some after) :
    after.contents = store.contents ∧ after.fresh = store.fresh ∧
      after.entries = Function.update (Function.update store.entries source none) target
        (store.entries source) ∧ (store.entries source).isSome := by
  unfold rename at renamed
  split at renamed
  · cases renamed
  · rename_i inode found
    obtain rfl := Option.some.inj renamed
    exact ⟨rfl, rfl, by simp [link, remove, found], by simp [found]⟩

/-- After a rename the target reads as the source did. -/
theorem read_rename_target {store after : FileStore Path} {source target : Path}
    (renamed : store.rename source target = some after) :
    after.read target = store.read source := by
  obtain ⟨contents, -, entries, -⟩ := rename_cases renamed
  simp [read, contents, entries]

/-- After a rename to another name the source is gone. -/
theorem read_rename_source {store after : FileStore Path} {source target : Path}
    (apart : source ≠ target) (renamed : store.rename source target = some after) :
    after.read source = none := by
  obtain ⟨-, -, entries, -⟩ := rename_cases renamed
  simp [read, entries, Function.update_of_ne apart]

/-- A rename shows under no third name. -/
theorem read_rename_ne {store after : FileStore Path} {source target other : Path}
    (apartSource : other ≠ source) (apartTarget : other ≠ target)
    (renamed : store.rename source target = some after) :
    after.read other = store.read other := by
  obtain ⟨contents, -, entries, -⟩ := rename_cases renamed
  simp [read, contents, entries, Function.update_of_ne apartSource,
    Function.update_of_ne apartTarget]

/-- A rename leads no third name elsewhere. -/
theorem rename_entries_ne {store after : FileStore Path} {source target other : Path}
    (apartSource : other ≠ source) (apartTarget : other ≠ target)
    (renamed : store.rename source target = some after) :
    after.entries other = store.entries other := by
  obtain ⟨-, -, entries, -⟩ := rename_cases renamed
  rw [entries, Function.update_of_ne apartTarget, Function.update_of_ne apartSource]

end FileStore

end Unix
