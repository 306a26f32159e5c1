import FileDrop.Foundation.FileStore

/-!
# File operations that may fail

The operations a program asks a file system for, with the environment's choice at each one:
the operation succeeds, or it fails with an error after part of its effect. Directories carry
no data here, so creating one changes nothing a file operation can see.
-/
namespace Unix

/-- The error of a failed operation, as the text it is reported with. -/
structure IoError where
  /-- The operating system's message. -/
  text : String
  deriving DecidableEq, Repr

/-- The error of an operation on a name that leads nowhere. -/
def IoError.notFound : IoError := ⟨"No such file or directory (os error 2)"⟩

/-- The error of a seek to a position that is no file offset. -/
def IoError.invalidArgument : IoError := ⟨"Invalid argument (os error 22)"⟩

/-- A file offset is a signed 64-bit number: from `2 ^ 63` on a position is none. -/
def offsetLimit : Nat := 9223372036854775808

/-- What the environment decides about one operation. -/
inductive Fault where
  /-- The operation is carried out. -/
  | none
  /-- A single write puts only this many bytes into the file, at least one; any other operation
  is carried out. -/
  | short (count : Nat)
  /-- The operation fails; a write has put this many of its bytes into the file before. -/
  | error (error : IoError) (written : Nat)
  deriving DecidableEq, Repr

/-- One operation on a file system. -/
inductive FileOp (Path : Type) where
  | createDirAll (path : Path)
  | openWrite (path : Path) (truncate : Bool)
  | seek (handle : Handle) (position : Nat)
  | write (handle : Handle) (chunk : Bytes)
  | writeSome (handle : Handle) (chunk : Bytes)
  | flush (handle : Handle)
  | tryExists (path : Path)
  | read (path : Path)
  | rename (source target : Path)
  | remove (path : Path)

namespace FileOp

variable {Path : Type}

/-- What each operation returns. -/
abbrev Result : FileOp Path → Type
  | .createDirAll _ => Except IoError Unit
  | .openWrite _ _ => Except IoError Handle
  | .seek _ _ => Except IoError Handle
  | .write _ _ => Except IoError Handle
  | .writeSome _ _ => Except IoError (Handle × Nat)
  | .flush _ => Except IoError Unit
  | .tryExists _ => Except IoError Bool
  | .read _ => Except IoError Bytes
  | .rename _ _ => Except IoError Unit
  | .remove _ => Except IoError Unit

/-- Carry out an operation. -/
def carryOut [DecidableEq Path] (store : FileStore Path) :
    (op : FileOp Path) → op.Result × FileStore Path
  | .createDirAll _ => (.ok (), store)
  | .openWrite path truncate =>
    let (handle, after) := store.openWrite path truncate
    (.ok handle, after)
  | .seek handle position =>
    (if position < offsetLimit then .ok ⟨handle.inode, position⟩ else .error .invalidArgument, store)
  | .write handle chunk =>
    let (moved, after) := store.write handle chunk
    (.ok moved, after)
  | .writeSome handle chunk =>
    let (moved, after) := store.write handle chunk
    (.ok (moved, chunk.length), after)
  | .flush _ => (.ok (), store)
  | .tryExists path => (.ok (store.read path).isSome, store)
  | .read path =>
    match store.read path with
    | some bytes => (.ok bytes, store)
    | none => (.error .notFound, store)
  | .rename source target =>
    match store.rename source target with
    | some after => (.ok (), after)
    | none => (.error .notFound, store)
  | .remove path =>
    match store.read path with
    | some _ => (.ok (), store.remove path)
    | none => (.error .notFound, store)

/-- Fail an operation, after the bytes a failing write has already put into its file. -/
def fail (store : FileStore Path) (error : IoError) (written : Nat) :
    (op : FileOp Path) → op.Result × FileStore Path
  | .createDirAll _ => (.error error, store)
  | .openWrite _ _ => (.error error, store)
  | .seek _ _ => (.error error, store)
  | .write handle chunk => (.error error, (store.write handle (chunk.take written)).2)
  | .writeSome _ _ => (.error error, store)
  | .flush _ => (.error error, store)
  | .tryExists _ => (.error error, store)
  | .read _ => (.error error, store)
  | .rename _ _ => (.error error, store)
  | .remove _ => (.error error, store)

/-- Carry out an operation as far as the environment lets it. -/
def exec [DecidableEq Path] (store : FileStore Path) (op : FileOp Path) :
    Fault → op.Result × FileStore Path
  | .none => op.carryOut store
  | .short count =>
    match op with
    | .writeSome handle chunk =>
      carryOut store (.writeSome handle (chunk.take (max 1 count)))
    | other => other.carryOut store
  | .error error written => op.fail store error written

/-- Operations that ask about files, or about directories, and change no file. -/
def harmless : FileOp Path → Bool
  | .createDirAll _ | .seek _ _ | .flush _ | .tryExists _ | .read _ => true
  | .openWrite _ _ | .write _ _ | .writeSome _ _ | .rename _ _ | .remove _ => false

/-- A harmless operation leaves every file as it is, whether it succeeds or fails. -/
theorem exec_harmless [DecidableEq Path] (store : FileStore Path) (op : FileOp Path)
    (quiet : op.harmless) (fault : Fault) : (exec store op fault).2 = store := by
  have carried : (op.carryOut store).2 = store := by
    cases op with
    | read path => cases found : store.read path <;> simp [carryOut, found]
    | createDirAll | seek | flush | tryExists => rfl
    | openWrite | write | writeSome | rename | remove => cases quiet
  cases fault with
  | none => exact carried
  | short count =>
    cases op with
    | writeSome handle chunk => cases quiet
    | createDirAll | seek | flush | tryExists | read => exact carried
    | openWrite | write | rename | remove => cases quiet
  | error error written =>
    cases op with
    | createDirAll | seek | flush | tryExists | read => rfl
    | openWrite | write | writeSome | rename | remove => cases quiet

/-! ## What each operation can do -/

variable [DecidableEq Path] {store after : FileStore Path} {fault : Fault}

/-- An error is a fault. -/
theorem error_ne_none (error : IoError) (written : Nat) : Fault.error error written ≠ .none := by
  intro same
  cases same

/-- A directory is not created only with a fault. -/
theorem exec_createDirAll {path : Path} {error : IoError}
    (ran : exec store (.createDirAll path) fault = (.error error, after)) : fault ≠ .none := by
  cases fault with
  | none | short => cases (Prod.mk.inj ran).1
  | error error written => exact error_ne_none error written

/-- A file is not flushed only with a fault. -/
theorem exec_flush {handle : Handle} {error : IoError}
    (ran : exec store (.flush handle) fault = (.error error, after)) : fault ≠ .none := by
  cases fault with
  | none | short => cases (Prod.mk.inj ran).1
  | error error written => exact error_ne_none error written

/-- Opening fails with a fault and changes nothing, or gives a handle. -/
theorem exec_openWrite {path : Path} {truncate : Bool} {result : Except IoError Handle}
    (ran : exec store (.openWrite path truncate) fault = (result, after)) :
    (∃ error, result = .error error ∧ fault ≠ .none ∧ after = store) ∨
      result = .ok (store.openWrite path truncate).1 ∧ after = (store.openWrite path truncate).2 := by
  cases fault with
  | none | short => exact .inr ⟨(Prod.mk.inj ran).1.symm, (Prod.mk.inj ran).2.symm⟩
  | error error written =>
    have fails := error_ne_none error written
    exact .inl ⟨error, (Prod.mk.inj ran).1.symm, fails, (Prod.mk.inj ran).2.symm⟩

/-- A seek fails with a fault or for a position that is no offset, or moves the handle in its file. -/
theorem exec_seek {handle : Handle} {position : Nat} {result : Except IoError Handle}
    (ran : exec store (.seek handle position) fault = (result, after)) :
    (∃ error, result = .error error ∧
        (fault ≠ .none ∨ offsetLimit ≤ position ∧ error = .invalidArgument)) ∨
      result = .ok ⟨handle.inode, position⟩ ∧ position < offsetLimit := by
  have carried (ran : carryOut store (.seek handle position) = (result, after)) :
      (∃ error, result = .error error ∧
          (fault ≠ .none ∨ offsetLimit ≤ position ∧ error = .invalidArgument)) ∨
        result = .ok ⟨handle.inode, position⟩ ∧ position < offsetLimit := by
    by_cases valid : position < offsetLimit
    · simp only [carryOut, valid, if_true, Prod.mk.injEq] at ran
      exact .inr ⟨ran.1.symm, valid⟩
    · simp only [carryOut, valid, if_false, Prod.mk.injEq] at ran
      exact .inl ⟨.invalidArgument, ran.1.symm, .inr ⟨Nat.le_of_not_lt valid, rfl⟩⟩
  cases fault with
  | none | short => exact carried ran
  | error error written =>
    exact .inl ⟨error, (Prod.mk.inj ran).1.symm, .inl (error_ne_none error written)⟩

/-- Without a fault a seek to an offset moves the handle. -/
theorem carryOut_seek (handle : Handle) {position : Nat} (valid : position < offsetLimit) :
    carryOut store (.seek handle position) = (.ok ⟨handle.inode, position⟩, store) := by
  simp only [carryOut, valid, if_true]

/-- A write fails, or puts the chunk into the file. -/
theorem exec_write {handle : Handle} {chunk : Bytes} {result : Except IoError Handle}
    (ran : exec store (.write handle chunk) fault = (result, after)) :
    (∃ error, result = .error error) ∨
      result = .ok (store.write handle chunk).1 ∧ after = (store.write handle chunk).2 := by
  cases fault with
  | none | short => exact .inr ⟨(Prod.mk.inj ran).1.symm, (Prod.mk.inj ran).2.symm⟩
  | error error written => exact .inl ⟨error, (Prod.mk.inj ran).1.symm⟩

/-- A write that fails has put a part of the chunk into the file. -/
theorem exec_write_part {handle : Handle} {chunk : Bytes} {result : Except IoError Handle}
    (ran : exec store (.write handle chunk) fault = (result, after)) :
    (∃ error part, part <+: chunk ∧ result = .error error ∧ fault ≠ .none ∧
        after = (store.write handle part).2) ∨
      result = .ok (store.write handle chunk).1 ∧ after = (store.write handle chunk).2 := by
  cases fault with
  | none | short => exact .inr ⟨(Prod.mk.inj ran).1.symm, (Prod.mk.inj ran).2.symm⟩
  | error error written =>
    exact .inl ⟨error, chunk.take written, List.take_prefix _ _, (Prod.mk.inj ran).1.symm,
      error_ne_none error written, (Prod.mk.inj ran).2.symm⟩

/-- A remove takes the name away or changes nothing, and without a fault the name is gone. -/
theorem exec_remove {path : Path} {result : Except IoError Unit}
    (ran : exec store (.remove path) fault = (result, after)) :
    (after = store ∨ after = store.remove path) ∧ (fault = .none → after.read path = none) := by
  have carried (ran : carryOut store (.remove path) = (result, after)) :
      (after = store ∨ after = store.remove path) ∧ after.read path = none := by
    cases found : store.read path with
    | none =>
      simp only [carryOut, found, Prod.mk.injEq] at ran
      exact ⟨.inl ran.2.symm, ran.2 ▸ found⟩
    | some bytes =>
      simp only [carryOut, found, Prod.mk.injEq] at ran
      exact ⟨.inr ran.2.symm, ran.2 ▸ store.read_remove_self path⟩
  cases fault with
  | none | short =>
    obtain ⟨moved, gone⟩ := carried ran
    exact ⟨moved, fun _ => gone⟩
  | error error written =>
    exact ⟨.inl (Prod.mk.inj ran).2.symm, fun same => nomatch same⟩

/-- A read fails, or gives what the file holds. -/
theorem exec_read {path : Path} {result : Except IoError Bytes}
    (ran : exec store (.read path) fault = (result, after)) :
    (∃ error, result = .error error) ∨ ∃ bytes, result = .ok bytes ∧ store.read path = some bytes := by
  have carried (ran : carryOut store (.read path) = (result, after)) :
      (∃ error, result = .error error) ∨
        ∃ bytes, result = .ok bytes ∧ store.read path = some bytes := by
    cases found : store.read path with
    | none =>
      simp only [carryOut, found, Prod.mk.injEq] at ran
      exact .inl ⟨.notFound, ran.1.symm⟩
    | some bytes =>
      simp only [carryOut, found, Prod.mk.injEq] at ran
      exact .inr ⟨bytes, ran.1.symm, rfl⟩
  cases fault with
  | none | short => exact carried ran
  | error error written => exact .inl ⟨error, (Prod.mk.inj ran).1.symm⟩

/-- A single write fails and changes nothing, or puts some of the chunk into the file: at least
one byte when there is one. -/
theorem exec_writeSome {handle : Handle} {chunk : Bytes} {result : Except IoError (Handle × Nat)}
    (ran : exec store (.writeSome handle chunk) fault = (result, after)) :
    (∃ error, result = .error error ∧ after = store) ∨
      ∃ count ≤ chunk.length, (chunk ≠ [] → 0 < count) ∧
        result = .ok ((store.write handle (chunk.take count)).1, count) ∧
        after = (store.write handle (chunk.take count)).2 := by
  -- what a write of the first `count` bytes reports
  have reports (count : Nat) : carryOut store (.writeSome handle (chunk.take count)) =
      (.ok ((store.write handle (chunk.take (min count chunk.length))).1, min count chunk.length),
        (store.write handle (chunk.take (min count chunk.length))).2) := by
    rw [← List.take_eq_take_min]
    simp only [carryOut, List.length_take]
  have positive (count : Nat) (some : chunk ≠ []) (least : 0 < count) :
      0 < min count chunk.length := by
    have := List.length_pos_iff.mpr some
    omega
  cases fault with
  | none =>
    have whole := reports chunk.length
    rw [List.take_length] at whole
    refine .inr ⟨min chunk.length chunk.length, by omega, fun some => ?_, ?_⟩
    · exact positive _ some (List.length_pos_iff.mpr some)
    · rw [exec, whole] at ran
      exact ⟨(Prod.mk.inj ran).1.symm, (Prod.mk.inj ran).2.symm⟩
  | short count =>
    refine .inr ⟨min (max 1 count) chunk.length, by omega, fun some => ?_, ?_⟩
    · exact positive _ some (by omega)
    · rw [exec, reports] at ran
      exact ⟨(Prod.mk.inj ran).1.symm, (Prod.mk.inj ran).2.symm⟩
  | error error written =>
    exact .inl ⟨error, (Prod.mk.inj ran).1.symm, (Prod.mk.inj ran).2.symm⟩

/-- A rename fails and changes nothing, or moves the file. -/
theorem exec_rename {source target : Path} {result : Except IoError Unit}
    (ran : exec store (.rename source target) fault = (result, after)) :
    (∃ error, result = .error error ∧ after = store) ∨
      result = .ok () ∧ store.rename source target = some after := by
  have carried (ran : carryOut store (.rename source target) = (result, after)) :
      (∃ error, result = .error error ∧ after = store) ∨
        result = .ok () ∧ store.rename source target = some after := by
    cases found : store.rename source target with
    | none =>
      simp only [carryOut, found, Prod.mk.injEq] at ran
      exact .inl ⟨.notFound, ran.1.symm, ran.2.symm⟩
    | some moved =>
      simp only [carryOut, found, Prod.mk.injEq] at ran
      exact .inr ⟨ran.1.symm, congrArg some ran.2⟩
  cases fault with
  | none | short => exact carried ran
  | error error written =>
    exact .inl ⟨error, (Prod.mk.inj ran).1.symm, (Prod.mk.inj ran).2.symm⟩

end FileOp

end Unix
