import FileDrop.Core.Text
import FileDrop.Core.Uuid

/-!
# Transfer sessions

A session handle is cheap to clone: its counter and its flags are shared cells. Handles name their
cell here, and a table holds what is in each, so two handles of one session see the same counter.
-/
namespace FileDrop

/-- `session::TransferDirection`. -/
inductive TransferDirection where
  | send
  | receive
  deriving DecidableEq, Repr

/-- The shared part of a session: `bytes_transferred`, `paused` and `cancelled`. -/
structure SessionCell where
  bytesTransferred : UInt64
  paused : Bool
  cancelled : Bool
  deriving DecidableEq, Repr

/-- `session::TransferSession`. -/
structure TransferSession where
  id : Uuid
  fileName : String
  totalBytes : UInt64
  direction : TransferDirection
  /-- Which cell the counter and the flags are in. -/
  cell : Nat
  deriving DecidableEq, Repr

/-- The cells of all sessions. -/
structure SessionCells where
  /-- What each cell holds. -/
  content : Nat → SessionCell
  /-- The next cell to be allocated. -/
  fresh : Nat

namespace SessionCells

/-- No session has been made. -/
def none : SessionCells := ⟨fun _ => ⟨0, false, false⟩, 0⟩

/-- `TransferSession::new(..).with_initial_bytes(initial)`: a fresh cell. -/
def allocate (cells : SessionCells) (initial : UInt64) : Nat × SessionCells :=
  (cells.fresh, ⟨Function.update cells.content cells.fresh ⟨initial, false, false⟩, cells.fresh + 1⟩)

/-- `add_bytes`. -/
def addBytes (cells : SessionCells) (cell : Nat) (n : UInt64) : SessionCells :=
  let old := cells.content cell
  { cells with
    content := Function.update cells.content cell
      { old with bytesTransferred := old.bytesTransferred + n } }

/-- `is_paused`. -/
def isPaused (cells : SessionCells) (cell : Nat) : Bool := (cells.content cell).paused

/-- `is_cancelled`. -/
def isCancelled (cells : SessionCells) (cell : Nat) : Bool := (cells.content cell).cancelled

/-- Store a session's `paused` flag. -/
def setPaused (cells : SessionCells) (cell : Nat) (paused : Bool) : SessionCells :=
  { cells with content := Function.update cells.content cell { cells.content cell with paused } }

/-- `pause`. -/
def pause (cells : SessionCells) (cell : Nat) : SessionCells := cells.setPaused cell true

/-- `resume`. -/
def resume (cells : SessionCells) (cell : Nat) : SessionCells := cells.setPaused cell false

/-- `cancel`. -/
def cancel (cells : SessionCells) (cell : Nat) : SessionCells :=
  { cells with
    content := Function.update cells.content cell { cells.content cell with cancelled := true } }

/-- A new session is neither paused nor cancelled. -/
theorem allocate_calm (cells : SessionCells) (initial : UInt64) :
    (cells.allocate initial).2.isPaused (cells.allocate initial).1 = false ∧
      (cells.allocate initial).2.isCancelled (cells.allocate initial).1 = false := by
  simp [allocate, isPaused, isCancelled]

/-- A stored `paused` flag is that of its session. -/
theorem isPaused_setPaused (cells : SessionCells) (cell other : Nat) (paused : Bool) :
    (cells.setPaused cell paused).isPaused other =
      if other = cell then paused else cells.isPaused other := by
  by_cases same : other = cell
  · subst same
    simp [setPaused, isPaused]
  · simp [setPaused, isPaused, same]

/-- A cancel pauses nothing. -/
theorem isPaused_cancel (cells : SessionCells) (cell other : Nat) :
    (cells.cancel cell).isPaused other = cells.isPaused other := by
  by_cases same : other = cell
  · subst same
    simp [cancel, isPaused]
  · simp [cancel, isPaused, Function.update_of_ne same]

/-- Counting bytes touches no flag. -/
@[simp] theorem isPaused_addBytes (cells : SessionCells) (cell other : Nat) (n : UInt64) :
    (cells.addBytes cell n).isPaused other = cells.isPaused other := by
  by_cases same : other = cell
  · subst same
    simp [addBytes, isPaused]
  · simp [addBytes, isPaused, Function.update_of_ne same]

@[simp] theorem isCancelled_addBytes (cells : SessionCells) (cell other : Nat) (n : UInt64) :
    (cells.addBytes cell n).isCancelled other = cells.isCancelled other := by
  by_cases same : other = cell
  · subst same
    simp [addBytes, isCancelled]
  · simp [addBytes, isCancelled, Function.update_of_ne same]

/-- Every cell there was is still there, with its flags as they were. -/
structure Kept (before after : SessionCells) : Prop where
  fresh : before.fresh ≤ after.fresh
  paused : ∀ cell < before.fresh, after.isPaused cell = before.isPaused cell
  cancelled : ∀ cell < before.fresh, after.isCancelled cell = before.isCancelled cell

theorem Kept.refl (cells : SessionCells) : Kept cells cells :=
  ⟨Nat.le_refl _, fun _ _ => rfl, fun _ _ => rfl⟩

theorem Kept.trans {first second third : SessionCells} (near : Kept first second)
    (far : Kept second third) : Kept first third where
  fresh := Nat.le_trans near.fresh far.fresh
  paused cell made :=
    (far.paused cell (Nat.lt_of_lt_of_le made near.fresh)).trans (near.paused cell made)
  cancelled cell made :=
    (far.cancelled cell (Nat.lt_of_lt_of_le made near.fresh)).trans (near.cancelled cell made)

/-- A new session leaves the others' cells alone. -/
theorem kept_allocate (cells : SessionCells) (initial : UInt64) :
    Kept cells (cells.allocate initial).2 := by
  have apart {cell : Nat} (made : cell < cells.fresh) : cell ≠ cells.fresh := Nat.ne_of_lt made
  refine ⟨Nat.le_succ _, fun cell made => ?_, fun cell made => ?_⟩
  · simp [allocate, isPaused, Function.update_of_ne (apart made)]
  · simp [allocate, isCancelled, Function.update_of_ne (apart made)]

/-- Counting bytes keeps every flag. -/
theorem kept_addBytes (cells : SessionCells) (cell : Nat) (n : UInt64) :
    Kept cells (cells.addBytes cell n) :=
  ⟨Nat.le_refl _, fun _ _ => isPaused_addBytes .., fun _ _ => isCancelled_addBytes ..⟩

end SessionCells

end FileDrop
