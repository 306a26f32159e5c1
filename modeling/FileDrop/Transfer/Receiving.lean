import FileDrop.Foundation.Machine
import FileDrop.Transfer.Server

/-!
# An upload while it runs

One handler at work, and the calls of `pause`, `resume` and `cancel` on its session, in any order. Beside
the handler stands what is observed of it: the session it has made, its open staging file with the
position of the next write, how many items of the body it has asked for, and the chunks it has written.
-/
namespace FileDrop

open Effects Unix

/-! ## Calls on a session -/

/-- What others do with a session while its upload runs. -/
inductive SessionCall where
  | pause
  | resume
  | cancel
  deriving DecidableEq, Repr

/-- Carry out a call on the session with a cell. -/
def SessionCells.call (cells : SessionCells) (cell : Nat) : SessionCall → SessionCells
  | .pause => cells.pause cell
  | .resume => cells.resume cell
  | .cancel => cells.cancel cell

/-- A call counts no byte. -/
theorem SessionCells.call_bytes (cells : SessionCells) (cell other : Nat) (call : SessionCall) :
    ((cells.call cell call).content other).bytesTransferred = (cells.content other).bytesTransferred := by
  by_cases same : other = cell
  · subst same
    cases call <;> simp [SessionCells.call, pause, resume, setPaused, cancel]
  · cases call <;> simp [SessionCells.call, pause, resume, setPaused, cancel, Function.update_of_ne same]

/-- No call takes a cancel back. -/
theorem SessionCells.isCancelled_call {cells : SessionCells} {cell other : Nat} (call : SessionCall)
    (cancelled : cells.isCancelled other) : (cells.call cell call).isCancelled other := by
  by_cases same : other = cell
  · subst same
    cases call with
    | pause | resume => simpa [SessionCells.call, pause, resume, setPaused, isCancelled] using cancelled
    | cancel => simp [SessionCells.call, cancel, isCancelled]
  · have kept : (cells.call cell call).isCancelled other = cells.isCancelled other := by
      cases call <;> simp [SessionCells.call, pause, resume, setPaused, cancel, isCancelled,
        Function.update_of_ne same]
    rwa [kept]

/-- A call of `cancel` sets the flag. -/
theorem SessionCells.isCancelled_cancel (cells : SessionCells) (cell : Nat) :
    (cells.call cell .cancel).isCancelled cell = true := by
  simp [SessionCells.call, cancel, isCancelled]

/-- A call of `resume` ends a pause. -/
theorem SessionCells.isPaused_resume (cells : SessionCells) (cell : Nat) :
    (cells.call cell .resume).isPaused cell = false := by
  simp [SessionCells.call, resume, isPaused_setPaused]

/-- Carry out a call on a session of the server. -/
def ServerWorld.call (world : ServerWorld) (cell : Nat) (call : SessionCall) : ServerWorld :=
  { world with cells := world.cells.call cell call }

/-! ## The machine -/

/-- A handler at work, with what is observed of it. -/
structure Receiving where
  handler : Handler
  world : ServerWorld
  /-- The session that the handler has made. -/
  session : Option TransferSession
  /-- Its staging file, at the position of the next write. -/
  file : Option Handle
  /-- How many items it has asked the body's stream for. -/
  asked : Nat
  /-- The chunks that it has written. -/
  written : List Bytes

/-- The handler performs its next operation, or its session is called. -/
inductive ReceivingMove where
  | work (fault : Fault)
  | call (call : SessionCall)
  deriving DecidableEq

namespace Receiving

/-- What is observed of an operation. -/
def observe (state : Receiving) : (op : ServerOp) → op.Result → Receiving
  | .insertSession .., session => { state with session := some session }
  | .nextChunk, _ => { state with asked := state.asked + 1 }
  | .file (.openWrite ..), .ok file => { state with file := some file }
  | .file (.seek ..), .ok file => { state with file := some file }
  | .file (.write _ chunk), .ok file =>
    { state with file := some file, written := state.written ++ [chunk] }
  | _, _ => state

/-- Observing does not move the handler. -/
@[simp] theorem observe_handler (state : Receiving) (op : ServerOp) (result : op.Result) :
    (state.observe op result).handler = state.handler := by
  unfold observe
  split <;> rfl

/-- It changes nothing in the world. -/
@[simp] theorem observe_world (state : Receiving) (op : ServerOp) (result : op.Result) :
    (state.observe op result).world = state.world := by
  unfold observe
  split <;> rfl

/-- Take a move. A handler that is finished, or waits for its session to be resumed, does not work. -/
def step (state : Receiving) : ReceivingMove → Option Receiving
  | .work fault =>
    match state.handler with
    | .done _ => none
    | .perform op next =>
      (serverExec state.world op fault).map fun (result, world) =>
        { state with handler := next result, world }.observe op result
  | .call call =>
    state.session.map fun session => { state with world := state.world.call session.cell call }

/-- A handler that has done nothing. -/
def start (sha256 : Sha256) (paths : StoragePaths) (request : TransferRequest) (world : ServerWorld) :
    Receiving where
  handler := receiveTransfer sha256 paths request
  world := world
  session := none
  file := none
  asked := 0
  written := []

/-- A handler performs the operation it waits at. -/
theorem step_at {before after : Receiving} {fault : Fault} {op : ServerOp} {next : op.Result → Handler}
    (waits : before.handler = .perform op next) (stepped : before.step (.work fault) = some after) :
    ∃ result world, serverExec before.world op fault = some (result, world) ∧
      after = { before with handler := next result, world }.observe op result := by
  unfold step at stepped
  rw [waits] at stepped
  obtain ⟨⟨result, world⟩, ran, rfl⟩ := Option.map_eq_some_iff.mp stepped
  exact ⟨result, world, ran, rfl⟩

/-- Only a handler that is not finished works. -/
theorem step_work {before after : Receiving} {fault : Fault}
    (stepped : before.step (.work fault) = some after) :
    ∃ op next, before.handler = .perform op next := by
  unfold step at stepped
  cases waits : before.handler with
  | done reply =>
    rw [waits] at stepped
    cases stepped
  | perform op next => exact ⟨op, next, rfl⟩

/-- A session that the handler has made can be called. -/
theorem step_called {state : Receiving} {session : TransferSession} (made : state.session = some session)
    (call : SessionCall) : state.step (.call call) =
      some { state with world := state.world.call session.cell call } := by
  simp only [step, made, Option.map_some]

/-- A call is on the session that the handler has made. -/
theorem step_call {before after : Receiving} {call : SessionCall}
    (stepped : before.step (.call call) = some after) :
    ∃ session, before.session = some session ∧
      after = { before with world := before.world.call session.cell call } := by
  obtain ⟨session, made, rfl⟩ := Option.map_eq_some_iff.mp stepped
  exact ⟨session, made, rfl⟩

end Receiving

/-- No file operation fails. -/
def Unfailing (_ : Receiving) (move : ReceivingMove) : Prop :=
  match move with
  | .work fault => fault = .none
  | .call _ => True

instance : ∀ state move, Decidable (Unfailing state move)
  | _, .work fault => inferInstanceAs (Decidable (fault = .none))
  | _, .call _ => .isTrue trivial

end FileDrop
