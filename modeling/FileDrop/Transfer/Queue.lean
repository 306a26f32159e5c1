import FileDrop.Foundation.Program
import FileDrop.Transfer.Session

/-!
# The transfer queue

A first-in first-out queue of entries, a list of the active ones with their sessions, and a
semaphore. Each lock and the semaphore is one await point, so between the permit, the pop and the
push to the active list other tasks may run. A permit goes back when its holder drops it.
-/
namespace FileDrop

open Effects

/-- `progress::TransferStatus`. -/
inductive TransferStatus where
  | queued
  | connecting
  | inProgress
  | paused
  | completed
  | failed
  | cancelled
  deriving DecidableEq, Repr

/-- `queue::QueuedTransfer`. -/
structure QueuedTransfer where
  id : Uuid
  filePath : String
  fileName : String
  totalBytes : UInt64
  peerDeviceId : Uuid
  direction : TransferDirection
  status : TransferStatus
  deriving DecidableEq, Repr

/-- `queue::MAX_PARALLEL_TRANSFERS`. -/
def maxParallelTransfers : Nat := 3

/-- `queue::TransferQueue`. -/
structure TransferQueue where
  pending : List QueuedTransfer
  active : List (QueuedTransfer × TransferSession)
  permits : Nat

/-- `TransferQueue::new`. -/
def TransferQueue.new : TransferQueue := ⟨[], [], maxParallelTransfers⟩

/-- `TransferQueue::find_session`. -/
def TransferQueue.findSession (queue : TransferQueue) (id : Uuid) : Option TransferSession :=
  (queue.active.find? (·.1.id = id)).map (·.2)

/-- The operations on a queue. -/
inductive QueueOp where
  /-- `pending.write().await.push_back`. -/
  | enqueue (transfer : QueuedTransfer)
  /-- `permits.acquire_owned().await`. -/
  | acquirePermit
  /-- `pending.write().await.pop_front`. -/
  | popPending
  /-- Make the session of an entry and push both onto the active list, under its lock. -/
  | activate (queued : QueuedTransfer)
  /-- `active.write().await.retain`. -/
  | markFinished (id : Uuid)
  /-- Drop a permit. -/
  | releasePermit

/-- What each operation returns. -/
abbrev QueueOp.Result : QueueOp → Type
  | .enqueue _ => Unit
  | .acquirePermit => Unit
  | .popPending => Option QueuedTransfer
  | .activate _ => TransferSession
  | .markFinished _ => Unit
  | .releasePermit => Unit

/-- Carry out one operation, on the queue and the cells of its sessions. Only the semaphore blocks. -/
def QueueOp.exec (queue : TransferQueue) (cells : SessionCells) :
    (op : QueueOp) → Option (op.Result × TransferQueue × SessionCells)
  | .enqueue transfer => some ((), { queue with pending := queue.pending ++ [transfer] }, cells)
  | .acquirePermit =>
    if queue.permits = 0 then none
    else some ((), { queue with permits := queue.permits - 1 }, cells)
  | .popPending =>
    some (queue.pending.head?, { queue with pending := queue.pending.tail }, cells)
  | .activate queued =>
    let (cell, after) := cells.allocate 0
    let session : TransferSession :=
      ⟨queued.id, queued.fileName, queued.totalBytes, queued.direction, cell⟩
    some (session, { queue with active := queue.active ++ [(queued, session)] }, after)
  | .markFinished id =>
    some ((), { queue with active := queue.active.filter (·.1.id ≠ id) }, cells)
  | .releasePermit => some ((), { queue with permits := queue.permits + 1 }, cells)

/-- A permit is only taken when there is one. -/
theorem QueueOp.exec_acquirePermit {queue after : TransferQueue} {cells kept : SessionCells}
    {result : Unit} (ran : QueueOp.exec queue cells .acquirePermit = some (result, after, kept)) :
    queue.permits ≠ 0 ∧ after = { queue with permits := queue.permits - 1 } ∧ kept = cells := by
  by_cases free : queue.permits = 0
  · simp [QueueOp.exec, free] at ran
  · simp only [QueueOp.exec, free, if_false, Option.some.injEq, Prod.mk.injEq] at ran
    obtain ⟨-, rfl, rfl⟩ := ran
    exact ⟨free, rfl, rfl⟩

namespace TransferQueue

variable {sig : Signature} (lift : (op : QueueOp) → Program sig op.Result)

/-- `TransferQueue::enqueue`. -/
def enqueue (transfer : QueuedTransfer) : Program sig Unit := lift (.enqueue transfer)

/-- `TransferQueue::next`: the permit stays with the caller unless there is nothing to return. -/
def next : Program sig (Option (QueuedTransfer × TransferSession)) :=
  (lift .acquirePermit).bind fun _ =>
  (lift .popPending).bind fun
    | none => (lift .releasePermit).bind fun _ => .done none
    | some queued =>
      let connecting := { queued with status := .connecting }
      (lift (.activate connecting)).bind fun session => .done (some (connecting, session))

/-- `TransferQueue::mark_finished`. -/
def markFinished (id : Uuid) : Program sig Unit := lift (.markFinished id)

end TransferQueue

end FileDrop
