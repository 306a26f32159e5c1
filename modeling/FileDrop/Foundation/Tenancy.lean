import Mathlib.Logic.Function.Basic
import FileDrop.Foundation.Machine

/-!
# Machines that share an exclusive resource

Any number of machines make their steps beside each other, and of one resource each of them says when it
has it. Whoever is the first to take it keeps it until a step of his gives it back; meanwhile nobody
else's step can take it. So the holder that is written down is the machine that has the resource, in
every run, and what each machine does is a run of its own.
-/
namespace Machine

/-- The machines, and the one that holds the resource. -/
structure Tenancy (ι State : Type) where
  states : ι → State
  holder : Option ι

namespace Tenancy

variable {ι State Move : Type}

/-- The holder after a step of machine `i`. A step that would take a resource that is held is not
possible. -/
def holderAfter (holds : State → Bool) (holder : Option ι) (i : ι) (before after : State) :
    Option (Option ι) :=
  match holds before, holds after with
  | false, true => if holder.isNone then some (some i) else none
  | true, false => some none
  | false, false | true, true => some holder

/-- The books are right about the machine that moves. -/
theorem holderAfter_self {holds : State → Bool} {holder written : Option ι} {i : ι}
    {before after : State}
    (booked : holder = some i ↔ holds before = true)
    (moved : holderAfter holds holder i before after = some written) :
    written = some i ↔ holds after = true := by
  unfold holderAfter at moved
  split at moved
  · rename_i had has
    split at moved
    · obtain rfl := Option.some.inj moved
      simp only [has]
    · cases moved
  · rename_i had has
    obtain rfl := Option.some.inj moved
    simp only [has, reduceCtorEq, Bool.false_eq_true]
  · rename_i had has
    obtain rfl := Option.some.inj moved
    rw [booked, had, has]
  · rename_i had has
    obtain rfl := Option.some.inj moved
    rw [booked, had, has]

/-- And they say about the others what they said. -/
theorem holderAfter_other {holds : State → Bool} {holder written : Option ι} {i j : ι}
    {before after : State}
    (booked : holder = some i ↔ holds before = true) (apart : j ≠ i)
    (moved : holderAfter holds holder i before after = some written) :
    written = some j ↔ holder = some j := by
  have another : some i ≠ some j := fun same => apart (Option.some.inj same).symm
  unfold holderAfter at moved
  split at moved
  · split at moved
    · rename_i nobody
      obtain rfl := Option.some.inj moved
      rw [Option.isNone_iff_eq_none.mp nobody]
      exact iff_of_false another nofun
    · cases moved
  · rename_i had has
    obtain rfl := Option.some.inj moved
    -- the machine that gives the resource back was the one that had it
    rw [booked.mpr had]
    exact iff_of_false nofun another
  · obtain rfl := Option.some.inj moved
    exact Iff.rfl
  · obtain rfl := Option.some.inj moved
    exact Iff.rfl

variable [DecidableEq ι] (step : ι → State → Move → Option State) (holds : State → Bool)

/-- One machine makes a step. -/
def move (world : Tenancy ι State) (made : ι × Move) : Option (Tenancy ι State) :=
  match step made.1 (world.states made.1) made.2 with
  | none => none
  | some after =>
    (holderAfter holds world.holder made.1 (world.states made.1) after).map fun holder =>
      { states := Function.update world.states made.1 after, holder }

/-- The holder is the machine that has the resource. -/
def Booked (world : Tenancy ι State) : Prop :=
  ∀ i, world.holder = some i ↔ holds (world.states i) = true

variable {step holds} {allowed : Tenancy ι State → ι × Move → Prop} {first before after world : Tenancy ι State}

/-- A step is one of a machine, and the others stay where they are. -/
theorem move_cases {i : ι} {made : Move} (moved : move step holds before (i, made) = some after) :
    step i (before.states i) made = some (after.states i) ∧
      (∀ j, j ≠ i → after.states j = before.states j) ∧
      holderAfter holds before.holder i (before.states i) (after.states i) = some after.holder := by
  unfold move at moved
  split at moved
  · cases moved
  · rename_i next stepped
    obtain ⟨holder, written, rfl⟩ := Option.map_eq_some_iff.mp moved
    simp only [Function.update_self]
    exact ⟨stepped, fun j apart => Function.update_of_ne apart _ _, written⟩

/-- A machine that keeps what it has can make its step. -/
theorem move_keep {i : ι} {made : Move} {next : State}
    (stepped : step i (before.states i) made = some next)
    (had : holds (before.states i) = true) (has : holds next = true) :
    move step holds before (i, made) =
      some ⟨Function.update before.states i next, before.holder⟩ := by
  simp only [move, stepped, holderAfter, had, has, Option.map_some]

/-- So can one that gives it back, and then nobody has it. -/
theorem move_free {i : ι} {made : Move} {next : State}
    (stepped : step i (before.states i) made = some next)
    (had : holds (before.states i) = true) (has : holds next = false) :
    move step holds before (i, made) = some ⟨Function.update before.states i next, none⟩ := by
  simp only [move, stepped, holderAfter, had, has, Option.map_some]

/-- Every step keeps the books. -/
theorem Booked.move {made : ι × Move} (booked : Booked holds before)
    (moved : Tenancy.move step holds before made = some after) : Booked holds after := by
  obtain ⟨-, others, written⟩ := move_cases moved
  have mine := booked made.1
  intro j
  by_cases same : j = made.1
  · rw [same]
    exact holderAfter_self mine written
  · rw [others j same, holderAfter_other mine same written]
    exact booked j

/-- They are kept in every run. -/
theorem Booked.reached (booked : Booked holds first)
    (path : Reaches (Tenancy.move step holds) allowed first world) : Booked holds world :=
  path.invariant booked fun _ _ _ booked _ moved => booked.move moved

/-- What a machine does in a run is a run of its own. -/
theorem reaches_states {own : State → Move → Prop} {i : ι}
    (permits : ∀ world made, allowed world (i, made) → own (world.states i) made)
    (path : Reaches (move step holds) allowed first world) :
    Reaches (step i) own (first.states i) (world.states i) := by
  induction path with
  | refl => exact .refl
  | tail _ last ih =>
    obtain ⟨⟨j, made⟩, permitted, moved⟩ := last
    obtain ⟨stepped, others, -⟩ := move_cases moved
    by_cases same : i = j
    · subst same
      exact ih.tail ⟨made, permits _ made permitted, stepped⟩
    · rw [others i same]
      exact ih

end Tenancy

end Machine
