import Mathlib.Logic.Relation

/-!
# Machines with labelled moves

A machine has a state and a partial step function: a move that has no step is not possible where the
machine is. A run takes one move after the other, each of them allowed where it is taken. What the start
satisfies and every allowed move keeps holds in every state a run reaches.
-/
namespace Machine

variable {State Move : Type} (step : State → Move → Option State)

/-- One allowed move. -/
def Step (allowed : State → Move → Prop) (before after : State) : Prop :=
  ∃ move, allowed before move ∧ step before move = some after

/-- The states that runs of allowed moves reach. -/
abbrev Reaches (allowed : State → Move → Prop) : State → State → Prop :=
  Relation.ReflTransGen (Step step allowed)

/-- Take moves in order, as long as each is allowed and possible. -/
def run (allowed : State → Move → Prop) [∀ state move, Decidable (allowed state move)] :
    List Move → State → Option State
  | [], state => some state
  | move :: rest, state =>
    if allowed state move then (step state move).bind (run allowed rest) else none

variable {step}

/-- Moves that are taken to the end reach the state they end in. -/
theorem reaches_of_run {allowed : State → Move → Prop} [∀ state move, Decidable (allowed state move)]
    {moves : List Move} {before after : State} (ran : run step allowed moves before = some after) :
    Reaches step allowed before after := by
  induction moves generalizing before with
  | nil =>
    cases ran
    exact .refl
  | cons move rest ih =>
    unfold run at ran
    split at ran
    · rename_i permitted
      obtain ⟨middle, stepped, later⟩ := Option.bind_eq_some_iff.mp ran
      exact .head ⟨move, permitted, stepped⟩ (ih later)
    · cases ran

/-- More allowed moves reach what fewer do. -/
theorem Reaches.mono {allowed wider : State → Move → Prop}
    (widens : ∀ state move, allowed state move → wider state move) {before after : State}
    (path : Reaches step allowed before after) : Reaches step wider before after := by
  induction path with
  | refl => exact .refl
  | tail _ last ih =>
    obtain ⟨move, permitted, stepped⟩ := last
    exact ih.tail ⟨move, widens _ _ permitted, stepped⟩

/-- What holds at the start and is kept by every allowed move holds wherever a run leads. -/
theorem Reaches.invariant {allowed : State → Move → Prop} {holds : State → Prop} {before after : State}
    (start : holds before)
    (kept : ∀ state move next, holds state → allowed state move → step state move = some next →
      holds next)
    (path : Reaches step allowed before after) : holds after := by
  induction path with
  | refl => exact start
  | tail _ last ih =>
    obtain ⟨move, permitted, stepped⟩ := last
    exact kept _ move _ ih permitted stepped

/-- Moves are taken by taking some of them and then the others. -/
theorem run_append {allowed : State → Move → Prop} [∀ state move, Decidable (allowed state move)]
    (first second : List Move) (state : State) :
    run step allowed (first ++ second) state =
      (run step allowed first state).bind (run step allowed second) := by
  induction first generalizing state with
  | nil => rfl
  | cons move rest ih =>
    simp only [List.cons_append, run]
    split
    · rw [Option.bind_assoc]
      exact congrArg _ (funext ih)
    · rfl

/-- What holds of no moves and the start, and is kept by every allowed move, holds of the moves of a run
and of where they lead. -/
theorem invariant_of_run {allowed : State → Move → Prop} [∀ state move, Decidable (allowed state move)]
    {holds : List Move → State → Prop} {moves : List Move} {before after : State}
    (start : holds [] before)
    (kept : ∀ past state move next, holds past state → allowed state move → step state move = some next →
      holds (past ++ [move]) next)
    (ran : run step allowed moves before = some after) : holds moves after := by
  suffices ∀ past state, holds past state → run step allowed moves state = some after →
      holds (past ++ moves) after from this [] before start ran
  clear start ran
  induction moves with
  | nil =>
    intro past state held ran
    cases ran
    rwa [List.append_nil]
  | cons move rest ih =>
    intro past state held ran
    unfold run at ran
    split at ran
    · rename_i permitted
      obtain ⟨middle, stepped, later⟩ := Option.bind_eq_some_iff.mp ran
      rw [List.append_cons]
      exact ih (past ++ [move]) middle (kept past state move middle held permitted stepped) later
    · cases ran

end Machine
