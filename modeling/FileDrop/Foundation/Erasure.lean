import Mathlib.Data.List.Basic

/-!
# Calls that nobody notices

A component answers calls one after another, each at a time of its own. Some of the calls are
hidden: they may be left out. `Erases` is the two-run simulation for that. It relates the component
that gets every call to the one that gets the visible ones, at a time; a visible call has to be
answered alike on both sides, and a hidden one has to keep the relation on its own side.
-/
namespace Erasure

variable {State Call Answer Time : Type} [LE Time]

/-- The answers to the calls, in order. -/
def answers (answer : State → Call → Answer × State) : State → List Call → List Answer
  | _, [] => []
  | state, call :: calls => (answer state call).1 :: answers answer (answer state call).2 calls

/-- The answers to the visible calls, in order, when every call is made. -/
def observed (answer : State → Call → Answer × State) (visible : Call → Bool) :
    State → List Call → List Answer
  | _, [] => []
  | state, call :: calls =>
    let later := observed answer visible (answer state call).2 calls
    if visible call then (answer state call).1 :: later else later

/-- A simulation of a component that gets every call by one that gets the visible ones. -/
structure Erases (answer : State → Call → Answer × State) (visible : Call → Bool)
    (clock : Call → Time) (related : Time → State → State → Prop) : Prop where
  later : ∀ {now afterwards full erased}, now ≤ afterwards → related now full erased →
    related afterwards full erased
  seen : ∀ {call full erased}, visible call = true → related (clock call) full erased →
    (answer full call).1 = (answer erased call).1 ∧
      related (clock call) (answer full call).2 (answer erased call).2
  unseen : ∀ {call full erased}, visible call = false → related (clock call) full erased →
    related (clock call) (answer full call).2 erased

/-- The visible calls are answered as if the hidden ones had not been made. -/
theorem Erases.observed {answer : State → Call → Answer × State} {visible : Call → Bool}
    {clock : Call → Time} {related : Time → State → State → Prop}
    (erases : Erases answer visible clock related) {calls : List Call} {full erased : State}
    (ordered : calls.Pairwise fun first second => clock first ≤ clock second)
    (start : ∀ call ∈ calls, related (clock call) full erased) :
    observed answer visible full calls = answers answer erased (calls.filter visible) := by
  induction calls generalizing full erased with
  | nil => rfl
  | cons call calls ih =>
    obtain ⟨first, rest⟩ := List.pairwise_cons.mp ordered
    have now : related (clock call) full erased := start call List.mem_cons_self
    unfold Erasure.observed
    cases shown : visible call with
    | true =>
      obtain ⟨same, after⟩ := erases.seen shown now
      have later : Erasure.observed answer visible (answer full call).2 calls =
          answers answer (answer erased call).2 (calls.filter visible) :=
        ih rest fun next member => erases.later (first next member) after
      rw [List.filter_cons_of_pos shown, answers, later, same, if_pos rfl]
    | false =>
      have after : related (clock call) (answer full call).2 erased := erases.unseen shown now
      have later : Erasure.observed answer visible (answer full call).2 calls =
          answers answer erased (calls.filter visible) :=
        ih rest fun next member => erases.later (first next member) after
      rw [List.filter_cons_of_neg (by simp [shown]), later]
      rfl

end Erasure
