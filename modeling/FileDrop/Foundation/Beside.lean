import Mathlib.Data.Sum.Basic
import FileDrop.Foundation.Interleaving

/-!
# Systems side by side

Two systems with operations and a world of their own make one: its threads are the threads of both, its
world is the pair of their worlds, and each thread acts on its own half. Nothing one half does shows in
the other, so a run of both is a run of each.
-/
namespace Effects

/-- The operations of two signatures. -/
def Signature.sum (left right : Signature) : Signature where
  Op := left.Op ⊕ right.Op
  Result
    | .inl op => left.Result op
    | .inr op => right.Result op

variable {left right : Signature} {ι κ World World' Choice Choice' α β : Type}

namespace Program

/-- A program of the left system. -/
def inl : Program left α → Program (left.sum right) (α ⊕ β)
  | .done value => .done (.inl value)
  | .perform op next => .perform (.inl op) fun result => (next result).inl

/-- A program of the right system. -/
def inr : Program right β → Program (left.sum right) (α ⊕ β)
  | .done value => .done (.inr value)
  | .perform op next => .perform (.inr op) fun result => (next result).inr

/-- A left program is done when it is done on its own. -/
theorem inl_eq_done {program : Program left α} {value : α} :
    (program.inl : Program (left.sum right) (α ⊕ β)) = .done (.inl value) ↔ program = .done value := by
  cases program with
  | done early =>
    constructor
    · intro same
      rw [Sum.inl.inj (Program.done.inj same)]
    · rintro ⟨⟩
      rfl
  | perform op next =>
    constructor
    · intro same
      cases same
    · intro same
      cases same

end Program

/-- Each thread acts on its own half of the world, by its own half of the choice. -/
def beside (first : ι → Meaning left World Choice) (second : κ → Meaning right World' Choice') :
    ι ⊕ κ → Meaning (left.sum right) (World × World') (Choice × Choice')
  | .inl i, world, .inl op, choice =>
    (first i world.1 op choice.1).map fun (result, after) => (result, (after, world.2))
  | .inr k, world, .inr op, choice =>
    (second k world.2 op choice.2).map fun (result, after) => (result, (world.1, after))
  | _, _, _, _ => none

namespace Pool

/-- The threads of both systems. -/
def beside (first : Pool ι left World α) (second : Pool κ right World' β) :
    Pool (ι ⊕ κ) (left.sum right) (World × World') (α ⊕ β) where
  world := (first.world, second.world)
  threads := Sum.elim (Program.inl ∘ first.threads) (Program.inr ∘ second.threads)

variable [DecidableEq ι] [DecidableEq κ]
variable {exec : ι → Meaning left World Choice} {exec' : κ → Meaning right World' Choice'}

/-- A step of a left thread is a step of the left system. -/
theorem beside_inl (first : Pool ι left World α) (second : Pool κ right World' β) (i : ι)
    (choice : Choice × Choice') :
    (first.beside second).step (Effects.beside exec exec') (.inl i) choice =
      (first.step exec i choice.1).map (·.beside second) := by
  unfold step
  cases waiting : first.threads i with
  | done value =>
    simp only [beside, Sum.elim_inl, Function.comp_apply, waiting, Program.inl, Option.map_none]
  | perform op next =>
    simp only [beside, Sum.elim_inl, Function.comp_apply, waiting, Program.inl, Effects.beside]
    cases exec i first.world op choice.1 with
    | none => rfl
    | some ran => simp only [Option.map_some, Sum.update_elim_inl, Function.comp_update]

/-- A step of a right thread is a step of the right system. -/
theorem beside_inr (first : Pool ι left World α) (second : Pool κ right World' β) (k : κ)
    (choice : Choice × Choice') :
    (first.beside second).step (Effects.beside exec exec') (.inr k) choice =
      (second.step exec' k choice.2).map (first.beside ·) := by
  unfold step
  cases waiting : second.threads k with
  | done value =>
    simp only [beside, Sum.elim_inr, Function.comp_apply, waiting, Program.inr, Option.map_none]
  | perform op next =>
    simp only [beside, Sum.elim_inr, Function.comp_apply, waiting, Program.inr, Effects.beside]
    cases exec' k second.world op choice.2 with
    | none => rfl
    | some ran => simp only [Option.map_some, Sum.update_elim_inr, Function.comp_update]

variable {allowed : Pool (ι ⊕ κ) (left.sum right) (World × World') (α ⊕ β) → ι ⊕ κ →
  Choice × Choice' → Prop}

/-- A run of both is a run of each. -/
theorem reaches_beside {first : Pool ι left World α} {second : Pool κ right World' β}
    {reached : Pool (ι ⊕ κ) (left.sum right) (World × World') (α ⊕ β)}
    (path : Reaches (Effects.beside exec exec') allowed (first.beside second) reached) :
    ∃ first' second', reached = first'.beside second' ∧
      Reaches exec (fun _ _ _ => True) first first' ∧
      Reaches exec' (fun _ _ _ => True) second second' := by
  induction path with
  | refl => exact ⟨first, second, rfl, .refl, .refl⟩
  | tail _ last ih =>
    obtain ⟨first', second', rfl, near, far⟩ := ih
    obtain ⟨thread, choice, -, stepped⟩ := last
    cases thread with
    | inl i =>
      rw [beside_inl] at stepped
      obtain ⟨moved, step, rfl⟩ := Option.map_eq_some_iff.mp stepped
      exact ⟨moved, second', rfl, near.tail ⟨i, choice.1, trivial, step⟩, far⟩
    | inr k =>
      rw [beside_inr] at stepped
      obtain ⟨moved, step, rfl⟩ := Option.map_eq_some_iff.mp stepped
      exact ⟨first', moved, rfl, near, far.tail ⟨k, choice.2, trivial, step⟩⟩

end Pool

end Effects
