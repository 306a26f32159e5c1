import Mathlib.Logic.Relation
import FileDrop.Foundation.Program

/-!
# Threads over a shared world

A pool holds one program per thread. A step picks a thread and lets it perform the operation
it waits at; nothing else is atomic. Reachability is the closure of the steps a schedule is
allowed to take, so a fact about every schedule is a fact about every reachable pool.

`Safe` is the thread-modular argument: a thread that tolerates its `rely` between its own
operations keeps its `guarantee` at each of them. `Pool.reachable_safe` composes the threads:
each step's guarantee has to imply the rely of the others.
-/
namespace Effects

variable {sig : Signature} {ι World Choice α : Type}

/-- Threads, each with the rest of its program, over one world. -/
structure Pool (ι : Type) (sig : Signature) (World α : Type) where
  /-- What the threads share. -/
  world : World
  /-- The rest of each thread's program. -/
  threads : ι → Program sig α

namespace Pool

variable [DecidableEq ι] (exec : ι → Meaning sig World Choice)

/-- Thread `i` performs the operation it waits at. A finished or blocked thread has no step. -/
def step (pool : Pool ι sig World α) (i : ι) (choice : Choice) : Option (Pool ι sig World α) :=
  match pool.threads i with
  | .done _ => none
  | .perform op next =>
    match exec i pool.world op choice with
    | none => none
    | some (result, after) =>
      some { world := after, threads := Function.update pool.threads i (next result) }

/-- Follow a schedule from its first step on, as long as every step is allowed. -/
def run (allowed : Pool ι sig World α → ι → Choice → Prop)
    [∀ pool i choice, Decidable (allowed pool i choice)] :
    List (ι × Choice) → Pool ι sig World α → Option (Pool ι sig World α)
  | [], pool => some pool
  | (i, choice) :: schedule, pool =>
    if allowed pool i choice then (pool.step exec i choice).bind (run allowed schedule) else none

/-- One step that a schedule is allowed to take. -/
def Step (allowed : Pool ι sig World α → ι → Choice → Prop)
    (before after : Pool ι sig World α) : Prop :=
  ∃ i choice, allowed before i choice ∧ before.step exec i choice = some after

/-- The pools that the allowed schedules reach. -/
abbrev Reaches (allowed : Pool ι sig World α → ι → Choice → Prop) :
    Pool ι sig World α → Pool ι sig World α → Prop :=
  Relation.ReflTransGen (Step exec allowed)

variable {exec}

/-- Everything one step does: a thread leaves the operation it waited at with a result of that
operation, and the other threads stay where they are. -/
theorem step_cases {before after : Pool ι sig World α} {i : ι} {choice : Choice}
    (stepped : before.step exec i choice = some after) :
    ∃ op next result world, before.threads i = .perform op next ∧
      exec i before.world op choice = some (result, world) ∧
      after = ⟨world, Function.update before.threads i (next result)⟩ := by
  unfold step at stepped
  split at stepped
  · cases stepped
  · rename_i op next waiting
    split at stepped
    · cases stepped
    · rename_i result world ran
      cases stepped
      exact ⟨op, next, result, world, waiting, ran, rfl⟩

/-- The first step of a schedule that runs to its end. -/
theorem run_cons {allowed : Pool ι sig World α → ι → Choice → Prop}
    [∀ pool i choice, Decidable (allowed pool i choice)] {entry : ι × Choice}
    {schedule : List (ι × Choice)} {before after : Pool ι sig World α}
    (ran : run exec allowed (entry :: schedule) before = some after) :
    ∃ middle, allowed before entry.1 entry.2 ∧ before.step exec entry.1 entry.2 = some middle ∧
      run exec allowed schedule middle = some after := by
  unfold run at ran
  split at ran
  · rename_i permitted
    obtain ⟨middle, stepped, rest⟩ := Option.bind_eq_some_iff.mp ran
    exact ⟨middle, permitted, stepped, rest⟩
  · cases ran

/-- A schedule that runs to its end reaches the pool it ends in. -/
theorem reaches_of_run {allowed : Pool ι sig World α → ι → Choice → Prop}
    [∀ pool i choice, Decidable (allowed pool i choice)] {schedule : List (ι × Choice)}
    {before after : Pool ι sig World α} (ran : run exec allowed schedule before = some after) :
    Reaches exec allowed before after := by
  induction schedule generalizing before with
  | nil =>
    cases ran
    exact .refl
  | cons entry schedule ih =>
    obtain ⟨middle, permitted, stepped, rest⟩ := run_cons ran
    exact .head ⟨entry.1, entry.2, permitted, stepped⟩ (ih rest)

/-- A wider schedule reaches what a narrower one reaches. -/
theorem reaches_mono {allowed wider : Pool ι sig World α → ι → Choice → Prop}
    (widens : ∀ pool i choice, allowed pool i choice → wider pool i choice)
    {before after : Pool ι sig World α} (path : Reaches exec allowed before after) :
    Reaches exec wider before after := by
  induction path with
  | refl => exact .refl
  | tail _ last ih =>
    obtain ⟨i, choice, permitted, stepped⟩ := last
    exact ih.tail ⟨i, choice, widens _ _ _ permitted, stepped⟩

/-- A thread that a schedule does not pick stays where it is. -/
theorem run_apart {allowed : Pool ι sig World α → ι → Choice → Prop}
    [∀ pool i choice, Decidable (allowed pool i choice)] {schedule : List (ι × Choice)}
    {before after : Pool ι sig World α} (ran : run exec allowed schedule before = some after) {i : ι}
    (apart : i ∉ schedule.map (·.1)) : after.threads i = before.threads i := by
  induction schedule generalizing before with
  | nil =>
    cases ran
    rfl
  | cons entry schedule ih =>
    have other : i ≠ entry.1 := List.ne_of_not_mem_cons apart
    have later : i ∉ schedule.map (·.1) := List.not_mem_of_not_mem_cons apart
    obtain ⟨middle, -, stepped, rest⟩ := run_cons ran
    obtain ⟨op, next, result, world, -, -, rfl⟩ := step_cases stepped
    rw [ih rest later]
    exact Function.update_of_ne other _ _

/-- What the operations of a thread keep of what is left of it, every step keeps. -/
theorem step_keeps {holds : Program sig α → Prop}
    (kept : ∀ op next result, holds (.perform op next) → holds (next result))
    {before after : Pool ι sig World α} {i : ι} {choice : Choice}
    (stepped : before.step exec i choice = some after) {j : ι} (now : holds (before.threads j)) :
    holds (after.threads j) := by
  obtain ⟨op, next, result, world, waiting, -, rfl⟩ := step_cases stepped
  by_cases same : j = i
  · subst same
    rw [waiting] at now
    simpa only [Function.update_self] using kept op next result now
  · simpa only [Function.update_of_ne same] using now

/-- And every run. -/
theorem reaches_keeps {allowed : Pool ι sig World α → ι → Choice → Prop}
    {holds : Program sig α → Prop}
    (kept : ∀ op next result, holds (.perform op next) → holds (next result))
    {before after : Pool ι sig World α} (path : Reaches exec allowed before after) {j : ι}
    (now : holds (before.threads j)) : holds (after.threads j) := by
  induction path with
  | refl => exact now
  | tail _ last ih =>
    obtain ⟨i, choice, -, stepped⟩ := last
    exact step_keeps kept stepped ih

/-- A thread that runs to its end alone does so inside a pool, while the others wait. -/
theorem reaches_solo {allowed : Pool ι sig World α → ι → Choice → Prop} {i : ι}
    (permitted : ∀ pool choice, allowed pool i choice) {program : Program sig α}
    {choices : Nat → Choice} {pool : Pool ι sig World α} {value : α} {after : World}
    (waiting : pool.threads i = program)
    (ran : program.solo (exec i) choices pool.world = some (value, after)) :
    Reaches exec allowed pool ⟨after, Function.update pool.threads i (.done value)⟩ := by
  induction program generalizing pool choices with
  | done early =>
    obtain ⟨rfl, rfl⟩ := Program.solo_done ran
    rw [← waiting, Function.update_eq_self]
  | perform op next ih =>
    obtain ⟨result, middle, performed, rest⟩ := Program.solo_perform ran
    let moved : Pool ι sig World α := ⟨middle, Function.update pool.threads i (next result)⟩
    have stepped : pool.step exec i (choices 0) = some moved := by
      unfold step
      rw [waiting]
      simp only [performed, moved]
    have ends : Reaches exec allowed moved ⟨after, Function.update moved.threads i (.done value)⟩ :=
      ih result (Function.update_self ..) rest
    simp only [moved, Function.update_idem] at ends
    exact .head ⟨i, choices 0, permitted _ _, stepped⟩ ends

end Pool

/-! ## Rely and guarantee -/

section RelyGuarantee

variable (exec : Meaning sig World Choice)
variable (rely : Program sig α → World → World → Prop)
variable (guarantee : Program sig α → World → Program sig α → World → Prop)

/-- Whatever the others do within `rely` before each operation, the thread keeps its
`guarantee` at that operation and is safe afterwards. -/
def Safe : Program sig α → World → Prop
  | .done _, _ => True
  | .perform op next, world =>
    ∀ seen, rely (.perform op next) world seen →
      ∀ choice result after, exec seen op choice = some (result, after) →
        guarantee (.perform op next) seen (next result) after ∧ Safe (next result) after

variable {exec rely guarantee}

/-- An assertion that the others keep, and from which the operation is safe, is a proof of
safety at that operation. -/
theorem Safe.of_assertion {assertion : World → Prop} {op : sig.Op}
    {next : sig.Result op → Program sig α}
    (stable : ∀ world seen, assertion world → rely (.perform op next) world seen →
      assertion seen)
    (sound : ∀ world choice result after, assertion world →
      exec world op choice = some (result, after) →
        guarantee (.perform op next) world (next result) after ∧
          Safe exec rely guarantee (next result) after)
    {world : World} (holds : assertion world) :
    Safe exec rely guarantee (.perform op next) world :=
  fun seen moved choice result after ran =>
    sound seen choice result after (stable world seen holds moved) ran

/-- Safety is kept by what the others do. -/
theorem Safe.after_rely
    (compose : ∀ program first second third, rely program first second →
      rely program second third → rely program first third)
    {program : Program sig α} {world seen : World} (safe : Safe exec rely guarantee program world)
    (moved : rely program world seen) : Safe exec rely guarantee program seen := by
  cases program with
  | done value => trivial
  | perform op next => exact fun later further => safe later (compose _ _ _ _ moved further)

/-- A thread that tolerates more, or guarantees more, is safe. -/
theorem Safe.mono {narrow : Program sig α → World → World → Prop}
    {wider : Program sig α → World → Program sig α → World → Prop}
    (narrows : ∀ program before after, narrow program before after → rely program before after)
    (widens : ∀ program before rest after, guarantee program before rest after →
      wider program before rest after)
    {program : Program sig α} {world : World} (safe : Safe exec rely guarantee program world) :
    Safe exec narrow wider program world := by
  induction program generalizing world with
  | done value => trivial
  | perform op next ih =>
    intro seen moved choice result after ran
    obtain ⟨kept, later⟩ := safe seen (narrows _ _ _ moved) choice result after ran
    exact ⟨widens _ _ _ _ kept, ih result later⟩

/-- A safe program keeps its guarantee with nothing beside it: what every guaranteed last step
establishes holds of the result of a solo run. -/
theorem Safe.solo {post : α → World → Prop}
    (settled : ∀ program world, rely program world world)
    (ends : ∀ program before value after, guarantee program before (.done value) after →
      post value after)
    {program : Program sig α} {world after : World} {choices : Nat → Choice} {value : α}
    (started : ∀ early, program = .done early → post early world)
    (safe : Safe exec rely guarantee program world)
    (ran : program.solo exec choices world = some (value, after)) : post value after := by
  induction program generalizing world choices with
  | done early =>
    obtain ⟨rfl, rfl⟩ := Prod.mk.inj (Option.some.inj ran)
    exact started early rfl
  | perform op next ih =>
    obtain ⟨⟨result, middle⟩, stepped, rest⟩ := Option.bind_eq_some_iff.mp ran
    obtain ⟨kept, later⟩ := safe world (settled _ _) _ result middle stepped
    refine ih result ?_ later rest
    intro early last
    exact ends _ world early middle (last ▸ kept)

/-- A safe program whose guarantee keeps it from being blocked runs to its end alone. -/
theorem Safe.runs {enabled : Program sig α → World → Prop}
    (settled : ∀ program world, rely program world world)
    (moves : ∀ op next world, enabled (.perform op next) world → ∀ choice, ∃ result after,
      exec world op choice = some (result, after))
    (keeps : ∀ program before rest after, guarantee program before rest after →
      enabled rest after)
    {program : Program sig α} {world : World} (started : enabled program world)
    (safe : Safe exec rely guarantee program world) (choices : Nat → Choice) :
    ∃ value after, program.solo exec choices world = some (value, after) := by
  induction program generalizing world choices with
  | done value => exact ⟨value, world, rfl⟩
  | perform op next ih =>
    obtain ⟨result, middle, performed⟩ := moves op next world started (choices 0)
    obtain ⟨kept, later⟩ := safe world (settled _ _) _ result middle performed
    obtain ⟨value, after, ends⟩ :=
      ih result (keeps _ _ _ _ kept) later fun later => choices (later + 1)
    refine ⟨value, after, ?_⟩
    simp only [Program.solo, performed, Option.bind_some, ends]

end RelyGuarantee

namespace Pool

variable [DecidableEq ι] {exec : ι → Meaning sig World Choice}
variable {rely : ι → Program sig α → World → World → Prop}
variable {guarantee : ι → Program sig α → World → Program sig α → World → Prop}
variable {allowed : Pool ι sig World α → ι → Choice → Prop}

/-- A step of a safe thread keeps that thread's guarantee and its safety. -/
theorem step_guarantee {before after : Pool ι sig World α} {i : ι} {choice : Choice}
    (settled : rely i (before.threads i) before.world before.world)
    (safe : Safe (exec i) (rely i) (guarantee i) (before.threads i) before.world)
    (stepped : before.step exec i choice = some after) :
    guarantee i (before.threads i) before.world (after.threads i) after.world ∧
      Safe (exec i) (rely i) (guarantee i) (after.threads i) after.world := by
  obtain ⟨op, next, result, world, waiting, ran, rfl⟩ := step_cases stepped
  rw [waiting] at safe settled ⊢
  simp only [Function.update_self]
  exact safe before.world settled choice result world ran

/-- Parallel composition. When each allowed step that keeps its thread's guarantee keeps the
pool invariant and stays within the rely of the other threads, the invariant and the safety of
every thread hold of every reachable pool. -/
theorem reachable_safe {inv : Pool ι sig World α → Prop}
    (settled : ∀ pool i, inv pool → rely i (pool.threads i) pool.world pool.world)
    (compose : ∀ i program first second third, rely i program first second →
      rely i program second third → rely i program first third)
    (compatible : ∀ before after i choice, inv before → allowed before i choice →
      before.step exec i choice = some after →
      guarantee i (before.threads i) before.world (after.threads i) after.world →
      inv after ∧ ∀ j, j ≠ i → rely j (before.threads j) before.world after.world)
    {start : Pool ι sig World α} (invStart : inv start)
    (safeStart : ∀ i, Safe (exec i) (rely i) (guarantee i) (start.threads i) start.world)
    {reached : Pool ι sig World α} (path : Reaches exec allowed start reached) :
    inv reached ∧
      ∀ i, Safe (exec i) (rely i) (guarantee i) (reached.threads i) reached.world := by
  induction path with
  | refl => exact ⟨invStart, safeStart⟩
  | tail _ last ih =>
    obtain ⟨i, choice, permitted, stepped⟩ := last
    obtain ⟨holds, safe⟩ := ih
    obtain ⟨kept, safeAfter⟩ := step_guarantee (settled _ i holds) (safe i) stepped
    obtain ⟨holdsAfter, others⟩ := compatible _ _ i choice holds permitted stepped kept
    refine ⟨holdsAfter, fun j => ?_⟩
    by_cases same : j = i
    · subst same
      exact safeAfter
    · have unmoved := (safe j).after_rely (compose j) (others j same)
      obtain ⟨op, next, result, world, -, -, rfl⟩ := step_cases stepped
      simpa only [Function.update_of_ne same] using unmoved

end Pool

end Effects
