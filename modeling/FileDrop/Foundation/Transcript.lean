import FileDrop.Foundation.Interleaving

/-!
# What a thread has been answered

The transcript of a thread is the operations it has performed, each with its result, in order. A program
is a tree, so its transcript tells what is left of it, and what a part of it that has ended returned.
-/
namespace Effects

/-- Operations that were performed, each with its result, in order. -/
abbrev Transcript (sig : Signature) : Type := List (Σ op : sig.Op, sig.Result op)

namespace Program

variable {sig : Signature} {α β : Type}

/-- Answered so, a program leaves another one. -/
inductive Leaves : Program sig α → Transcript sig → Program sig α → Prop where
  | nothing (program : Program sig α) : Leaves program [] program
  | answer {op : sig.Op} {next : sig.Result op → Program sig α} {result : sig.Result op}
      {later : Transcript sig} {left : Program sig α} (rest : Leaves (next result) later left) :
      Leaves (.perform op next) (⟨op, result⟩ :: later) left

/-- Answered so, a program returns a value. -/
def Returns (program : Program sig α) (answered : Transcript sig) (value : α) : Prop :=
  program.Leaves answered (.done value)

/-- One more answer. -/
theorem Leaves.step {program : Program sig α} {answered : Transcript sig} {op : sig.Op}
    {next : sig.Result op → Program sig α} (leaves : program.Leaves answered (.perform op next))
    (result : sig.Result op) : program.Leaves (answered ++ [⟨op, result⟩]) (next result) := by
  generalize waiting : Program.perform op next = left at leaves
  induction leaves with
  | nothing =>
    subst waiting
    exact .answer (.nothing _)
  | answer _ ih => exact .answer (ih waiting)

/-- A program that waits at an operation has been answered nothing, or that operation first. -/
theorem Leaves.perform {op : sig.Op} {next : sig.Result op → Program sig α}
    {answered : Transcript sig} {left : Program sig α}
    (leaves : (Program.perform op next).Leaves answered left) :
    answered = [] ∧ left = .perform op next ∨
      ∃ result later, answered = ⟨op, result⟩ :: later ∧ (next result).Leaves later left := by
  cases leaves with
  | nothing => exact .inl ⟨rfl, rfl⟩
  | answer rest => exact .inr ⟨_, _, rfl, rest⟩

/-- A program that returns has been answered the operation it waits at. -/
theorem Returns.perform {op : sig.Op} {next : sig.Result op → Program sig α}
    {answered : Transcript sig} {value : α} (returns : (Program.perform op next).Returns answered value) :
    ∃ result later, answered = ⟨op, result⟩ :: later ∧ (next result).Returns later value := by
  rcases Leaves.perform returns with ⟨-, waits⟩ | answer
  · cases waits
  · exact answer

/-- A program that is finished is answered nothing more. -/
theorem Returns.done {early value : α} {answered : Transcript sig}
    (returns : (Program.done early : Program sig α).Returns answered value) :
    answered = [] ∧ value = early := by
  cases returns
  exact ⟨rfl, rfl⟩

/-- When the first part has returned, what is left is left of what follows it. -/
theorem Returns.onward {program : Program sig α} {answered later : Transcript sig} {value : α}
    (returns : program.Returns answered value) {rest : α → Program sig β} {left : Program sig β}
    (leaves : (program.bind rest).Leaves (answered ++ later) left) :
    (rest value).Leaves later left := by
  induction program generalizing answered with
  | done early =>
    obtain ⟨rfl, rfl⟩ := returns.done
    exact leaves
  | perform op next ih =>
    obtain ⟨result, more, rfl, ends⟩ := returns.perform
    cases leaves with
    | answer goesOn => exact ih result ends goesOn

end Program

namespace Pool

variable {ι World Choice α : Type} {sig : Signature}

/-- A pool with the transcripts of its threads. -/
abbrev Transcribed (ι : Type) (sig : Signature) (World α : Type) : Type :=
  Pool ι sig (World × (ι → Transcript sig)) α

/-- The pool without them. -/
def bare (pool : Transcribed ι sig World α) : Pool ι sig World α :=
  ⟨pool.world.1, pool.threads⟩

/-- A pool whose threads have not been answered anything. -/
def unanswered (pool : Pool ι sig World α) : Transcribed ι sig World α :=
  ⟨(pool.world, fun _ => []), pool.threads⟩

variable [DecidableEq ι]

/-- Carry out an operation and write it into the transcript of its thread. -/
def transcribe (exec : ι → Meaning sig World Choice) (i : ι) :
    Meaning sig (World × (ι → Transcript sig)) Choice := fun seen op choice =>
  (exec i seen.1 op choice).map fun (result, world) =>
    (result, world, Function.update seen.2 i (seen.2 i ++ [⟨op, result⟩]))

variable {exec : ι → Meaning sig World Choice} {start : Pool ι sig World α}
variable {before after reached : Transcribed ι sig World α} {i : ι} {choice : Choice}
variable {allowed : Pool ι sig World α → ι → Choice → Prop}

/-- Everything a step does, with what it writes down. -/
theorem transcribe_cases (stepped : before.step (transcribe exec) i choice = some after) :
    ∃ op next result world, before.threads i = .perform op next ∧
      exec i before.world.1 op choice = some (result, world) ∧
      after = ⟨(world, Function.update before.world.2 i (before.world.2 i ++ [⟨op, result⟩])),
        Function.update before.threads i (next result)⟩ := by
  obtain ⟨op, next, result, seen, waiting, ran, rfl⟩ := step_cases stepped
  obtain ⟨⟨answer, world⟩, performed, same⟩ := Option.map_eq_some_iff.mp ran
  obtain ⟨rfl, rfl⟩ := Prod.mk.inj same
  exact ⟨op, next, answer, world, waiting, performed, rfl⟩

/-- A step that is written down is a step. -/
theorem step_bare (stepped : before.step (transcribe exec) i choice = some after) :
    before.bare.step exec i choice = some after.bare := by
  obtain ⟨op, next, result, world, waiting, ran, rfl⟩ := transcribe_cases stepped
  have waits : before.bare.threads i = .perform op next := waiting
  have performs : exec i before.bare.world op choice = some (result, world) := ran
  unfold step
  rw [waits]
  simp only [performs]
  rfl

/-- So is a run. -/
theorem reaches_bare {written : Transcribed ι sig World α → ι → Choice → Prop}
    (allows : ∀ pool i choice, written pool i choice → allowed pool.bare i choice)
    (path : Reaches (transcribe exec) written start.unanswered reached) :
    Reaches exec allowed start reached.bare := by
  induction path with
  | refl => exact .refl
  | tail _ last ih =>
    obtain ⟨i, choice, permitted, stepped⟩ := last
    exact ih.tail ⟨i, choice, allows _ _ _ permitted, step_bare stepped⟩

/-- Answered what its transcript says, the program of a thread leaves what is left of it. -/
theorem reaches_leaves {allowed : Transcribed ι sig World α → ι → Choice → Prop}
    (path : Reaches (transcribe exec) allowed start.unanswered reached) (i : ι) :
    (start.threads i).Leaves (reached.world.2 i) (reached.threads i) := by
  induction path with
  | refl => exact .nothing _
  | tail _ last ih =>
    obtain ⟨j, choice, -, stepped⟩ := last
    obtain ⟨op, next, result, world, waiting, -, rfl⟩ := transcribe_cases stepped
    by_cases same : i = j
    · subst same
      rw [waiting] at ih
      simpa only [Function.update_self] using ih.step result
    · simpa only [Function.update_of_ne same] using ih

end Pool

end Effects
