import Mathlib.Logic.Function.Basic

/-!
# Programs over an operation signature

A program is a tree: it is finished, or it waits at one operation and continues with the
result the environment returns. An operation is the unit of interleaving, so the same tree
has a solo reading, where nothing else runs, and a reading inside a pool of threads. The
meaning of the operations is a parameter: at each one the environment makes a choice, which
is how a failing device or a partial effect enters.
-/
namespace Effects

/-- The operations a program may stop at, each with the type of its result. -/
structure Signature where
  /-- One operation with its arguments. -/
  Op : Type
  /-- What the environment returns for it. -/
  Result : Op → Type

/-- A computation that is finished, or waits at one operation for its result. -/
inductive Program (sig : Signature) (α : Type) : Type where
  | done (value : α)
  | perform (op : sig.Op) (next : sig.Result op → Program sig α)

/-- The meaning of the operations over a world, given the environment's choice at each one.
An operation without a meaning there is blocked. -/
abbrev Meaning (sig : Signature) (World Choice : Type) : Type :=
  World → (op : sig.Op) → Choice → Option (sig.Result op × World)

namespace Program

variable {sig : Signature} {World Choice α β γ : Type}

/-- What a finished program has returned. -/
def returned? : Program sig α → Option α
  | .done value => some value
  | .perform _ _ => none

/-- A program that has returned is finished. -/
theorem returned?_eq_some {program : Program sig α} {value : α}
    (returned : program.returned? = some value) : program = .done value := by
  cases program with
  | done early => rw [Option.some.inj returned]
  | perform op next => cases returned

/-- Continue a program with what it returns. -/
def bind : Program sig α → (α → Program sig β) → Program sig β
  | .done value, rest => rest value
  | .perform op next, rest => .perform op fun result => (next result).bind rest

instance : Monad (Program sig) where
  pure := .done
  bind := .bind

/-- Wait at one operation and return its result. -/
def call (op : sig.Op) : Program sig (sig.Result op) := .perform op .done

@[simp] theorem pure_eq (value : α) : (pure value : Program sig α) = .done value := rfl

@[simp] theorem bind_eq (program : Program sig α) (rest : α → Program sig β) :
    program >>= rest = program.bind rest := rfl

@[simp] theorem bind_done (value : α) (rest : α → Program sig β) :
    (done value : Program sig α).bind rest = rest value := rfl

@[simp] theorem bind_perform (op : sig.Op) (next : sig.Result op → Program sig α)
    (rest : α → Program sig β) :
    (perform op next).bind rest = .perform op fun result => (next result).bind rest := rfl

@[simp] theorem bind_call (op : sig.Op) (rest : sig.Result op → Program sig β) :
    (call op).bind rest = .perform op rest := rfl

/-- Continue with the value of a fallible program, or with what follows its error. -/
def attempt {ε : Type} (program : Program sig (Except ε α)) (failed : ε → Program sig β)
    (next : α → Program sig β) : Program sig β :=
  program.bind fun
    | .ok value => next value
    | .error error => failed error

/-- The program waits at an operation of a kind. -/
def At (kind : sig.Op → Bool) : Program sig α → Prop
  | .done _ => False
  | .perform op _ => kind op

@[simp] theorem at_done (kind : sig.Op → Bool) (value : α) :
    ¬(done value : Program sig α).At kind := id

@[simp] theorem at_perform (kind : sig.Op → Bool) (op : sig.Op)
    (next : sig.Result op → Program sig α) : (perform op next).At kind ↔ kind op := Iff.rfl

instance (kind : sig.Op → Bool) : (program : Program sig α) → Decidable (program.At kind)
  | .done _ => .isFalse id
  | .perform op _ => inferInstanceAs (Decidable (kind op = true))

/-- A program that waits at an operation of one kind waits at none of a kind apart from it. -/
theorem At.apart {kind other : sig.Op → Bool} (apart : ∀ op, kind op → other op = false)
    {program : Program sig α} (waits : program.At kind) : ¬program.At other := by
  cases program with
  | done value => exact waits.elim
  | perform op next =>
    intro also
    exact absurd ((apart op waits).symm.trans also) Bool.false_ne_true

/-- The program waits at operations of a kind only, whatever they return. -/
def Only (kind : sig.Op → Bool) : Program sig α → Prop
  | .done _ => True
  | .perform op next => kind op ∧ ∀ result, (next result).Only kind

/-- A sequence of programs of a kind is of that kind. -/
theorem Only.bind {kind : sig.Op → Bool} {program : Program sig α} {rest : α → Program sig β}
    (first : program.Only kind) (later : ∀ value, (rest value).Only kind) :
    (program.bind rest).Only kind := by
  induction program with
  | done value => exact later value
  | perform op next ih => exact ⟨first.1, fun result => ih result (first.2 result)⟩

/-- A fallible program of a kind, with continuations of that kind. -/
theorem Only.attempt {ε : Type} {kind : sig.Op → Bool} {program : Program sig (Except ε α)}
    {failed : ε → Program sig β} {next : α → Program sig β} (first : program.Only kind)
    (after : ∀ error, (failed error).Only kind) (later : ∀ value, (next value).Only kind) :
    (program.attempt failed next).Only kind := by
  refine first.bind fun result => ?_
  cases result with
  | error error => exact after error
  | ok value => exact later value

/-- A program of a kind is of every wider kind. -/
theorem Only.mono {kind wider : sig.Op → Bool} (widens : ∀ op, kind op → wider op)
    {program : Program sig α} (only : program.Only kind) : program.Only wider := by
  induction program with
  | done value => trivial
  | perform op next ih => exact ⟨widens op only.1, fun result => ih result (only.2 result)⟩

/-- A property of a program and of everything that may be left of it. -/
def Always (holds : Program sig α → Prop) : Program sig α → Prop
  | .done value => holds (.done value)
  | .perform op next => holds (.perform op next) ∧ ∀ result, (next result).Always holds

/-- Carry out each operation as a program of finer ones. -/
def expand {fine : Signature} (step : (op : sig.Op) → Program fine (sig.Result op)) :
    Program sig α → Program fine α
  | .done value => .done value
  | .perform op next => (step op).bind fun result => (next result).expand step

/-- A program of a kind, expanded, is of the kind its operations expand to. -/
theorem Only.expand {fine : Signature} {step : (op : sig.Op) → Program fine (sig.Result op)}
    {kind : sig.Op → Bool} {finer : fine.Op → Bool}
    (steps : ∀ op, kind op → (step op).Only finer) {program : Program sig α}
    (only : program.Only kind) : (program.expand step).Only finer := by
  induction program with
  | done value => trivial
  | perform op next ih => exact (steps op only.1).bind fun result => ih result (only.2 result)

/-- An expanded program is of the kind that every operation expands to. -/
theorem expand_only {fine : Signature} {step : (op : sig.Op) → Program fine (sig.Result op)}
    {finer : fine.Op → Bool} (steps : ∀ op, (step op).Only finer) (program : Program sig α) :
    (program.expand step).Only finer := by
  induction program with
  | done value => trivial
  | perform op next ih => exact (steps op).bind ih

/-- Sequencing is associative. -/
theorem bind_assoc (program : Program sig α) (middle : α → Program sig β)
    (rest : β → Program sig γ) :
    (program.bind middle).bind rest = program.bind fun value => (middle value).bind rest := by
  induction program with
  | done value => rfl
  | perform op next ih => simp only [bind_perform, ih]

/-- A sequence is expanded part by part. -/
theorem expand_bind {fine : Signature} (step : (op : sig.Op) → Program fine (sig.Result op))
    (program : Program sig α) (rest : α → Program sig β) :
    (program.bind rest).expand step =
      (program.expand step).bind fun value => (rest value).expand step := by
  induction program with
  | done value => rfl
  | perform op next ih => simp only [bind_perform, expand, ih, bind_assoc]

/-! ## The solo reading -/

/-- Run a program with nothing beside it; the environment's choices come one at a time. -/
def solo (exec : Meaning sig World Choice) :
    (Nat → Choice) → Program sig α → World → Option (α × World)
  | _, .done value, world => some (value, world)
  | choices, .perform op next, world =>
    (exec world op (choices 0)).bind fun (result, after) =>
      (next result).solo exec (fun later => choices (later + 1)) after

/-- The worlds a solo run passes through, one after each operation. -/
def visited (exec : Meaning sig World Choice) :
    (Nat → Choice) → Program sig α → World → List World
  | _, .done _, _ => []
  | choices, .perform op next, world =>
    match exec world op (choices 0) with
    | none => []
    | some (result, after) =>
      after :: (next result).visited exec (fun later => choices (later + 1)) after

/-- A solo run of a finished program is at its end. -/
theorem solo_done {exec : Meaning sig World Choice} {choices : Nat → Choice} {early value : α}
    {world after : World} (ran : (done early : Program sig α).solo exec choices world =
      some (value, after)) : value = early ∧ after = world :=
  ⟨(Prod.mk.inj (Option.some.inj ran)).1.symm, (Prod.mk.inj (Option.some.inj ran)).2.symm⟩

/-- A solo run performs the operation it waits at and goes on. -/
theorem solo_perform {exec : Meaning sig World Choice} {choices : Nat → Choice} {op : sig.Op}
    {next : sig.Result op → Program sig α} {world after : World} {value : α}
    (ran : (perform op next).solo exec choices world = some (value, after)) :
    ∃ result middle, exec world op (choices 0) = some (result, middle) ∧
      (next result).solo exec (fun later => choices (later + 1)) middle = some (value, after) := by
  obtain ⟨⟨result, middle⟩, performed, rest⟩ := Option.bind_eq_some_iff.mp ran
  exact ⟨result, middle, performed, rest⟩

/-- A run under a meaning that leaves the environment fewer choices is a run. -/
theorem solo_narrow {Narrow : Type} {exec : Meaning sig World Choice}
    {narrow : Meaning sig World Narrow} (wide : Narrow → Choice)
    (agree : ∀ world op choice, narrow world op choice = exec world op (wide choice))
    (choices : Nat → Narrow) (program : Program sig α) (world : World) :
    program.solo narrow choices world = program.solo exec (fun n => wide (choices n)) world ∧
      program.visited narrow choices world =
        program.visited exec (fun n => wide (choices n)) world := by
  induction program generalizing world choices with
  | done value => exact ⟨rfl, rfl⟩
  | perform op next ih =>
    unfold solo visited
    rw [agree]
    cases exec world op (wide (choices 0)) with
    | none => exact ⟨rfl, rfl⟩
    | some ran =>
      obtain ⟨same, passes⟩ := ih ran.1 (fun later => choices (later + 1)) ran.2
      exact ⟨same, congrArg _ passes⟩

/-- Total correctness of a program with nothing beside it: no operation blocks, each one keeps the
invariant whatever the environment chooses, and the result satisfies the postcondition. -/
def Total (exec : Meaning sig World Choice) (inv : World → Prop) (post : α → World → Prop) :
    Program sig α → World → Prop
  | .done value, world => post value world
  | .perform op next, world => ∀ choice, ∃ result after,
      exec world op choice = some (result, after) ∧ inv after ∧ Total exec inv post (next result) after

section Total

variable {exec : Meaning sig World Choice} {inv : World → Prop}

/-- A totally correct program runs to its end, with the invariant on the way and the
postcondition there. -/
theorem Total.solo {post : α → World → Prop} {program : Program sig α} {world : World}
    (total : Total exec inv post program world) (choices : Nat → Choice) :
    ∃ value after, program.solo exec choices world = some (value, after) ∧ post value after ∧
      ∀ passed ∈ program.visited exec choices world, inv passed := by
  induction program generalizing world choices with
  | done value => exact ⟨value, world, rfl, total, by simp [visited]⟩
  | perform op next ih =>
    obtain ⟨result, after, ran, kept, rest⟩ := total (choices 0)
    obtain ⟨value, final, ends, met, passes⟩ := ih result rest fun later => choices (later + 1)
    refine ⟨value, final, ?_, met, ?_⟩
    · simp only [Program.solo, ran, Option.bind_some, ends]
    · simpa only [visited, ran, List.forall_mem_cons] using ⟨kept, passes⟩

end Total

end Program

end Effects
