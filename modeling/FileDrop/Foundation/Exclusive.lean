import Mathlib.Data.Fintype.Defs
import FileDrop.Foundation.Interleaving

/-!
# Exclusive sections

A section is given by the operations a thread performs inside it and the operations that let a
thread in; where a thread is follows from the operation it waits at. A schedule respects the
section when a thread enters only while no other thread is inside. Then at most one thread is
inside at any time, and what the section guards changes under no thread that is inside:
`Section.reachable` adds that to the parallel composition of threads.
-/
namespace Effects

variable {sig : Signature} {ι World Choice Guarded α : Type}

/-- The operations performed inside a section, and those that enter it. -/
structure Section (sig : Signature) where
  /-- A thread that waits at such an operation is inside. -/
  inside : sig.Op → Bool
  /-- A thread that performs such an operation may be inside afterwards. -/
  enters : sig.Op → Bool

namespace Section

variable (critical : Section sig)

/-- A schedule enters the section only while no other thread is inside. -/
def Respected (pool : Pool ι sig World α) (i : ι) : Prop :=
  (pool.threads i).At critical.enters → ∀ j, j ≠ i → ¬(pool.threads j).At critical.inside

instance [Fintype ι] [DecidableEq ι] (pool : Pool ι sig World α) (i : ι) :
    Decidable (critical.Respected pool i) :=
  inferInstanceAs (Decidable (_ → ∀ j, j ≠ i → ¬(pool.threads j).At critical.inside))

/-- At most one thread is inside. -/
def Alone (pool : Pool ι sig World α) : Prop :=
  ∀ i j, (pool.threads i).At critical.inside → (pool.threads j).At critical.inside → i = j

/-- What a thread tolerates: the others `drift` the world, and leave what is guarded as it is
while the thread is inside. -/
def rely (guarded : World → Guarded) (drift : World → World → Prop) (program : Program sig α)
    (before after : World) : Prop :=
  drift before after ∧ (program.At critical.inside → guarded after = guarded before)

/-- What a thread grants the others besides the `effect` of its operation: it touches what is
guarded, and comes to be inside, only from inside or by entering. -/
def guarantee (guarded : World → Guarded)
    (effect : Program sig α → World → Program sig α → World → Prop) (program : Program sig α)
    (before : World) (rest : Program sig α) (after : World) : Prop :=
  effect program before rest after ∧
    (program.At critical.inside ∨ program.At critical.enters ∨
      guarded after = guarded before ∧ ¬rest.At critical.inside)

/-- A thread that keeps its `effect` at every operation, however the others drift the world. -/
abbrev Keeps (exec : Meaning sig World Choice) (guarded : World → Guarded)
    (drift : World → World → Prop)
    (effect : Program sig α → World → Program sig α → World → Prop) :
    Program sig α → World → Prop :=
  Safe exec (critical.rely guarded drift) (critical.guarantee guarded effect)

section Step

variable {critical} {exec : Meaning sig World Choice} {guarded : World → Guarded}
variable {drift : World → World → Prop}
variable {effect : Program sig α → World → Program sig α → World → Prop}
variable {assertion : World → Prop} {op : sig.Op} {next : sig.Result op → Program sig α}

/-- An operation inside: the assertion may speak about what is guarded, since it stays. -/
theorem Keeps.inside (within : critical.inside op)
    (stable : ∀ world seen, assertion world → drift world seen → guarded seen = guarded world →
      assertion seen)
    (sound : ∀ world choice result after, assertion world →
      exec world op choice = some (result, after) →
        effect (.perform op next) world (next result) after ∧
          critical.Keeps exec guarded drift effect (next result) after)
    {world : World} (holds : assertion world) :
    critical.Keeps exec guarded drift effect (.perform op next) world := by
  refine Safe.of_assertion ?_ ?_ holds
  · rintro world seen holds ⟨moved, still⟩
    exact stable world seen holds moved (still within)
  · intro world choice result after holds ran
    obtain ⟨done, rest⟩ := sound world choice result after holds ran
    exact ⟨⟨done, .inl within⟩, rest⟩

/-- An operation outside: the assertion survives every drift, and the operation enters or
leaves what is guarded as it is. -/
theorem Keeps.outside (stable : ∀ world seen, assertion world → drift world seen → assertion seen)
    (sound : ∀ world choice result after, assertion world →
      exec world op choice = some (result, after) →
        effect (.perform op next) world (next result) after ∧
          (critical.enters op ∨
            guarded after = guarded world ∧ ¬(next result).At critical.inside) ∧
          critical.Keeps exec guarded drift effect (next result) after)
    {world : World} (holds : assertion world) :
    critical.Keeps exec guarded drift effect (.perform op next) world := by
  refine Safe.of_assertion ?_ ?_ holds
  · rintro world seen holds ⟨moved, -⟩
    exact stable world seen holds moved
  · intro world choice result after holds ran
    obtain ⟨done, entry, rest⟩ := sound world choice result after holds ran
    exact ⟨⟨done, .inr entry⟩, rest⟩

end Step

variable {critical} [DecidableEq ι] {exec : ι → Meaning sig World Choice}
variable {guarded : World → Guarded} {drift : ι → World → World → Prop}
variable {effect : ι → Program sig α → World → Program sig α → World → Prop}
variable {allowed : Pool ι sig World α → ι → Choice → Prop} {inv : Pool ι sig World α → Prop}

/-- Parallel composition of threads with an exclusive section. When the schedule respects the
section, the pool invariant, the exclusion and the safety of every thread hold of every
reachable pool. -/
theorem reachable (settled : ∀ i world, drift i world world)
    (compose : ∀ i first second third, drift i first second → drift i second third →
      drift i first third)
    (respected : ∀ pool i choice, allowed pool i choice → critical.Respected pool i)
    (drifts : ∀ i program before rest after, effect i program before rest after →
      ∀ j, j ≠ i → drift j before after)
    (keeps : ∀ before after i choice, critical.Alone before → inv before →
      allowed before i choice → (∀ j, j ≠ i → after.threads j = before.threads j) →
      effect i (before.threads i) before.world (after.threads i) after.world → inv after)
    {start reached : Pool ι sig World α} (aloneStart : critical.Alone start)
    (invStart : inv start)
    (safeStart : ∀ i, critical.Keeps (exec i) guarded (drift i) (effect i) (start.threads i)
      start.world)
    (path : Pool.Reaches exec allowed start reached) :
    (critical.Alone reached ∧ inv reached) ∧
      ∀ i, critical.Keeps (exec i) guarded (drift i) (effect i) (reached.threads i)
        reached.world := by
  refine @Pool.reachable_safe sig ι World Choice α _ exec
    (fun i => critical.rely guarded (drift i)) (fun i => critical.guarantee guarded (effect i))
    allowed (fun pool => critical.Alone pool ∧ inv pool) ?_ ?_ ?_ start ⟨aloneStart, invStart⟩
    safeStart reached path
  · exact fun pool i _ => ⟨settled i pool.world, fun _ => rfl⟩
  · rintro i program first second third ⟨near, kept⟩ ⟨far, keptFar⟩
    exact ⟨compose i _ _ _ near far, fun inside => (keptFar inside).trans (kept inside)⟩
  · rintro before after i choice ⟨alone, holds⟩ permitted stepped ⟨done, entry⟩
    have others : ∀ j, j ≠ i → after.threads j = before.threads j := by
      intro j apart
      obtain ⟨op, next, result, world, -, -, rfl⟩ := Pool.step_cases stepped
      exact Function.update_of_ne apart _ _
    -- the thread that moved was inside alone, entered an empty section, or did not get in
    have excluded : ∀ j, j ≠ i → (before.threads j).At critical.inside →
        guarded after.world = guarded before.world ∧ ¬(after.threads i).At critical.inside := by
      intro j apart inside
      rcases entry with already | enters | outside
      · exact absurd (alone j i inside already) apart
      · exact absurd inside (respected before i choice permitted enters j apart)
      · exact outside
    refine ⟨⟨?_, keeps before after i choice alone holds permitted others done⟩, ?_⟩
    · intro j k first second
      by_cases isJ : j = i <;> by_cases isK : k = i
      · rw [isJ, isK]
      · subst isJ
        rw [others k isK] at second
        exact absurd first (excluded k isK second).2
      · subst isK
        rw [others j isJ] at first
        exact absurd second (excluded j isJ first).2
      · rw [others j isJ] at first
        rw [others k isK] at second
        exact alone j k first second
    · intro j apart
      exact ⟨drifts i _ _ _ _ done j apart, fun inside => (excluded j apart inside).1⟩

/-- Every step that follows such a schedule keeps the effect of its thread. -/
theorem reachable_step (settled : ∀ i world, drift i world world)
    (compose : ∀ i first second third, drift i first second → drift i second third →
      drift i first third)
    (respected : ∀ pool i choice, allowed pool i choice → critical.Respected pool i)
    (drifts : ∀ i program before rest after, effect i program before rest after →
      ∀ j, j ≠ i → drift j before after)
    {start before after : Pool ι sig World α} (aloneStart : critical.Alone start)
    (safeStart : ∀ i, critical.Keeps (exec i) guarded (drift i) (effect i) (start.threads i)
      start.world)
    (path : Pool.Reaches exec allowed start before) {i : ι} {choice : Choice}
    (stepped : before.step exec i choice = some after) :
    effect i (before.threads i) before.world (after.threads i) after.world := by
  have unneeded : ∀ (early late : Pool ι sig World α) j taken, critical.Alone early → True →
      allowed early j taken → (∀ k, k ≠ j → late.threads k = early.threads k) →
      effect j (early.threads j) early.world (late.threads j) late.world → True :=
    fun _ _ _ _ _ _ _ _ _ => trivial
  have safe := (critical.reachable settled compose respected drifts unneeded aloneStart trivial
    safeStart path).2 i
  have calm : critical.rely guarded (drift i) (before.threads i) before.world before.world :=
    ⟨settled i before.world, fun _ => rfl⟩
  have kept := @Pool.step_guarantee sig ι World Choice α _ exec
    (fun j => critical.rely guarded (drift j)) (fun j => critical.guarantee guarded (effect j))
    before after i choice calm safe stepped
  exact kept.1.1

end Section

end Effects
