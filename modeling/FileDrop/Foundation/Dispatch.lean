import Mathlib.Data.List.Nodup
import Mathlib.Data.List.Perm.Subperm
import Mathlib.Logic.Function.Basic
import Mathlib.Logic.Relation

/-!
# A queue served by workers

Producers mint ids, put an item of each id into a first-in first-out queue and spawn a worker for
the id. A worker acquires a permit, takes whatever item is first, makes it active and works on it; at
its end it takes its own id from the active ones and gives the permit back. Each of these is a step
of its own, and steps of different producers and workers come in any order.

The account of the items holds in every run: there is an item for every worker that has not taken
one. What is active is an account of the workers only when each worker takes the item of its own id.
-/
namespace Dispatch

/-- What a producer is about to do with an id. -/
inductive Duty (Id : Type) where
  | idle
  | minted (id : Id)
  | queued (id : Id)

/-- How far a worker is. -/
inductive Stage (Id : Type) where
  | waiting
  | permitted
  /-- It has taken the item of an id, which is not active yet. -/
  | taken (id : Id)
  | working
  | finished
  | returned
  deriving DecidableEq

namespace Stage

variable {Id : Type}

/-- The worker has taken an item. -/
def served : Stage Id → Bool
  | .waiting | .permitted => false
  | .taken _ | .working | .finished | .returned => true

/-- The worker has made an item active. -/
def begun : Stage Id → Bool
  | .waiting | .permitted | .taken _ => false
  | .working | .finished | .returned => true

/-- The worker has a permit. -/
def holds : Stage Id → Bool
  | .waiting | .returned => false
  | .permitted | .taken _ | .working | .finished => true

end Stage

/-- Producers, a queue and workers, with a record of what was enqueued and who took it. -/
structure State (Producer Id Item : Type) where
  issued : List Id
  /-- Who minted an id. -/
  owner : Id → Option Producer
  duty : Producer → Duty Id
  enqueued : List Item
  pending : List Item
  spawned : List Id
  /-- The workers that took an item, in order, with that item. -/
  popped : List (Id × Item)
  active : List Id
  permits : Nat
  stage : Id → Stage Id

section

variable {Producer Id Item : Type} (key : Item → Id)

section

variable [DecidableEq Producer] [DecidableEq Id] (turn : Id → Item → Prop)

/-- One step of a producer or a worker; a worker takes an item only when it is its turn. -/
inductive Step (before : State Producer Id Item) : State Producer Id Item → Prop where
  | mint (producer : Producer) (id : Id) (fresh : id ∉ before.issued) : Step before
      { before with
        issued := id :: before.issued
        owner := Function.update before.owner id (some producer)
        duty := Function.update before.duty producer (.minted id) }
  | enqueue (producer : Producer) (item : Item) (now : before.duty producer = .minted (key item)) :
      Step before
      { before with
        enqueued := before.enqueued ++ [item]
        pending := before.pending ++ [item]
        duty := Function.update before.duty producer (.queued (key item)) }
  | spawn (producer : Producer) (id : Id) (now : before.duty producer = .queued id) : Step before
      { before with
        spawned := before.spawned ++ [id]
        duty := Function.update before.duty producer .idle }
  | acquire (worker : Id) (now : before.stage worker = .waiting) (known : worker ∈ before.spawned)
      (free : before.permits ≠ 0) : Step before
      { before with
        permits := before.permits - 1
        stage := Function.update before.stage worker .permitted }
  | take (worker : Id) (item : Item) (rest : List Item) (now : before.stage worker = .permitted)
      (first : before.pending = item :: rest) (mine : turn worker item) : Step before
      { before with
        pending := rest
        popped := before.popped ++ [(worker, item)]
        stage := Function.update before.stage worker (.taken (key item)) }
  | starve (worker : Id) (now : before.stage worker = .permitted) (nothing : before.pending = []) :
      Step before
      { before with stage := Function.update before.stage worker .finished }
  | activate (worker id : Id) (now : before.stage worker = .taken id) : Step before
      { before with
        active := before.active ++ [id]
        stage := Function.update before.stage worker .working }
  | finish (worker : Id) (now : before.stage worker = .working) : Step before
      { before with
        active := before.active.filter (· ≠ worker)
        stage := Function.update before.stage worker .finished }
  | release (worker : Id) (now : before.stage worker = .finished) : Step before
      { before with
        permits := before.permits + 1
        stage := Function.update before.stage worker .returned }

end

/-! ## The account of the items -/

/-- What holds of the state at any time. -/
structure Sound (limit : Nat) (state : State Producer Id Item) : Prop where
  /-- An id that has an owner was issued. -/
  issued : ∀ id, (state.owner id).isSome → id ∈ state.issued
  /-- The id of an item has an owner. -/
  owned : ∀ id ∈ state.enqueued.map key, (state.owner id).isSome
  /-- A minted id is its producer's, and there is no item of it. -/
  minted : ∀ producer id, state.duty producer = .minted id →
    state.owner id = some producer ∧ id ∉ state.enqueued.map key
  /-- An id that is queued is its producer's; there is an item of it and no worker. -/
  queued : ∀ producer id, state.duty producer = .queued id →
    state.owner id = some producer ∧ id ∈ state.enqueued.map key ∧ id ∉ state.spawned
  /-- Items are taken in the order in which they were enqueued. -/
  order : state.enqueued = state.popped.map (·.2) ++ state.pending
  /-- No two items have the same id. -/
  distinct : (state.enqueued.map key).Nodup
  /-- A worker has an item. -/
  listed : state.spawned ⊆ state.enqueued.map key
  /-- No two workers have the same id. -/
  spawnedOnce : state.spawned.Nodup
  /-- A worker that does anything is spawned. -/
  known : ∀ worker, state.stage worker ≠ .waiting → worker ∈ state.spawned
  /-- A worker takes one item at most. -/
  takenOnce : (state.popped.map (·.1)).Nodup
  /-- The workers that have taken an item are those that are past it. -/
  served : ∀ worker, worker ∈ state.popped.map (·.1) ↔ (state.stage worker).served
  /-- The id a worker is about to make active is that of the item it has taken. -/
  taken : ∀ worker id, state.stage worker = .taken id →
    ∃ item, (worker, item) ∈ state.popped ∧ key item = id
  /-- What is active was taken by a worker that is past that. -/
  active : ∀ id ∈ state.active, ∃ worker item, (worker, item) ∈ state.popped ∧ key item = id ∧
    (state.stage worker).begun
  /-- No id is active twice. -/
  activeOnce : state.active.Nodup
  /-- A permit is free or a worker has it. -/
  permits : state.permits + state.spawned.countP (fun worker => (state.stage worker).holds) = limit

end

/-- A queue that nothing was put into. -/
def State.new (Producer Id Item : Type) (limit : Nat) : State Producer Id Item :=
  ⟨[], fun _ => none, fun _ => .idle, [], [], [], [], [], limit, fun _ => .waiting⟩

/-- A new queue is sound. -/
theorem sound_new {Producer Id Item : Type} (key : Item → Id) (limit : Nat) :
    Sound key limit (State.new Producer Id Item limit) where
  issued _ owned := nomatch owned
  owned _ listed := nomatch listed
  minted _ _ now := nomatch now
  queued _ _ now := nomatch now
  order := rfl
  distinct := List.nodup_nil
  listed := List.nil_subset _
  spawnedOnce := List.nodup_nil
  known _ moved := absurd rfl moved
  takenOnce := List.nodup_nil
  served _ := ⟨nofun, nofun⟩
  taken _ _ now := nomatch now
  active _ member := nomatch member
  activeOnce := List.nodup_nil
  permits := rfl

/-! ## Counting -/

section

variable {Id Stage : Type} [DecidableEq Id]

/-- Counting after one of distinct elements has changed. -/
theorem countP_update {list : List Id} (distinct : list.Nodup) {id : Id} (listed : id ∈ list)
    (value : Id → Stage) (new : Stage) (test : Stage → Bool) :
    list.countP (fun other => test (Function.update value id new other)) + (test (value id)).toNat =
      list.countP (fun other => test (value other)) + (test new).toNat := by
  induction list with
  | nil => cases listed
  | cons head rest ih =>
    obtain ⟨absent, distinct⟩ := List.nodup_cons.mp distinct
    by_cases same : head = id
    · subst same
      have unchanged : rest.countP (fun other => test (Function.update value head new other)) =
          rest.countP (fun other => test (value other)) := by
        refine List.countP_congr fun other member => ?_
        have differs : other ≠ head := fun equal => absent (equal ▸ member)
        rw [Function.update_of_ne differs]
      simp only [List.countP_cons, Function.update_self, unchanged]
      cases test new <;> cases test (value head) <;> simp
    · have member : id ∈ rest := (List.mem_cons.mp listed).resolve_left (Ne.symm same)
      have later := ih distinct member
      simp only [List.countP_cons, Function.update_of_ne same]
      omega

/-- Counting when a change does not matter. -/
theorem countP_unchanged {list : List Id} {id : Id} {value : Id → Stage} {new : Stage}
    {test : Stage → Bool} (same : test new = test (value id)) :
    list.countP (fun other => test (Function.update value id new other)) =
      list.countP (fun other => test (value other)) := by
  refine List.countP_congr fun other _ => ?_
  by_cases changed : other = id
  · rw [changed, Function.update_self, same]
  · rw [Function.update_of_ne changed]

end

/-! ## One step -/

section

variable {Producer Id Item : Type} {key : Item → Id} {limit : Nat}
variable {before after : State Producer Id Item}

/-- Items with one id were taken by one worker. -/
theorem Sound.taker (sound : Sound key limit before) {worker other : Id} {item same : Item}
    (first : (worker, item) ∈ before.popped) (second : (other, same) ∈ before.popped)
    (ids : key same = key item) : other = worker := by
  have distinct := sound.distinct
  rw [sound.order, List.map_append, List.map_map] at distinct
  have pairs : ((other, same) : Id × Item) = (worker, item) :=
    List.inj_on_of_nodup_map distinct.of_append_left second first ids
  exact congrArg Prod.fst pairs

/-- There is an item for every worker that has not taken one. -/
theorem Sound.unserved_le (sound : Sound key limit before) :
    before.spawned.countP (fun worker => !(before.stage worker).served) ≤ before.pending.length := by
  have workers : before.spawned.length ≤ before.enqueued.length := by
    have sub := (sound.spawnedOnce.subperm sound.listed).length_le
    rwa [List.length_map] at sub
  have takers : before.popped.length ≤
      before.spawned.countP (fun worker => (before.stage worker).served) := by
    have inside : before.popped.map (·.1) ⊆
        before.spawned.filter (fun worker => (before.stage worker).served) := by
      intro worker member
      have past := (sound.served worker).mp member
      have moved : before.stage worker ≠ .waiting := by
        intro waits
        rw [waits] at past
        cases past
      exact List.mem_filter.mpr ⟨sound.known worker moved, past⟩
    have sub := (sound.takenOnce.subperm inside).length_le
    rwa [List.length_map, ← List.countP_eq_length_filter] at sub
  have total : before.spawned.length =
      before.spawned.countP (fun worker => (before.stage worker).served) +
        before.spawned.countP (fun worker => ¬(before.stage worker).served = true) :=
    List.length_eq_countP_add_countP _
  have items := congrArg List.length sound.order
  rw [List.length_append, List.length_map] at items
  have unserved : before.spawned.countP (fun worker => !(before.stage worker).served) =
      before.spawned.countP (fun worker => ¬(before.stage worker).served = true) :=
    List.countP_congr fun worker _ => by simp
  omega

/-- A worker that looks for an item finds one. -/
theorem Sound.pending_ne (sound : Sound key limit before) {worker : Id}
    (now : before.stage worker = .permitted) : before.pending ≠ [] := by
  have listed : worker ∈ before.spawned := sound.known worker (by rw [now]; exact nofun)
  have counted : 0 < before.spawned.countP (fun worker => !(before.stage worker).served) :=
    List.countP_pos_iff.mpr ⟨worker, listed, by rw [now]; rfl⟩
  have unserved := sound.unserved_le
  exact List.length_pos_iff.mp (by omega)

section

variable [DecidableEq Producer]

/-- A new item. -/
theorem Sound.enqueue (sound : Sound key limit before) {producer : Producer} {item : Item}
    (now : before.duty producer = .minted (key item)) : Sound key limit { before with
      enqueued := before.enqueued ++ [item]
      pending := before.pending ++ [item]
      duty := Function.update before.duty producer (.queued (key item)) } := by
  obtain ⟨owned, absent⟩ := sound.minted producer (key item) now
  have ids : (before.enqueued ++ [item]).map key = before.enqueued.map key ++ [key item] := by
    rw [List.map_append, List.map_singleton]
  have notSpawned : key item ∉ before.spawned := fun listed => absent (sound.listed listed)
  -- another producer's id is another id
  have apart {who : Producer} {id : Id} (different : who ≠ producer)
      (other : before.owner id = some who) : id ≠ key item := by
    rintro rfl
    exact different (Option.some.inj (other.symm.trans owned))
  refine { sound with
    owned := fun id listed => ?_
    minted := fun who id minted => ?_
    queued := fun who id queued => ?_
    order := ?_
    distinct := ?_
    listed := fun id member => ?_ }
  · rw [ids] at listed
    rcases List.mem_append.mp listed with old | new
    · exact sound.owned id old
    · rw [List.mem_singleton.mp new, owned]
      rfl
  · by_cases same : who = producer
    · subst same
      simp only [Function.update_self, reduceCtorEq] at minted
    · simp only [Function.update_of_ne same] at minted
      obtain ⟨other, missing⟩ := sound.minted who id minted
      refine ⟨other, ?_⟩
      rw [ids, List.mem_append, List.mem_singleton]
      rintro (old | new)
      · exact missing old
      · exact apart same other new
  · rw [ids]
    by_cases same : who = producer
    · subst same
      simp only [Function.update_self, Duty.queued.injEq] at queued
      subst queued
      exact ⟨owned, by simp, notSpawned⟩
    · simp only [Function.update_of_ne same] at queued
      obtain ⟨other, listed, missing⟩ := sound.queued who id queued
      exact ⟨other, List.mem_append_left _ listed, missing⟩
  · simp only [sound.order, List.append_assoc]
  · rw [ids, List.nodup_append]
    refine ⟨sound.distinct, by simp, fun left old right new => ?_⟩
    rw [List.mem_singleton.mp new]
    rintro rfl
    exact absent old
  · rw [ids]
    exact List.mem_append_left _ (sound.listed member)

/-- A new worker. -/
theorem Sound.spawn (sound : Sound key limit before) {producer : Producer} {id : Id}
    (now : before.duty producer = .queued id) : Sound key limit { before with
      spawned := before.spawned ++ [id]
      duty := Function.update before.duty producer .idle } := by
  obtain ⟨owned, listed, absent⟩ := sound.queued producer id now
  have waits : before.stage id = .waiting := by
    by_contra moved
    exact absent (sound.known id moved)
  refine { sound with
    minted := fun who other minted => ?_
    queued := fun who other queued => ?_
    listed := fun other member => ?_
    spawnedOnce := ?_
    known := fun other moved => List.mem_append_left _ (sound.known other moved)
    permits := ?_ }
  · by_cases same : who = producer
    · subst same
      simp only [Function.update_self, reduceCtorEq] at minted
    · simp only [Function.update_of_ne same] at minted
      exact sound.minted who other minted
  · by_cases same : who = producer
    · subst same
      simp only [Function.update_self, reduceCtorEq] at queued
    · simp only [Function.update_of_ne same] at queued
      obtain ⟨others, there, missing⟩ := sound.queued who other queued
      refine ⟨others, there, ?_⟩
      rw [List.mem_append, List.mem_singleton]
      rintro (old | rfl)
      · exact missing old
      · exact same (Option.some.inj (others.symm.trans owned))
  · rcases List.mem_append.mp member with old | new
    · exact sound.listed old
    · exact List.mem_singleton.mp new ▸ listed
  · rw [List.nodup_append]
    refine ⟨sound.spawnedOnce, by simp, fun left old right new => ?_⟩
    rw [List.mem_singleton.mp new]
    rintro rfl
    exact absent old
  · have total := sound.permits
    have idle : (before.stage id).holds = false := by
      rw [waits]
      rfl
    simpa [List.countP_append, List.countP_singleton, idle] using total

end

section

variable [DecidableEq Id]

/-- A worker goes on without touching the queue. -/
theorem Sound.restage (sound : Sound key limit before) {worker : Id} (listed : worker ∈ before.spawned)
    {new : Stage Id} {permits : Nat} (served : new.served = (before.stage worker).served)
    (begun : (before.stage worker).begun → new.begun) (taken : ∀ id, new ≠ .taken id)
    (balance : permits + new.holds.toNat = before.permits + (before.stage worker).holds.toNat) :
    Sound key limit { before with
      permits
      stage := Function.update before.stage worker new } := by
  refine { sound with
    known := fun other moved => ?_
    served := fun other => ?_
    taken := fun other id now => ?_
    active := fun id member => ?_
    permits := ?_ }
  · by_cases same : other = worker
    · exact same ▸ listed
    · simp only [Function.update_of_ne same] at moved
      exact sound.known other moved
  · by_cases same : other = worker
    · subst same
      simp only [Function.update_self, served]
      exact sound.served other
    · simp only [Function.update_of_ne same]
      exact sound.served other
  · by_cases same : other = worker
    · subst same
      simp only [Function.update_self] at now
      exact absurd now (taken id)
    · simp only [Function.update_of_ne same] at now
      exact sound.taken other id now
  · obtain ⟨other, item, popped, named, past⟩ := sound.active id member
    refine ⟨other, item, popped, named, ?_⟩
    by_cases same : other = worker
    · subst same
      simp only [Function.update_self]
      exact begun past
    · simp only [Function.update_of_ne same]
      exact past
  · have counted := countP_update sound.spawnedOnce listed before.stage new Stage.holds
    have total := sound.permits
    show permits + before.spawned.countP
      (fun other => (Function.update before.stage worker new other).holds) = limit
    omega

/-- A worker takes the first item. -/
theorem Sound.take (sound : Sound key limit before) {worker : Id} {item : Item} {rest : List Item}
    (now : before.stage worker = .permitted) (first : before.pending = item :: rest) :
    Sound key limit { before with
      pending := rest
      popped := before.popped ++ [(worker, item)]
      stage := Function.update before.stage worker (.taken (key item)) } := by
  have listed : worker ∈ before.spawned := sound.known worker (by rw [now]; exact nofun)
  have unserved : worker ∉ before.popped.map (·.1) := by
    rw [sound.served worker, now]
    exact nofun
  have ids : (before.popped ++ [(worker, item)]).map (·.1) = before.popped.map (·.1) ++ [worker] := by
    rw [List.map_append, List.map_singleton]
  refine { sound with
    order := ?_
    known := fun other moved => ?_
    takenOnce := ?_
    served := fun other => ?_
    taken := fun other id stage => ?_
    active := fun id member => ?_
    permits := ?_ }
  · rw [sound.order, first, List.map_append, List.map_singleton, List.append_assoc,
      List.singleton_append]
  · by_cases same : other = worker
    · exact same ▸ listed
    · simp only [Function.update_of_ne same] at moved
      exact sound.known other moved
  · rw [ids, List.nodup_append]
    refine ⟨sound.takenOnce, by simp, fun left old right new => ?_⟩
    rw [List.mem_singleton.mp new]
    rintro rfl
    exact unserved old
  · rw [ids]
    by_cases same : other = worker
    · subst same
      simp [Stage.served]
    · simp only [Function.update_of_ne same, List.mem_append, List.mem_singleton, same, or_false]
      exact sound.served other
  · by_cases same : other = worker
    · subst same
      simp only [Function.update_self, Stage.taken.injEq] at stage
      exact ⟨item, by simp, stage⟩
    · simp only [Function.update_of_ne same] at stage
      obtain ⟨found, popped, named⟩ := sound.taken other id stage
      exact ⟨found, List.mem_append_left _ popped, named⟩
  · obtain ⟨other, found, popped, named, begun⟩ := sound.active id member
    refine ⟨other, found, List.mem_append_left _ popped, named, ?_⟩
    have differs : other ≠ worker := by
      rintro rfl
      rw [now] at begun
      cases begun
    simp only [Function.update_of_ne differs]
    exact begun
  · have total := sound.permits
    have same : (Stage.taken (key item)).holds = (before.stage worker).holds := by
      rw [now]
      rfl
    rw [countP_unchanged same]
    exact total

/-- A worker makes its item active. -/
theorem Sound.activate (sound : Sound key limit before) {worker id : Id}
    (now : before.stage worker = .taken id) : Sound key limit { before with
      active := before.active ++ [id]
      stage := Function.update before.stage worker .working } := by
  have listed : worker ∈ before.spawned := sound.known worker (by rw [now]; exact nofun)
  have moved : Sound key limit { before with
      permits := before.permits
      stage := Function.update before.stage worker .working } := by
    apply sound.restage listed
    · rw [now]
      rfl
    · exact fun _ => rfl
    · exact nofun
    · rw [now]
      rfl
  obtain ⟨item, popped, named⟩ := sound.taken worker id now
  have absent : id ∉ before.active := by
    intro member
    obtain ⟨other, same, taken, ids, begun⟩ := sound.active id member
    rw [sound.taker popped taken (ids.trans named.symm), now] at begun
    cases begun
  refine { moved with
    active := fun other member => ?_
    activeOnce := ?_ }
  · rcases List.mem_append.mp member with old | new
    · exact moved.active other old
    · obtain rfl := List.mem_singleton.mp new
      refine ⟨worker, item, popped, named, ?_⟩
      simp only [Function.update_self]
      rfl
  · rw [List.nodup_append]
    refine ⟨sound.activeOnce, by simp, fun left old right new => ?_⟩
    rw [List.mem_singleton.mp new]
    rintro rfl
    exact absent old

/-- A worker takes its id from the active ones. -/
theorem Sound.finish (sound : Sound key limit before) {worker : Id}
    (now : before.stage worker = .working) : Sound key limit { before with
      active := before.active.filter (· ≠ worker)
      stage := Function.update before.stage worker .finished } := by
  have listed : worker ∈ before.spawned := sound.known worker (by rw [now]; exact nofun)
  have moved : Sound key limit { before with
      permits := before.permits
      stage := Function.update before.stage worker .finished } := by
    apply sound.restage listed
    · rw [now]
      rfl
    · exact fun _ => rfl
    · exact nofun
    · rw [now]
      rfl
  exact { moved with
    active := fun id member => moved.active id (List.mem_filter.mp member).1
    activeOnce := sound.activeOnce.filter _ }

end

variable [DecidableEq Producer] [DecidableEq Id] {turn : Id → Item → Prop}

/-- A new id. -/
theorem Sound.mint (sound : Sound key limit before) {producer : Producer} {id : Id}
    (fresh : id ∉ before.issued) : Sound key limit { before with
      issued := id :: before.issued
      owner := Function.update before.owner id (some producer)
      duty := Function.update before.duty producer (.minted id) } := by
  have ownedApart {other : Id} (owned : (before.owner other).isSome) : other ≠ id := by
    rintro rfl
    exact fresh (sound.issued other owned)
  have kept {other : Id} {who : Producer} (owned : before.owner other = some who) :
      Function.update before.owner id (some producer) other = some who := by
    have apart : other ≠ id := ownedApart (by rw [owned]; rfl)
    rw [Function.update_of_ne apart, owned]
  refine { sound with
    issued := fun other owned => ?_
    owned := fun other listed => ?_
    minted := fun who other now => ?_
    queued := fun who other now => ?_ }
  · by_cases same : other = id
    · exact same ▸ List.mem_cons_self
    · simp only [Function.update_of_ne same] at owned
      exact List.mem_cons_of_mem _ (sound.issued other owned)
  · have owned := sound.owned other listed
    simp only [Function.update_of_ne (ownedApart owned)]
    exact owned
  · by_cases same : who = producer
    · subst same
      simp only [Function.update_self, Duty.minted.injEq] at now
      subst now
      refine ⟨Function.update_self .., fun listed => ?_⟩
      exact ownedApart (sound.owned _ listed) rfl
    · simp only [Function.update_of_ne same] at now
      obtain ⟨owned, absent⟩ := sound.minted who other now
      exact ⟨kept owned, absent⟩
  · by_cases same : who = producer
    · subst same
      simp only [Function.update_self, reduceCtorEq] at now
    · simp only [Function.update_of_ne same] at now
      obtain ⟨owned, listed, absent⟩ := sound.queued who other now
      exact ⟨kept owned, listed, absent⟩

/-- Every step keeps the account. -/
theorem Sound.step (sound : Sound key limit before) (step : Step key turn before after) :
    Sound key limit after := by
  cases step with
  | mint producer id fresh => exact sound.mint fresh
  | enqueue producer item now => exact sound.enqueue now
  | spawn producer id now => exact sound.spawn now
  | acquire worker now known free =>
    apply sound.restage known
    · rw [now]
      rfl
    · rw [now]
      exact nofun
    · exact nofun
    · rw [now]
      show before.permits - 1 + 1 = before.permits + 0
      omega
  | take worker item rest now first mine => exact sound.take now first
  | starve worker now nothing => exact absurd nothing (sound.pending_ne now)
  | activate worker id now => exact sound.activate now
  | finish worker now => exact sound.finish now
  | release worker now =>
    apply sound.restage (sound.known worker (by rw [now]; exact nofun))
    · rw [now]
      rfl
    · exact fun _ => rfl
    · exact nofun
    · rw [now]
      rfl

/-- A worker that is spawned stays spawned. -/
theorem Step.spawned_subset (step : Step key turn before after) : before.spawned ⊆ after.spawned := by
  cases step with
  | spawn producer id now => exact List.subset_append_left _ _
  | mint | enqueue | acquire | take | starve | activate | finish | release =>
    exact List.Subset.refl _

/-- Every run keeps the account. -/
theorem Sound.run (sound : Sound key limit before)
    (run : Relation.ReflTransGen (Step key turn) before after) : Sound key limit after := by
  induction run with
  | refl => exact sound
  | tail _ last ih => exact ih.step last

end

/-! ## What is active -/

section

variable {Producer Id Item : Type} {key : Item → Id} {limit : Nat}

/-- Workers with permits are no more than there are permits. -/
theorem Sound.holders_le {state : State Producer Id Item} (sound : Sound key limit state)
    {workers : List Id} (distinct : workers.Nodup)
    (hold : ∀ worker ∈ workers, (state.stage worker).holds) : workers.length ≤ limit := by
  have inside : workers ⊆ state.spawned.filter (fun worker => (state.stage worker).holds) := by
    intro worker member
    have holds := hold worker member
    have moved : state.stage worker ≠ .waiting := by
      intro waits
      rw [waits] at holds
      cases holds
    exact List.mem_filter.mpr ⟨sound.known worker moved, holds⟩
  have sub := (distinct.subperm inside).length_le
  rw [← List.countP_eq_length_filter] at sub
  have total := sound.permits
  omega

/-- Each worker took the item of its own id, and what is active are the ids of those that work. -/
structure Orderly (key : Item → Id) (state : State Producer Id Item) : Prop where
  own : ∀ worker item, (worker, item) ∈ state.popped → key item = worker
  working : ∀ worker, worker ∈ state.active ↔ state.stage worker = .working

/-- A new queue is in order. -/
theorem orderly_new {Producer : Type} (key : Item → Id) (limit : Nat) :
    Orderly key (State.new Producer Id Item limit) :=
  ⟨fun _ _ popped => (nomatch popped), fun _ => ⟨nofun, nofun⟩⟩

/-- A worker's item becomes active under its own id. -/
theorem Orderly.taken {state : State Producer Id Item} (orderly : Orderly key state)
    (sound : Sound key limit state) {worker id : Id} (now : state.stage worker = .taken id) :
    id = worker := by
  obtain ⟨item, popped, named⟩ := sound.taken worker id now
  exact named.symm.trans (orderly.own worker item popped)

/-- No more ids are active than there are permits. -/
theorem Orderly.active_le {state : State Producer Id Item} (orderly : Orderly key state)
    (sound : Sound key limit state) : state.active.length ≤ limit := by
  apply sound.holders_le sound.activeOnce
  intro worker member
  rw [(orderly.working worker).mp member]
  rfl

/-- Nothing is active when every worker has returned. -/
theorem Orderly.idle {state : State Producer Id Item} (orderly : Orderly key state)
    (sound : Sound key limit state)
    (returned : ∀ worker ∈ state.spawned, state.stage worker = .returned) : state.active = [] := by
  apply List.eq_nil_iff_forall_not_mem.mpr
  intro worker member
  have works := (orderly.working worker).mp member
  have listed : worker ∈ state.spawned := sound.known worker (by rw [works]; exact nofun)
  have done := returned worker listed
  rw [works] at done
  cases done

variable [DecidableEq Id] {before after : State Producer Id Item}

/-- A worker that is not at work goes on to another stage that is not work. -/
theorem Orderly.restage (orderly : Orderly key before) {worker : Id} {new : Stage Id}
    (idle : before.stage worker ≠ .working) (still : new ≠ .working) (other : Id) :
    other ∈ before.active ↔ Function.update before.stage worker new other = .working := by
  by_cases same : other = worker
  · subst same
    rw [Function.update_self, orderly.working other]
    exact ⟨fun works => absurd works idle, fun works => absurd works still⟩
  · rw [Function.update_of_ne same]
    exact orderly.working other

/-- Every step in which a worker takes only its own item keeps the order. -/
theorem Orderly.step [DecidableEq Producer] (orderly : Orderly key before)
    (sound : Sound key limit before)
    (step : Step key (fun worker item => key item = worker) before after) : Orderly key after := by
  cases step with
  | mint | enqueue | spawn => exact ⟨orderly.own, orderly.working⟩
  | acquire worker now known free =>
    exact ⟨orderly.own, orderly.restage (by rw [now]; exact nofun) nofun⟩
  | take worker item rest now first mine =>
    refine ⟨fun taker taken popped => ?_, orderly.restage (by rw [now]; exact nofun) nofun⟩
    rcases List.mem_append.mp popped with old | new
    · exact orderly.own taker taken old
    · obtain ⟨rfl, rfl⟩ := Prod.mk.inj (List.mem_singleton.mp new)
      exact mine
  | starve worker now nothing => exact absurd nothing (sound.pending_ne now)
  | activate worker id now =>
    obtain rfl := orderly.taken sound now
    refine ⟨orderly.own, fun other => ?_⟩
    simp only [List.mem_append, List.mem_singleton]
    by_cases same : other = id
    · simp [same]
    · simp only [same, or_false, Function.update_of_ne same]
      exact orderly.working other
  | finish worker now =>
    refine ⟨orderly.own, fun other => ?_⟩
    by_cases same : other = worker
    · simp [same]
    · simp only [List.mem_filter, Function.update_of_ne same, decide_eq_true_eq, ne_eq, same,
        not_false_eq_true, and_true]
      exact orderly.working other
  | release worker now =>
    exact ⟨orderly.own, orderly.restage (by rw [now]; exact nofun) nofun⟩

/-- Every run in which workers take only their own items keeps the order. -/
theorem Orderly.run [DecidableEq Producer] (orderly : Orderly key before)
    (sound : Sound key limit before)
    (run : Relation.ReflTransGen (Step key fun worker item => key item = worker) before after) :
    Orderly key after := by
  induction run with
  | refl => exact orderly
  | tail rest last ih => exact ih.step (sound.run rest) last

end

end Dispatch
