import FileDrop.Ffi.Api

/-!
# A call that fails half way

`send_files` enqueues a file and spawns its task before it looks at the next one. So a call that fails
at a path has enqueued every path before it, and leaves them on their way; only one that fails at its
first path, or before it, leaves nothing.
-/
namespace FileDrop.AllOrNothing
open FileDrop Effects Effects.Program Unix

variable {Net Choice : Type} {network : Meaning clientSig Net Choice}
variable {parse : String → Except String SocketAddr} {choices : Nat → EngineChoice Choice}
variable {addr : SocketAddr} {peerDeviceId : Uuid} {given : SendCall}

/-! ## What a call leaves -/

/-- These paths have been enqueued, and a task spawned for each. -/
structure Sent (paths : List String) (before after : EngineWorld Net) : Prop where
  active : after.queue.active = before.queue.active
  pending : ∃ entries, after.queue.pending = before.queue.pending ++ entries ∧
    entries.map (·.filePath) = paths
  tasks : ∃ tasks, after.tasks = before.tasks ++ tasks ∧ tasks.map (·.path) = paths

/-- Nothing has been enqueued. -/
theorem Sent.nothing {before after : EngineWorld Net} (queue : after.queue = before.queue)
    (tasks : after.tasks = before.tasks) : Sent [] before after where
  active := by rw [queue]
  pending := ⟨[], by rw [queue, List.append_nil], rfl⟩
  tasks := ⟨[], by rw [tasks, List.append_nil], rfl⟩

/-- One path after the other. -/
theorem Sent.trans {near far : List String} {before middle after : EngineWorld Net}
    (first : Sent near before middle) (second : Sent far middle after) :
    Sent (near ++ far) before after where
  active := second.active.trans first.active
  pending := by
    obtain ⟨entries, pending, paths⟩ := first.pending
    obtain ⟨others, later, rest⟩ := second.pending
    refine ⟨entries ++ others, ?_, ?_⟩
    · rw [later, pending, List.append_assoc]
    · rw [List.map_append, paths, rest]
  tasks := by
    obtain ⟨tasks, spawned, paths⟩ := first.tasks
    obtain ⟨others, later, rest⟩ := second.tasks
    refine ⟨tasks ++ others, ?_, ?_⟩
    · rw [later, spawned, List.append_assoc]
    · rw [List.map_append, paths, rest]

/-- The look at a path's size. -/
def reads (network : Meaning clientSig Net Choice) (choices : Nat → EngineChoice Choice)
    (world : EngineWorld Net) (path : String) : Option (Except IoError UInt64) :=
  (network world.net (.metadata path) (choices 0).net).map Prod.fst

/-- A call goes through its paths up to the first that it cannot read, and sends those before it. -/
theorem solo_sendEach {paths : List String} {ids : List Uuid} {before after : EngineWorld Net}
    {result : Except String (List Uuid)}
    (ran : (sendEach addr peerDeviceId paths ids).solo (engineExec network) choices before =
      some (result, after)) :
    ∃ sent unsent, paths = sent ++ unsent ∧ Sent sent before after ∧
      (unsent = [] ↔ ∃ made, result = .ok made) ∧
      (sent = [] ↔ ∀ path ∈ paths.head?, ∃ error, reads network choices before path = some (.error error)) := by
  induction paths generalizing ids before choices with
  | nil =>
    obtain ⟨rfl, rfl⟩ := solo_done ran
    exact ⟨[], [], rfl, .nothing rfl rfl, by simp, by simp⟩
  | cons path rest ih =>
    obtain ⟨size, middle, performed, goes⟩ := solo_perform ran
    obtain ⟨net, answered, rfl⟩ := engineExec_client performed
    have read : reads network choices before path = some size := by
      rw [reads, answered]
      rfl
    cases size with
    | error error =>
      obtain ⟨rfl, rfl⟩ := solo_done goes
      refine ⟨[], path :: rest, rfl, .nothing rfl rfl, by simp, ?_⟩
      simp [read]
    | ok totalBytes =>
      obtain ⟨id, minted, performed, goes⟩ := solo_perform goes
      obtain ⟨-, -, rfl⟩ := engineExec_newTransferId performed
      obtain ⟨done, enqueued, performed, goes⟩ := solo_perform goes
      obtain ⟨-, rfl⟩ := Prod.mk.inj (Option.some.inj performed)
      obtain ⟨done, spawned, performed, goes⟩ := solo_perform goes
      obtain ⟨-, rfl⟩ := Prod.mk.inj (Option.some.inj performed)
      obtain ⟨sent, unsent, split, later, ended, -⟩ := ih goes
      refine ⟨path :: sent, unsent, by rw [split, List.cons_append], ?_, ended, by simp [read]⟩
      change Sent ([path] ++ sent) before after
      refine Sent.trans ?_ later
      exact ⟨rfl, ⟨[_], rfl, rfl⟩, ⟨[_], rfl, rfl⟩⟩

/-! ## A call that fails -/

/-- Nothing of a call is left: the queue is as it was, and no task has been spawned that could start a
transfer. -/
structure Untouched (before after : EngineWorld Net) : Prop where
  pending : after.queue.pending = before.queue.pending
  active : after.queue.active = before.queue.active
  tasks : after.tasks = before.tasks

/-- The same of the engine of the runtime, if there is one. -/
def EngineUntouched : Option (EngineWorld Net) → Option (EngineWorld Net) → Prop
  | some before, some after => Untouched before after
  | before, after => before = none ∧ after = none

/-- Nothing is left exactly when nothing has been sent. -/
theorem Sent.same_iff {paths : List String} {before after : EngineWorld Net}
    (sent : Sent paths before after) : Untouched before after ↔ paths = [] := by
  obtain ⟨entries, pending, named⟩ := sent.pending
  obtain ⟨tasks, spawned, tasked⟩ := sent.tasks
  constructor
  · intro untouched
    have none : entries = [] := by
      have same := pending.symm.trans untouched.pending
      exact List.append_right_eq_self.mp same
    rw [← named, none]
    rfl
  · rintro rfl
    have none : entries = [] := List.map_eq_nil_iff.mp named
    have idle : tasks = [] := List.map_eq_nil_iff.mp tasked
    exact ⟨by rw [pending, none, List.append_nil], sent.active, by rw [spawned, idle, List.append_nil]⟩

/-- A call fails before its second path: there is no engine, the address cannot be parsed, or the first
path cannot be read. -/
def FailsFirst (network : Meaning clientSig Net Choice) (parse : String → Except String SocketAddr)
    (choices : Nat → EngineChoice Choice) (given : SendCall) : Option (EngineWorld Net) → Prop
  | none => True
  | some world =>
    (∃ error, parse (given.peerAddress ++ ":" ++ toString given.peerPort) = .error error) ∨
      ∀ path ∈ given.filePaths.head?, ∃ error, reads network choices world path = some (.error error)

/-- A call that fails leaves nothing exactly when it fails before its second path. -/
theorem untouched_iff {before after : Option (EngineWorld Net)} {error : String}
    (failed : sendFilesAlone network parse choices before given = some (.error error, after)) :
    EngineUntouched before after ↔ FailsFirst network parse choices given before := by
  cases before with
  | none =>
    obtain ⟨-, rfl⟩ := Prod.mk.inj (Option.some.inj failed)
    exact ⟨fun _ => trivial, fun _ => ⟨rfl, rfl⟩⟩
  | some before =>
    obtain ⟨⟨result, world⟩, ran, same⟩ := Option.map_eq_some_iff.mp failed
    obtain ⟨rfl, rfl⟩ := Prod.mk.inj same
    unfold sendFiles at ran
    cases parsed : parse (given.peerAddress ++ ":" ++ toString given.peerPort) with
    | error reason =>
      rw [parsed] at ran
      obtain ⟨-, rfl⟩ := solo_done ran
      have nothing : Untouched world world := ⟨rfl, rfl, rfl⟩
      exact ⟨fun _ => .inl ⟨reason, parsed⟩, fun _ => nothing⟩
    | ok addr =>
      rw [parsed] at ran
      obtain ⟨sent, unsent, split, left, -, first⟩ := solo_sendEach ran
      change Untouched before world ↔ _
      rw [left.same_iff, first]
      constructor
      · exact .inr
      · rintro (⟨reason, wrong⟩ | unreadable)
        · rw [parsed] at wrong
          cases wrong
        · exact unreadable

/-- A disk that has the file `a` and no other. -/
def sampleNetwork : Meaning clientSig Unit Unit
  | _, .metadata path, _ => some (if path = "a" then .ok 1 else .error .notFound, ())
  | _, _, _ => none

/-- A call for two paths on a new engine. -/
def sampleCall (paths : List String) :
    Option (Except String (List Uuid) × Option (EngineWorld Unit)) :=
  sendFilesAlone sampleNetwork (fun text => .ok ⟨text⟩) (fun _ => ⟨⟨7⟩, ()⟩) (some (.new ()))
    ⟨"10.0.0.2", 53317, ⟨1⟩, paths⟩

/-- The error of the path that is missing. -/
def missing : String := "cannot read b: No such file or directory (os error 2)"

/-- A call whose first path is missing leaves nothing. -/
theorem untouched_iff_first : ∃ after, sampleCall ["b", "a"] = some (.error missing, after) ∧
    EngineUntouched (some (.new ())) after := by
  have runs : (sampleCall ["b", "a"]).map Prod.fst = some (.error missing) := by
    decide +kernel
  obtain ⟨⟨result, after⟩, ran, failed⟩ := Option.map_eq_some_iff.mp runs
  rw [show result = .error missing from failed] at ran
  refine ⟨after, ran, (untouched_iff ran).mpr (.inr ?_)⟩
  rintro path ⟨⟩
  exact ⟨.notFound, rfl⟩

/-- A call whose second path is missing fails, and its first file is on its way. -/
theorem untouched_broken :
    ¬∀ (network : Meaning clientSig Unit Unit) (parse : String → Except String SocketAddr)
      (choices : Nat → EngineChoice Unit) (given : SendCall) (before after : Option (EngineWorld Unit))
      (error : String),
      sendFilesAlone network parse choices before given = some (.error error, after) →
      EngineUntouched before after := by
  intro always
  have runs : (sampleCall ["a", "b"]).map (fun ran => (ran.1, ran.2.map fun world =>
      (world.queue.pending.map (·.filePath), world.tasks.map (·.path)))) =
      some (.error missing, some (["a"], ["a"])) := by
    decide +kernel
  obtain ⟨⟨result, after⟩, ran, left⟩ := Option.map_eq_some_iff.mp runs
  obtain ⟨failed, sent⟩ := Prod.mk.inj left
  rw [show result = .error missing from failed] at ran
  have untouched := always _ _ _ _ _ _ _ ran
  cases after with
  | none => cases sent
  | some world =>
    have empty : world.queue.pending = [] := untouched.pending
    have listed : world.queue.pending.map (·.filePath) = ["a"] :=
      congrArg Prod.fst (Option.some.inj sent)
    rw [empty] at listed
    cases listed

/-- A retry sends again what the failed call has sent. -/
theorem retry_sends_again {before middle after : EngineWorld Net} {error : String} {ids : List Uuid}
    {later : Nat → EngineChoice Choice}
    (failed : (sendEach addr peerDeviceId given.filePaths []).solo (engineExec network) choices before =
      some (.error error, middle))
    (retried : (sendEach addr peerDeviceId given.filePaths []).solo (engineExec network) later middle =
      some (.ok ids, after)) :
    ∃ sent, sent <+: given.filePaths ∧ Sent (sent ++ given.filePaths) before after := by
  obtain ⟨sent, unsent, split, left, -, -⟩ := solo_sendEach failed
  obtain ⟨again, rest, all, done, ended, -⟩ := solo_sendEach retried
  have none : rest = [] := ended.mpr ⟨ids, rfl⟩
  rw [none, List.append_nil] at all
  rw [← all] at done
  exact ⟨sent, ⟨unsent, split.symm⟩, left.trans done⟩

end FileDrop.AllOrNothing
