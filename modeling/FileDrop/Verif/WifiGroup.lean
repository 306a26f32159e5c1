import FileDrop.Flutter.HomeFlow

/-!
# Wi-Fi Direct groups and receive mode

Something holds a group that exists: the receive state, which says that one was created; a call whose
group has just been formed; or a call that is about to remove it. Where the last hold is given up, the
group outlives receive mode.
-/
namespace FileDrop.Flutter.WifiGroup
open HomeApp

/-! ## What holds a group -/

/-- The receive state says that a group was created, so leaving receive mode removes it. -/
def Flagged (app : HomeApp) : Prop :=
  app.flow.stage = .receiveMode ∧ app.flow.receive.groupCreated = true

/-- A call that has formed a group, or is about to remove one. -/
def Holds : FlowTask → Prop
  | .groupFormed | .removingGroup => True
  | .usableLan | .serverRunning _ | .nearbyPermission | .locationPermission | .creatingGroup
  | .groupRefused _ | .groupRemoved => False

/-- The call at an identifier holds the group. -/
def HoldsAt (app : HomeApp) (id : Nat) : Prop := ∃ call, app.calls id = some call ∧ Holds call.task

/-- Something holds the group, beside a call. -/
def HeldBeside (app : HomeApp) (id : Nat) : Prop :=
  Flagged app ∨ ∃ other, other ≠ id ∧ HoldsAt app other

/-- No call is under way that has not been issued. -/
def Numbered (app : HomeApp) : Prop := ∀ id, app.issued ≤ id → app.calls id = none

/-- A group that exists is held. -/
structure Tracked (app : HomeApp) : Prop where
  numbered : Numbered app
  held : app.group = true → Flagged app ∨ ∃ id, HoldsAt app id

/-- A step does not give up the last hold on a group: `startReceive` is not called in receive mode with
the only hold in the receive state; a call that has formed a group gets its address while in receive
mode; and `removeGroup` does not fail. -/
def Keeps (app : HomeApp) : FlowMove → Prop
  | .startReceive => app.group = true → ∃ id, HoldsAt app id
  | .resume id (.info info) => app.group = true →
    HeldBeside app id ∨
      app.flow.stage = .receiveMode ∧ ∃ address, info = .groupOwnerAddress address ∧ address ≠ ""
  | .act id (.remove false) => app.group = true → HeldBeside app id
  | .createWifiDirectGroup | .retryWifiDirect | .back | .reset | .resume _ (.lan _) | .resume _ .server
  | .resume _ (.permission _) | .resume _ .refused | .resume _ .removed | .act _ .form
  | .act _ (.refuse _) | .act _ (.unhandled _) | .act _ (.remove true) => True

variable {before after : HomeApp}

/-! ## Steps -/

/-- A new call leaves the others. -/
theorem holdsAt_spawn {app : HomeApp} (fresh : before.calls before.issued = none) {session : Option Nat}
    {task : FlowTask} (same : app.calls = before.spawn session task) {id : Nat} (holds : HoldsAt before id) :
    HoldsAt app id := by
  obtain ⟨call, found, held⟩ := holds
  have apart : id ≠ before.issued := by
    rintro rfl
    rw [fresh] at found
    cases found
  refine ⟨call, ?_, held⟩
  rw [same, spawn, Function.update_of_ne apart]
  exact found

/-- A call that is started and holds nothing. -/
theorem of_holdsAt_spawn {app : HomeApp} {session : Option Nat} {task : FlowTask} (free : ¬Holds task)
    (same : app.calls = before.spawn session task) {id : Nat} (holds : HoldsAt app id) :
    HoldsAt before id := by
  obtain ⟨call, found, held⟩ := holds
  rw [same, spawn] at found
  by_cases mine : id = before.issued
  · subst mine
    rw [Function.update_self] at found
    cases found
    exact absurd held free
  · rw [Function.update_of_ne mine] at found
    exact ⟨call, found, held⟩

/-- The calls beside one that goes on. -/
theorem holdsAt_update {app : HomeApp} {id : Nat} {call : Option FlowCall}
    (same : app.calls = Function.update before.calls id call) {other : Nat} (apart : other ≠ id) :
    HoldsAt app other ↔ HoldsAt before other := by
  rw [HoldsAt, HoldsAt, same, Function.update_of_ne apart]

/-- The call that goes on. -/
theorem holdsAt_update_self {app : HomeApp} {id : Nat} {call : Option FlowCall}
    (same : app.calls = Function.update before.calls id call) :
    HoldsAt app id ↔ ∃ now, call = some now ∧ Holds now.task := by
  rw [HoldsAt, same, Function.update_self]

/-- When a call goes on and holds nothing then, the others hold what they held. -/
theorem holds_iff_beside {app : HomeApp} {id : Nat} {call : Option FlowCall}
    (same : app.calls = Function.update before.calls id call)
    (free : ∀ now, call = some now → ¬Holds now.task) :
    (∃ other, HoldsAt app other) ↔ ∃ other, other ≠ id ∧ HoldsAt before other := by
  constructor
  · rintro ⟨other, holds⟩
    have apart : other ≠ id := by
      rintro rfl
      obtain ⟨now, found, held⟩ := (holdsAt_update_self same).mp holds
      exact free now found held
    exact ⟨other, apart, (holdsAt_update same apart).mp holds⟩
  · rintro ⟨other, apart, holds⟩
    exact ⟨other, (holdsAt_update same apart).mpr holds⟩

/-- A call that held nothing and goes on takes no hold away. -/
theorem held_of_free {app : HomeApp} {id : Nat} {call : Option FlowCall} {old : FlowCall}
    (same : app.calls = Function.update before.calls id call) (found : before.calls id = some old)
    (free : ¬Holds old.task) (flagged : Flagged before → Flagged app)
    (held : Flagged before ∨ ∃ other, HoldsAt before other) : Flagged app ∨ ∃ other, HoldsAt app other := by
  refine held.imp flagged ?_
  rintro ⟨other, holds⟩
  have apart : other ≠ id := by
    rintro rfl
    obtain ⟨now, there, held⟩ := holds
    rw [found] at there
    obtain rfl := Option.some.inj there
    exact free held
  exact ⟨other, (holdsAt_update same apart).mpr holds⟩

/-- Only calls that were issued go on. -/
theorem numbered_update (numbered : Numbered before) {id : Nat} {old : FlowCall} {call : Option FlowCall}
    (found : before.calls id = some old) (flow : HomeFlowState) (group : Bool) :
    Numbered { before with flow, group, calls := Function.update before.calls id call } := by
  intro other late
  have apart : other ≠ id := by
    rintro rfl
    rw [numbered other late] at found
    cases found
  simp only [Function.update_of_ne apart]
  exact numbered other late

/-- A call more has been issued. -/
theorem numbered_spawn (numbered : Numbered before) (flow : HomeFlowState) (opened : Nat)
    (session : Option Nat) (task : FlowTask) :
    Numbered { before with
      flow, session := opened, issued := before.issued + 1, calls := before.spawn session task } := by
  intro other late
  have late : before.issued + 1 ≤ other := late
  have apart : other ≠ before.issued := by omega
  simp only [spawn, Function.update_of_ne apart]
  exact numbered other (by omega)

/-- Leaving receive mode issues at most one call. -/
theorem numbered_leave (numbered : Numbered before) (flow : HomeFlowState) (removes : Bool) :
    Numbered (before.leave flow removes) := by
  cases removes with
  | true => exact numbered_spawn numbered flow before.session _ _
  | false => exact numbered

/-- Calls are numbered in every step. -/
theorem numbered_step {move : FlowMove} (numbered : Numbered before)
    (stepped : step before move = some after) : Numbered after := by
  cases move with
  | startReceive =>
    cases stepped
    exact numbered_spawn numbered _ _ _ _
  | createWifiDirectGroup =>
    cases stepped
    exact numbered_spawn numbered _ before.session _ _
  | retryWifiDirect =>
    cases stepped
    exact numbered
  | back | reset =>
    cases stepped
    exact numbered_leave numbered _ _
  | resume id answer =>
    obtain ⟨call, flow, next, found, -, rfl⟩ := step_resume stepped
    exact numbered_update numbered found flow before.group
  | act id act =>
    obtain ⟨call, group, next, found, -, rfl⟩ := step_act stepped
    exact numbered_update numbered found before.flow group

/-! ## What follows an `await` -/

/-- Where a call goes on it holds nothing. -/
def Lets (next : Option FlowTask) : Prop := ∀ now, next = some now → ¬Holds now

/-- A call that has ended holds nothing. -/
theorem lets_none : Lets none := fun _ same => by cases same

/-- A call that goes on where nothing is held. -/
theorem lets_some {task : FlowTask} (free : ¬Holds task) : Lets (some task) :=
  fun _ same => Option.some.inj same ▸ free

/-- An error leaves the flag. -/
theorem groupFailed_flag (state : HomeFlowState) (failure : GroupFailure) :
    (groupFailed state failure).receive.groupCreated = state.receive.groupCreated := by
  unfold groupFailed
  split
  · rfl
  · rfl

/-- A call that has not formed a group leaves the flag, and holds nothing next. -/
theorem resume_still {state flow : HomeFlowState} {task : FlowTask} {answer : FlowAnswer}
    {next : Option FlowTask} (unformed : task ≠ .groupFormed)
    (resumed : resume state task answer = some (flow, next)) :
    flow.receive.groupCreated = state.receive.groupCreated ∧ Lets next := by
  unfold resume at resumed
  split at resumed
  · rename_i ip
    unfold lanChecked at resumed
    split at resumed
    · cases resumed
      exact ⟨rfl, lets_none⟩
    · cases ip with
      | none =>
        cases resumed
        exact ⟨rfl, lets_none⟩
      | some address =>
        cases resumed
        exact ⟨rfl, lets_some not_false⟩
  · cases resumed
    unfold serverEnsured
    split
    · exact ⟨rfl, lets_none⟩
    · exact ⟨rfl, lets_none⟩
  · cases resumed
    exact ⟨rfl, lets_some not_false⟩
  · cases resumed
    exact ⟨rfl, lets_some not_false⟩
  · cases resumed
    exact ⟨groupFailed_flag state _, lets_none⟩
  · cases resumed
    exact ⟨rfl, lets_some not_false⟩
  · cases resumed
    exact ⟨rfl, lets_none⟩
  · cases resumed
    exact ⟨groupFailed_flag state _, lets_none⟩
  · exact absurd rfl unformed
  · cases resumed
    exact ⟨groupFailed_flag state _, lets_none⟩
  · cases resumed
    exact ⟨rfl, lets_none⟩
  · cases resumed

/-- A call that has formed a group sets the flag if the address arrives in receive mode, leaves it
otherwise, and holds nothing next. -/
theorem resume_formed {state flow : HomeFlowState} {info : ConnectionInfo} {next : Option FlowTask}
    (resumed : resume state .groupFormed (.info info) = some (flow, next)) :
    Lets next ∧ (flow.receive.groupCreated = true ↔ state.receive.groupCreated = true ∨
      state.stage = .receiveMode ∧ ∃ address, info = .groupOwnerAddress address ∧ address ≠ "") := by
  have known : groupAnswered state (createGroup (requestGroupOwnerAddress info)) = (flow, next) :=
    Option.some.inj resumed
  cases result : createGroup (requestGroupOwnerAddress info) with
  | ok address =>
    have there : ∃ address, info = .groupOwnerAddress address ∧ address ≠ "" :=
      ⟨address, createGroup_ok.mp result⟩
    rw [result, groupAnswered] at known
    split at known
    · rename_i left
      cases known
      exact ⟨lets_none, (or_iff_left fun both => left both.1).symm⟩
    · rename_i staying
      cases known
      exact ⟨lets_some not_false, iff_of_true rfl (.inr ⟨not_not.mp staying, there⟩)⟩
  | error failure =>
    have absent : ¬∃ address, info = .groupOwnerAddress address ∧ address ≠ "" := by
      rintro ⟨address, there⟩
      rw [createGroup_ok.mpr there] at result
      cases result
    rw [result, groupAnswered] at known
    cases known
    rw [groupFailed_flag]
    exact ⟨lets_none, (or_iff_left fun both => absent both.2).symm⟩

/-- A call that goes on in the app and had not formed a group held nothing. -/
theorem free_of_resume {state flow : HomeFlowState} {task : FlowTask} {answer : FlowAnswer}
    {next : Option FlowTask} (unformed : task ≠ .groupFormed)
    (resumed : resume state task answer = some (flow, next)) : ¬Holds task := by
  cases task with
  | usableLan | serverRunning | nearbyPermission | locationPermission | creatingGroup | groupRefused
  | groupRemoved => exact id
  | groupFormed => exact absurd rfl unformed
  | removingGroup =>
    cases answer with
    | lan | server | permission | info | refused | removed => cases resumed

/-! ## Steps of the app -/

/-- Leaving receive mode with the flag set starts a call that is to remove the group. -/
theorem tracked_leave (tracked : Tracked before) {flow : HomeFlowState} {removes : Bool}
    (flagged : Flagged before → removes = true) : Tracked (before.leave flow removes) := by
  refine ⟨numbered_leave tracked.numbered flow removes, fun group => ?_⟩
  cases removes with
  | true => exact .inr ⟨before.issued, ⟨before.opened, .removingGroup⟩, Function.update_self .., trivial⟩
  | false =>
    refine .inr ?_
    exact (tracked.held group).resolve_left fun flag => Bool.false_ne_true (flagged flag)

/-- What follows the `await` of a call that holds no group gives up no hold. -/
theorem keeps_of_free (tracked : Tracked before) {id : Nat} {answer : FlowAnswer} {call : FlowCall}
    (found : before.calls id = some call) (free : ¬Holds call.task) :
    Keeps before (.resume id answer) := by
  cases answer with
  | lan | server | permission | refused | removed => trivial
  | info info =>
    intro group
    refine .inl ((tracked.held group).imp_right ?_)
    rintro ⟨other, holds⟩
    refine ⟨other, ?_, holds⟩
    rintro rfl
    obtain ⟨now, there, held⟩ := holds
    rw [found] at there
    obtain rfl := Option.some.inj there
    exact free held

/-- What follows an `await` gives up no hold, unless a group was formed and is not flagged. -/
theorem tracked_resume (tracked : Tracked before) {id : Nat} {answer : FlowAnswer}
    (stepped : step before (.resume id answer) = some after) :
    Tracked after ↔ Keeps before (.resume id answer) := by
  have numbered := numbered_step tracked.numbered stepped
  obtain ⟨call, flow, next, found, resumed, rfl⟩ := step_resume stepped
  have stage := resume_stage resumed
  have lets (free : Lets next) (now : FlowCall) (same : next.map (⟨call.session, ·⟩) = some now) :
      ¬Holds now.task := by
    obtain ⟨task, there, rfl⟩ := Option.map_eq_some_iff.mp same
    exact free task there
  by_cases formed : call.task = .groupFormed
  · rw [formed] at resumed
    cases answer with
    | lan | server | permission | refused | removed => cases resumed
    | info info =>
      obtain ⟨free, flag⟩ := resume_formed resumed
      have flagged : Flagged { before with flow } ↔ Flagged before ∨ before.flow.stage = .receiveMode ∧
          ∃ address, info = .groupOwnerAddress address ∧ address ≠ "" := by
        rw [Flagged, Flagged, stage, flag]
        tauto
      have beside : (∃ other, HoldsAt { before with
          flow, calls := Function.update before.calls id (next.map (⟨call.session, ·⟩)) } other) ↔
          ∃ other, other ≠ id ∧ HoldsAt before other := holds_iff_beside rfl (lets free)
      constructor
      · intro after group
        have held := after.held group
        rw [beside] at held
        rcases held with flag | others
        · exact (flagged.mp flag).imp_left .inl
        · exact .inl (.inr others)
      · intro keeps
        refine ⟨numbered, fun group => ?_⟩
        rw [beside]
        rcases keeps group with (flag | others) | arrived
        · exact .inl (flagged.mpr (.inl flag))
        · exact .inr others
        · exact .inl (flagged.mpr (.inr arrived))
  · obtain ⟨flag, -⟩ := resume_still formed resumed
    have free := free_of_resume formed resumed
    have kept : Tracked { before with
        flow, calls := Function.update before.calls id (next.map (⟨call.session, ·⟩)) } := by
      refine ⟨numbered, fun group => held_of_free rfl found free (fun flagged => ?_) (tracked.held group)⟩
      rw [Flagged, stage, flag]
      exact flagged
    exact iff_of_true kept (keeps_of_free tracked found free)

/-- The platform gives up no hold, unless it fails to remove a group. -/
theorem tracked_act (tracked : Tracked before) {id : Nat} {act : PlatformAct}
    (stepped : step before (.act id act) = some after) : Tracked after ↔ Keeps before (.act id act) := by
  have numbered := numbered_step tracked.numbered stepped
  obtain ⟨⟨session, task⟩, group, next, found, acted, rfl⟩ := step_act stepped
  have refused (still : group = before.group) (free : ¬Holds task) : Tracked { before with
      group, calls := Function.update before.calls id (some ⟨session, next⟩) } :=
    ⟨numbered, fun there => held_of_free rfl found free (fun flagged => flagged)
      (tracked.held (still ▸ there))⟩
  cases task with
  | creatingGroup =>
    cases act with
    | form =>
      cases acted
      exact iff_of_true ⟨numbered, fun _ => .inr ⟨id, _, Function.update_self .., trivial⟩⟩ trivial
    | refuse refusal =>
      cases acted
      exact iff_of_true (refused rfl not_false) trivial
    | unhandled text =>
      cases acted
      exact iff_of_true (refused rfl not_false) trivial
    | remove gone => cases acted
  | removingGroup =>
    cases act with
    | form | refuse | unhandled => cases acted
    | remove gone =>
      cases acted
      cases gone with
      | true =>
        refine iff_of_true ⟨numbered, fun there => ?_⟩ trivial
        rw [Bool.not_true, Bool.and_false] at there
        cases there
      | false =>
        have beside : (∃ other, HoldsAt { before with
            group := before.group && !false
            calls := Function.update before.calls id (some ⟨session, .groupRemoved⟩) } other) ↔
            ∃ other, other ≠ id ∧ HoldsAt before other := by
          refine holds_iff_beside rfl fun now same => ?_
          obtain rfl := Option.some.inj same
          exact not_false
        constructor
        · intro after group
          have held := after.held (by rw [group]; rfl)
          rwa [beside] at held
        · intro keeps
          refine ⟨numbered, fun group => ?_⟩
          rw [beside]
          exact keeps (by rwa [Bool.not_false, Bool.and_true] at group)
  | usableLan | serverRunning | nearbyPermission | locationPermission | groupFormed | groupRefused
  | groupRemoved =>
    cases act with
    | form | refuse | unhandled | remove => cases acted

/-- From an app whose group is held, a step keeps it so exactly if it does not give up the last hold. -/
theorem tracked_step {move : FlowMove} (tracked : Tracked before) (stepped : step before move = some after) :
    Tracked after ↔ Keeps before move := by
  have fresh := tracked.numbered before.issued (Nat.le_refl _)
  have numbered := numbered_step tracked.numbered stepped
  cases move with
  | startReceive =>
    cases stepped
    have free : ¬Holds .usableLan := not_false
    constructor
    · intro after group
      have held := (after.held group).resolve_left fun flag => Bool.false_ne_true flag.2
      exact held.imp fun id holds => of_holdsAt_spawn free rfl holds
    · intro keeps
      refine ⟨numbered, fun group => .inr ?_⟩
      exact (keeps group).imp fun id holds => holdsAt_spawn fresh rfl holds
  | createWifiDirectGroup =>
    cases stepped
    refine iff_of_true ⟨numbered, fun group => ?_⟩ trivial
    exact (tracked.held group).imp id (Exists.imp fun id holds => holdsAt_spawn fresh rfl holds)
  | retryWifiDirect =>
    cases stepped
    exact iff_of_true ⟨numbered, tracked.held⟩ trivial
  | back =>
    cases stepped
    refine iff_of_true (tracked_leave tracked ?_) trivial
    rintro ⟨stage, flag⟩
    rw [backRemoves, flag, stage]
    rfl
  | reset =>
    cases stepped
    exact iff_of_true (tracked_leave tracked fun flagged => flagged.2) trivial
  | resume id answer => exact tracked_resume tracked stepped
  | act id act => exact tracked_act tracked stepped

/-- At first there is no group. -/
theorem tracked_new : Tracked .new := ⟨fun _ _ => rfl, nofun⟩

/-! ## What is outstanding -/

/-- A call of the platform. -/
def OfPlatform : FlowTask → Prop
  | .nearbyPermission | .locationPermission | .creatingGroup | .groupFormed | .groupRefused _
  | .removingGroup | .groupRemoved => True
  | .usableLan | .serverRunning _ => False

/-- No call of the platform is outstanding under an identifier. -/
def SettledAt (app : HomeApp) (id : Nat) : Prop :=
  ∀ call, app.calls id = some call → ¬OfPlatform call.task

/-- A call that holds a group is one of the platform. -/
theorem ofPlatform_of_holds {task : FlowTask} (holds : Holds task) : OfPlatform task := by
  cases task with
  | groupFormed | removingGroup => trivial
  | usableLan | serverRunning | nearbyPermission | locationPermission | creatingGroup | groupRefused
  | groupRemoved => exact holds.elim

/-- The user has left receive mode, and nothing holds the group that exists. -/
structure Lost (app : HomeApp) : Prop where
  numbered : Numbered app
  left : app.flow.stage ≠ .receiveMode
  group : app.group = true
  free : ∀ id, ¬HoldsAt app id

/-- A lost group stays lost when a call goes on and holds nothing. -/
theorem lost_update {id : Nat} {old : FlowCall} {call : Option FlowCall} (lost : Lost before)
    (found : before.calls id = some old) (free : ∀ now, call = some now → ¬Holds now.task)
    {flow : HomeFlowState} (stage : flow.stage = before.flow.stage) :
    Lost { before with flow, calls := Function.update before.calls id call } where
  numbered := numbered_update lost.numbered found flow before.group
  left := fun receiving => lost.left (stage.symm.trans receiving)
  group := lost.group
  free other holds := by
    by_cases mine : other = id
    · subst mine
      obtain ⟨now, there, held⟩ := (holdsAt_update_self rfl).mp holds
      exact free now there held
    · exact lost.free other ((holdsAt_update rfl mine).mp holds)

/-- The call at an identifier can come to its end, with the group still lost. -/
def Settles (app : HomeApp) (id : Nat) : Prop :=
  ∃ later, Machine.Reaches step Keeps app later ∧ Lost later ∧ SettledAt later id ∧
    ∀ other, other ≠ id → later.calls other = app.calls other

/-- A call that is not the platform's has nothing to settle. -/
theorem settles_aside {app : HomeApp} {id : Nat} (lost : Lost app) (aside : SettledAt app id) :
    Settles app id :=
  ⟨app, .refl, lost, aside, fun _ _ => rfl⟩

/-- A call settles if it does so after a step of its own. -/
theorem settles_step {app after : HomeApp} {id : Nat} {move : FlowMove} (keeps : Keeps app move)
    (stepped : step app move = some after)
    (others : ∀ other, other ≠ id → after.calls other = app.calls other) (settles : Settles after id) :
    Settles app id := by
  obtain ⟨later, path, lost, settled, same⟩ := settles
  exact ⟨later, .head ⟨move, keeps, stepped⟩ path, lost, settled,
    fun other apart => (same other apart).trans (others other apart)⟩

/-- A call settles if what follows its `await` does. -/
theorem settles_resume {app : HomeApp} {id : Nat} {session : Option Nat} {task : FlowTask}
    {answer : FlowAnswer} {flow : HomeFlowState} {next : Option FlowTask} (lost : Lost app)
    (keeps : Keeps app (.resume id answer)) (found : app.calls id = some ⟨session, task⟩)
    (resumed : resume app.flow task answer = some (flow, next)) (free : Lets next)
    (settles : ∀ after, Lost after → after.calls id = next.map (⟨session, ·⟩) → Settles after id) :
    Settles app id := by
  have stepped : step app (.resume id answer) = some { app with
      flow, calls := Function.update app.calls id (next.map (⟨session, ·⟩)) } := by
    simp only [step, found, Option.bind_some, resumed, Option.map_some]
  refine settles_step keeps stepped (fun other apart => Function.update_of_ne apart ..) (settles _ ?_ ?_)
  · refine lost_update lost found (fun now same => ?_) (resume_stage resumed)
    obtain ⟨task, there, rfl⟩ := Option.map_eq_some_iff.mp same
    exact free task there
  · exact Function.update_self ..

/-- A call that has ended is settled. -/
theorem settles_ended {app : HomeApp} {id : Nat} (lost : Lost app) (ended : app.calls id = none) :
    Settles app id := by
  refine settles_aside lost fun call found => ?_
  rw [ended] at found
  cases found

/-- Every call can come to its end: permissions are denied, and the platform refuses. -/
theorem settles_of_lost {app : HomeApp} (lost : Lost app) (id : Nat) : Settles app id := by
  have located {app : HomeApp} {session : Option Nat} (lost : Lost app)
      (found : app.calls id = some ⟨session, .locationPermission⟩) : Settles app id := by
    have keeps : Keeps app (.resume id (.permission (.ok false))) := trivial
    exact settles_resume lost keeps found rfl lets_none fun after lost ended => settles_ended lost ended
  have refused {app : HomeApp} {session : Option Nat} {failure : GroupFailure} (lost : Lost app)
      (found : app.calls id = some ⟨session, .groupRefused failure⟩) : Settles app id := by
    have keeps : Keeps app (.resume id .refused) := trivial
    exact settles_resume lost keeps found rfl lets_none
      fun after lost ended => settles_ended lost ended
  cases found : app.calls id with
  | none => exact settles_ended lost found
  | some call =>
    obtain ⟨session, task⟩ := call
    cases task with
    | usableLan | serverRunning =>
      refine settles_aside lost fun call same => ?_
      rw [found] at same
      obtain rfl := Option.some.inj same
      exact not_false
    | nearbyPermission =>
      have keeps : Keeps app (.resume id (.permission (.ok false))) := trivial
      exact settles_resume lost keeps found rfl (lets_some not_false)
        fun after lost next => located lost next
    | locationPermission => exact located lost found
    | creatingGroup =>
      have stepped : step app (.act id (.refuse .unavailable)) = some { app with
          calls := Function.update app.calls id
            (some ⟨session, .groupRefused (.wifiDirect (messageFor CreateRefusal.unavailable.exception))⟩) } := by
        simp only [step, found, Option.bind_some, Flutter.act, Option.map_some]
      have keeps : Keeps app (.act id (.refuse .unavailable)) := trivial
      refine settles_step keeps stepped (fun other apart => Function.update_of_ne apart ..)
        (refused (lost_update lost found (fun now same => ?_) rfl) (Function.update_self ..))
      obtain rfl := Option.some.inj same
      exact not_false
    | groupRefused failure => exact refused lost found
    | groupFormed | removingGroup => exact absurd ⟨_, found, trivial⟩ (lost.free id)
    | groupRemoved =>
      have keeps : Keeps app (.resume id .removed) := trivial
      exact settles_resume lost keeps found rfl lets_none
        fun after lost ended => settles_ended lost ended

/-- All of them can. -/
theorem settled_of_lost {app : HomeApp} (lost : Lost app) :
    ∃ later, Machine.Reaches step Keeps app later ∧ Lost later ∧ ∀ id, SettledAt later id := by
  have upTo (count : Nat) : ∃ later, Machine.Reaches step Keeps app later ∧ Lost later ∧
      ∀ id, id < count ∨ app.calls id = none → SettledAt later id := by
    induction count with
    | zero =>
      refine ⟨app, .refl, lost, fun id early => ?_⟩
      have ended := early.resolve_left (Nat.not_lt_zero id)
      exact fun call found => by rw [ended] at found; cases found
    | succ count ih =>
      obtain ⟨middle, path, lost, settled⟩ := ih
      obtain ⟨later, more, lost, last, same⟩ := settles_of_lost lost count
      refine ⟨later, path.trans more, lost, fun id early => ?_⟩
      by_cases mine : id = count
      · exact mine ▸ last
      · have before : id < count ∨ app.calls id = none := early.imp_left (by omega)
        rw [SettledAt, same id mine]
        exact settled id before
  obtain ⟨later, path, lost', settled⟩ := upTo app.issued
  refine ⟨later, path, lost', fun id => settled id ?_⟩
  by_cases early : id < app.issued
  · exact .inl early
  · exact .inr (lost.numbered id (Nat.le_of_not_lt early))

/-! ## After receive mode -/

/-- Outside receive mode and with no call of the platform outstanding, there is no group. -/
def Released (app : HomeApp) : Prop :=
  app.flow.stage ≠ .receiveMode → (∀ id, SettledAt app id) → app.group = false

/-- A group that is held is released. -/
theorem Tracked.released {app : HomeApp} (tracked : Tracked app) : Released app := by
  intro left settled
  by_contra there
  rcases tracked.held (Bool.eq_true_of_not_eq_false there) with flagged | ⟨id, call, found, holds⟩
  · exact left flagged.1
  · exact settled id call found (ofPlatform_of_holds holds)

/-- A group that nothing holds outlives receive mode in some continuation. -/
theorem outlives_of_untracked {app : HomeApp} (numbered : Numbered app) (untracked : ¬Tracked app) :
    ∃ later, Machine.Reaches step Keeps app later ∧ ¬Released later := by
  have unheld : ¬(app.group = true → Flagged app ∨ ∃ id, HoldsAt app id) :=
    fun held => untracked ⟨numbered, held⟩
  obtain ⟨group, none⟩ := Classical.not_imp.mp unheld
  obtain ⟨unflagged, free⟩ := not_or.mp none
  have outlives {left : HomeApp} (lost : Lost left) :
      ∃ later, Machine.Reaches step Keeps left later ∧ ¬Released later := by
    obtain ⟨later, path, lost, settled⟩ := settled_of_lost lost
    refine ⟨later, path, fun released => ?_⟩
    have gone := released lost.left settled
    rw [lost.group] at gone
    cases gone
  by_cases receiving : app.flow.stage = .receiveMode
  · have kept : backRemoves app.flow = false := by
      have unset : app.flow.receive.groupCreated = false :=
        Bool.eq_false_of_not_eq_true fun flag => unflagged ⟨receiving, flag⟩
      rw [backRemoves, unset, Bool.and_false]
    have stepped : step app .back = some { app with flow := back app.flow } := by
      rw [step, kept]
      rfl
    have lost : Lost { app with flow := back app.flow } := by
      refine ⟨numbered, ?_, group, fun id holds => free ⟨id, holds⟩⟩
      exact back_stage app.flow
    obtain ⟨later, path, outlived⟩ := outlives lost
    exact ⟨later, .head ⟨.back, trivial, stepped⟩ path, outlived⟩
  · exact outlives ⟨numbered, receiving, group, fun id holds => free ⟨id, holds⟩⟩

/-- In every run in which no step gives up the last hold on a group: no group outlives receive mode. And
after a step that gives it up one does, in some continuation. -/
theorem group_released {app : HomeApp} (path : Machine.Reaches step Keeps .new app) :
    Released app ∧ ∀ move after, step app move = some after →
      ((∀ later, Machine.Reaches step Keeps after later → Released later) ↔ Keeps app move) := by
  have tracked : Tracked app :=
    path.invariant tracked_new fun _ _ _ tracked keeps stepped => (tracked_step tracked stepped).mpr keeps
  refine ⟨tracked.released, fun move after stepped => ⟨fun released => ?_, fun keeps later more => ?_⟩⟩
  · by_contra loses
    have untracked : ¬Tracked after := fun held => loses ((tracked_step tracked stepped).mp held)
    have numbered := numbered_step tracked.numbered stepped
    obtain ⟨later, more, outlived⟩ := outlives_of_untracked numbered untracked
    exact outlived (released later more)
  · have start : Tracked after := (tracked_step tracked stepped).mpr keeps
    have held : Tracked later :=
      more.invariant start fun _ _ _ tracked keeps stepped => (tracked_step tracked stepped).mpr keeps
    exact held.released

/-! ## A group without an address -/

/-- Enter receive mode, create a group, let the platform form it, and leave without its address. -/
def nameless : List FlowMove :=
  [.startReceive, .createWifiDirectGroup, .resume 1 (.permission (.ok true)), .act 1 .form,
    .resume 1 (.info .none), .back]

/-- Whether the first calls are settled. -/
def settledUpTo (app : HomeApp) : Nat → Bool
  | 0 => true
  | count + 1 => (app.calls count).all (fun call => decide (call.task = .usableLan)) &&
      settledUpTo app count

/-- The calls that are issued are all. -/
theorem settledAt_of_upTo {app : HomeApp} (numbered : Numbered app)
    (settled : settledUpTo app app.issued = true) (id : Nat) : SettledAt app id := by
  have early (count : Nat) (settled : settledUpTo app count = true) (less : id < count) :
      SettledAt app id := by
    induction count with
    | zero => exact absurd less (Nat.not_lt_zero id)
    | succ count ih =>
      obtain ⟨last, others⟩ := Bool.and_eq_true_iff.mp settled
      by_cases mine : id = count
      · intro call found
        rw [← mine, found, Option.all_some, decide_eq_true_eq] at last
        rw [last]
        exact not_false
      · exact ih others (by omega)
  by_cases less : id < app.issued
  · exact early app.issued settled less
  · intro call found
    rw [numbered id (Nat.le_of_not_lt less)] at found
    cases found

/-- Calls are numbered in every run. -/
theorem numbered_reached {app : HomeApp} (path : Machine.Reaches step (fun _ _ => True) .new app) :
    Numbered app := by
  have start : Numbered .new := fun _ _ => rfl
  exact path.invariant start fun _ _ _ numbered _ stepped => numbered_step numbered stepped

/-- A step of a run in which everything goes well. -/
def Smooth (app : HomeApp) : FlowMove → Prop
  | .startReceive => app.group = false
  | .resume _ (.info info) =>
    app.flow.stage = .receiveMode ∧ info ≠ .none ∧ info ≠ .permissionDenied ∧ info ≠ .groupOwnerAddress ""
  | .act _ (.remove gone) => gone = true
  | .createWifiDirectGroup | .retryWifiDirect | .back | .reset | .resume _ (.lan _) | .resume _ .server
  | .resume _ (.permission _) | .resume _ .refused | .resume _ .removed | .act _ .form
  | .act _ (.refuse _) | .act _ (.unhandled _) => True

instance (app : HomeApp) (move : FlowMove) : Decidable (Smooth app move) :=
  match move with
  | .startReceive => inferInstanceAs (Decidable (_ = _))
  | .resume _ (.info _) => inferInstanceAs (Decidable (_ ∧ _))
  | .act _ (.remove _) => inferInstanceAs (Decidable (_ = _))
  | .createWifiDirectGroup | .retryWifiDirect | .back | .reset | .resume _ (.lan _) | .resume _ .server
  | .resume _ (.permission _) | .resume _ .refused | .resume _ .removed | .act _ .form
  | .act _ (.refuse _) | .act _ (.unhandled _) => inferInstanceAs (Decidable True)

/-- It gives up no hold. -/
theorem keeps_of_smooth {app : HomeApp} {move : FlowMove} (smooth : Smooth app move) : Keeps app move := by
  cases move with
  | startReceive =>
    intro group
    rw [show app.group = false from smooth] at group
    cases group
  | createWifiDirectGroup | retryWifiDirect | back | reset => trivial
  | resume id answer =>
    cases answer with
    | lan | server | permission | refused | removed => trivial
    | info info =>
      obtain ⟨receiving, some, permitted, filled⟩ := smooth
      refine fun _ => .inr ⟨receiving, ?_⟩
      cases info with
      | none => exact absurd rfl some
      | permissionDenied => exact absurd rfl permitted
      | groupOwnerAddress address => exact ⟨address, rfl, fun empty => filled (congrArg _ empty)⟩
  | act id act =>
    cases act with
    | form | refuse | unhandled => trivial
    | remove gone =>
      obtain rfl : gone = true := smooth
      trivial

/-- Enter receive mode, create a group, get its address and leave, and the platform removes the group. -/
def leaving : List FlowMove :=
  [.startReceive, .createWifiDirectGroup, .resume 1 (.permission (.ok true)), .act 1 .form,
    .resume 1 (.info (.groupOwnerAddress "192.168.49.1")), .back, .act 2 (.remove true),
    .resume 2 .removed]

/-- A group whose address has arrived does not outlive receive mode. -/
theorem group_released_left : ∃ app, Machine.run step Smooth leaving .new = some app ∧
    app.flow.stage = .idle ∧ app.issued = 3 ∧ Released app := by
  have runs : (Machine.run step Smooth leaving .new).map (fun app =>
      decide (app.flow.stage = .idle ∧ app.issued = 3)) = some true := by
    decide +kernel
  obtain ⟨app, ran, facts⟩ := Option.map_eq_some_iff.mp runs
  obtain ⟨left, issued⟩ := of_decide_eq_true facts
  have path : Machine.Reaches step Keeps .new app :=
    (Machine.reaches_of_run ran).mono fun _ _ smooth => keeps_of_smooth smooth
  exact ⟨app, ran, left, issued, (group_released path).1⟩

/-- A group whose address did not arrive outlives receive mode. -/
theorem group_released_broken :
    ¬∀ app, Machine.Reaches step (fun _ _ => True) .new app → Released app := by
  intro always
  have runs : (Machine.run step (fun _ _ => True) nameless .new).map (fun app =>
      decide (app.flow.stage = .idle ∧ app.group = true ∧ settledUpTo app app.issued = true)) =
        some true := by
    decide +kernel
  obtain ⟨app, ran, facts⟩ := Option.map_eq_some_iff.mp runs
  obtain ⟨left, group, settled⟩ := of_decide_eq_true facts
  have path : Machine.Reaches step (fun _ _ => True) .new app := Machine.reaches_of_run ran
  have away : app.flow.stage ≠ .receiveMode := by
    rw [left]
    exact nofun
  have gone := always app path away (settledAt_of_upTo (numbered_reached path) settled)
  rw [group] at gone
  cases gone

end FileDrop.Flutter.WifiGroup
