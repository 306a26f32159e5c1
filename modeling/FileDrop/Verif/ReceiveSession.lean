import FileDrop.Flutter.HomeFlow

/-!
# Receive sessions

What follows an `await` looks whether the app is in receive mode, and not whether it still is in the
session that the call was started in. So a call of an earlier session writes into the receive state of
the session that is open, unless what it writes is there already.
-/
namespace FileDrop.Flutter.ReceiveSession
open HomeApp

/-! ## What a completion writes -/

/-- The receive state shows an error. -/
def shows (receive : ReceiveState) (message : String) : Bool :=
  receive.stage = .wifiDirectError && receive.errorMessage = some message

/-- What `createGroup` returns or throws is not in the receive state already. -/
def writesGroup (receive : ReceiveState) : Except GroupFailure String → Bool
  | .ok _ => !receive.groupCreated
  | .error failure => !shows receive failure.text

/-- What a call completes with is to be written in receive mode, and is not there already. -/
def writes (receive : ReceiveState) : FlowTask → FlowAnswer → Bool
  | .usableLan, .lan none => receive.stage ≠ .noLanFound
  | .serverRunning address, .server => !(receive.stage = .waiting && receive.address = some address)
  | .nearbyPermission, .permission (.error text) => writesGroup receive (.error (.other text))
  | .locationPermission, .permission (.ok false) => !shows receive deniedMessage
  | .locationPermission, .permission (.error text) => writesGroup receive (.error (.other text))
  | .groupFormed, .info info => writesGroup receive (createGroup (requestGroupOwnerAddress info))
  | .groupRefused failure, .refused => writesGroup receive (.error failure)
  | _, _ => false

/-- A field that is given is the old one exactly if that is what is given. -/
theorem getD_eq_iff {α : Type} {given : Option α} {old : α} :
    given.getD old = old ↔ ∀ new ∈ given, old = new := by
  cases given with
  | none => exact iff_of_true rfl fun _ member => absurd member.symm (Option.some_ne_none _)
  | some new => simp only [Option.getD_some, Option.mem_some_iff, forall_eq', eq_comm]

/-- So with a field that may be absent. -/
theorem orElse_eq_iff {α : Type} {given old : Option α} :
    (given <|> old) = old ↔ ∀ new ∈ given, old = some new := by
  cases given with
  | none => exact iff_of_true rfl fun _ member => absurd member.symm (Option.some_ne_none _)
  | some new =>
    change some new = old ↔ _
    simp only [Option.mem_some_iff, forall_eq', eq_comm]

/-- A copy is the old state exactly if what is given is there already. -/
theorem copyWith_eq_iff (receive : ReceiveState) (stage : Option ReceiveStage)
    (address errorMessage : Option String) (groupCreated : Option Bool) :
    receive.copyWith stage address errorMessage groupCreated false = receive ↔
      (∀ new ∈ stage, receive.stage = new) ∧ (∀ new ∈ address, receive.address = some new) ∧
        (∀ new ∈ errorMessage, receive.errorMessage = some new) ∧
        ∀ new ∈ groupCreated, receive.groupCreated = new := by
  rw [← getD_eq_iff, ← orElse_eq_iff, ← orElse_eq_iff, ← getD_eq_iff]
  obtain ⟨oldStage, oldAddress, oldMessage, oldCreated⟩ := receive
  exact Iff.of_eq (ReceiveState.mk.injEq ..)

/-- An error is written unless it is shown. -/
theorem showError_iff (state : HomeFlowState) (message : String) :
    (showError state message).receive ≠ state.receive ↔ shows state.receive message = false := by
  rw [showError, HomeFlowState.withReceive_receive, ne_eq, copyWith_eq_iff, ← Bool.not_eq_true]
  simp [shows]

/-- In receive mode so is what `createGroup` returns or throws. -/
theorem groupAnswered_iff {state : HomeFlowState} (receiving : state.stage = .receiveMode)
    (result : Except GroupFailure String) :
    (groupAnswered state result).1.receive ≠ state.receive ↔ writesGroup state.receive result = true := by
  have staying : ¬state.stage ≠ .receiveMode := not_not.mpr receiving
  cases result with
  | ok address =>
    simp only [groupAnswered, if_neg staying, HomeFlowState.withReceive_receive, ne_eq, copyWith_eq_iff]
    simp [writesGroup]
  | error failure =>
    simp only [groupAnswered, groupFailed, if_neg staying, writesGroup, Bool.not_eq_true']
    exact showError_iff state failure.text

/-- In receive mode a call changes the receive state exactly if it writes something new. -/
theorem resume_writes {state flow : HomeFlowState} {task : FlowTask} {answer : FlowAnswer}
    {next : Option FlowTask} (receiving : state.stage = .receiveMode)
    (resumed : resume state task answer = some (flow, next)) :
    flow.receive ≠ state.receive ↔ writes state.receive task answer = true := by
  have still : state.receive ≠ state.receive ↔ false = true :=
    iff_of_false (fun differ => differ rfl) Bool.false_ne_true
  have staying : ¬state.stage ≠ .receiveMode := not_not.mpr receiving
  unfold resume at resumed
  split at resumed
  · rename_i ip
    unfold lanChecked at resumed
    rw [if_neg staying] at resumed
    cases ip with
    | none =>
      cases resumed
      rw [HomeFlowState.withReceive_receive, ne_eq, copyWith_eq_iff]
      simp [writes]
    | some address =>
      cases resumed
      exact still
  · rename_i address
    cases resumed
    rw [serverEnsured, if_neg staying]
    rw [HomeFlowState.withReceive_receive, ne_eq, copyWith_eq_iff]
    simp [writes, imp_iff_not_or]
  · cases resumed
    exact still
  · cases resumed
    exact still
  · cases resumed
    exact groupAnswered_iff receiving (.error _)
  · cases resumed
    exact still
  · cases resumed
    rw [showError_iff, writes, Bool.not_eq_true']
  · cases resumed
    exact groupAnswered_iff receiving (.error _)
  · rename_i info
    have known : groupAnswered state (createGroup (requestGroupOwnerAddress info)) = (flow, next) :=
      Option.some.inj resumed
    have answered := groupAnswered_iff receiving (createGroup (requestGroupOwnerAddress info))
    rw [known] at answered
    exact answered
  · cases resumed
    exact groupAnswered_iff receiving (.error _)
  · cases resumed
    exact still
  · cases resumed

/-! ## Sessions -/

/-- A call was started in an earlier receive session than the one that is open. -/
def StaleCall (app : HomeApp) (call : FlowCall) : Prop :=
  app.flow.stage = .receiveMode ∧ ∃ session ∈ call.session, session < app.session

instance (app : HomeApp) (call : FlowCall) : Decidable (StaleCall app call) :=
  inferInstanceAs (Decidable (_ ∧ _))

/-- A call of an earlier session writes nothing. -/
def Respects (app : HomeApp) : FlowMove → Prop
  | .resume id answer => ∀ call ∈ app.calls id, StaleCall app call →
    writes app.flow.receive call.task answer = false
  | .startReceive | .createWifiDirectGroup | .retryWifiDirect | .back | .reset | .act .. => True

instance (app : HomeApp) (move : FlowMove) : Decidable (Respects app move) :=
  match move with
  | .resume id _ => inferInstanceAs (Decidable (∀ call ∈ app.calls id, _ → _ = _))
  | .startReceive | .createWifiDirectGroup | .retryWifiDirect | .back | .reset | .act .. =>
    inferInstanceAs (Decidable True)

/-- What the receive state is to be: completions of earlier sessions leave it alone. -/
def ownStep (app : HomeApp) (own : ReceiveState) : FlowMove → ReceiveState
  | .startReceive => (startReceive app.flow).receive
  | .createWifiDirectGroup => (createWifiDirectGroup (app.flow.withReceive own)).receive
  | .retryWifiDirect => (retryWifiDirect (app.flow.withReceive own)).receive
  | .back => (back (app.flow.withReceive own)).receive
  | .reset => (reset app.flow).receive
  | .resume id answer =>
    match app.calls id with
    | some call =>
      if StaleCall app call then own
      else ((resume (app.flow.withReceive own) call.task answer).map (·.1.receive)).getD own
    | none => own
  | .act .. => own

/-- An app with what its receive state is to be. -/
structure Watched where
  app : HomeApp
  own : ReceiveState

/-- One step of it. -/
def watch (watched : Watched) (move : FlowMove) : Option Watched :=
  (step watched.app move).map fun app => ⟨app, ownStep watched.app watched.own move⟩

/-- While in receive mode the receive state is what it is to be. -/
def Own (watched : Watched) : Prop :=
  watched.app.flow.stage = .receiveMode → watched.app.flow.receive = watched.own

/-- What is written back into a state is nothing new. -/
theorem withReceive_self (state : HomeFlowState) : state.withReceive state.receive = state := rfl

/-- A step that writes nothing from an earlier session keeps it so. -/
theorem own_step {before after : Watched} {move : FlowMove} (own : Own before)
    (respects : Respects before.app move) (stepped : watch before move = some after) : Own after := by
  obtain ⟨app, moved, rfl⟩ := Option.map_eq_some_iff.mp stepped
  intro receiving
  cases move with
  | startReceive =>
    cases moved
    rfl
  | createWifiDirectGroup =>
    cases moved
    have same : before.app.flow.receive = before.own := own receiving
    rw [ownStep, ← same, withReceive_self]
  | retryWifiDirect =>
    cases moved
    have same : before.app.flow.receive = before.own := own receiving
    rw [ownStep, ← same, withReceive_self]
  | back =>
    cases moved
    rw [leave_flow] at receiving
    exact absurd receiving (back_stage before.app.flow)
  | reset =>
    cases moved
    rw [leave_flow] at receiving
    cases receiving
  | resume id answer =>
    obtain ⟨call, flow, next, found, resumed, rfl⟩ := step_resume moved
    have stage := resume_stage resumed
    have receivingNow : before.app.flow.stage = .receiveMode := stage.symm.trans receiving
    have same := own receivingNow
    simp only [ownStep, found]
    split
    · rename_i stale
      have silent := respects call found stale
      have kept := not_iff_not.mpr (resume_writes receivingNow resumed)
      rw [silent] at kept
      exact (not_not.mp (kept.mpr Bool.false_ne_true)).trans same
    · rw [← same, withReceive_self, resumed]
      rfl
  | act id act =>
    obtain ⟨call, group, next, found, acted, rfl⟩ := step_act moved
    exact own receiving

/-- In every run in which no call of an earlier session writes something new: while in receive mode the
receive state is what the calls and the user have made of it in the session. Wherever such a run leads, a
call of an earlier session leaves the receive state alone exactly if it writes nothing new. -/
theorem receive_own {app : HomeApp} (path : Machine.Reaches step Respects .new app) :
    (∃ own, Machine.Reaches watch (fun watched => Respects watched.app) ⟨.new, .initial⟩ ⟨app, own⟩ ∧
      Own ⟨app, own⟩) ∧
      ∀ id answer call after, app.calls id = some call → StaleCall app call →
        step app (.resume id answer) = some after →
        (after.flow.receive = app.flow.receive ↔ Respects app (.resume id answer)) := by
  constructor
  · induction path with
    | refl => exact ⟨.initial, .refl, fun receiving => by cases receiving⟩
    | tail _ last ih =>
      obtain ⟨own, path, keeps⟩ := ih
      obtain ⟨move, respects, stepped⟩ := last
      have watched : watch ⟨_, own⟩ move = some ⟨_, ownStep _ own move⟩ :=
        congrArg (Option.map _) stepped
      exact ⟨_, path.tail ⟨move, respects, watched⟩, own_step keeps respects watched⟩
  · intro id answer call after found stale stepped
    obtain ⟨same, flow, next, there, resumed, rfl⟩ := step_resume stepped
    rw [found] at there
    obtain rfl := Option.some.inj there
    have silent : Respects app (.resume id answer) ↔
        writes app.flow.receive call.task answer = false := by
      constructor
      · exact fun respects => respects call found stale
      · intro silent other member _
        rw [Option.mem_def, found] at member
        exact Option.some.inj member ▸ silent
    rw [silent, ← Bool.not_eq_true, ← resume_writes stale.1 resumed, ne_eq, not_not]

/-! ## Leaving and coming back -/

/-- Enter receive mode, leave it and come back, and find no LAN in the second session. -/
def returning : List FlowMove :=
  [.startReceive, .back, .startReceive, .resume 1 (.lan none)]

/-- The first check of the LAN may come late if it finds none either. -/
theorem receive_own_same : ∃ app own after,
    Machine.run step Respects returning .new = some app ∧ Own ⟨app, own⟩ ∧
      step app (.resume 0 (.lan none)) = some after ∧ after.flow.receive = app.flow.receive := by
  have runs : (Machine.run step Respects returning .new).bind (fun app =>
      (step app (.resume 0 (.lan none))).map fun _ => decide ((∃ call ∈ app.calls 0, StaleCall app call) ∧
        Respects app (.resume 0 (.lan none)))) = some true := by
    decide +kernel
  obtain ⟨app, ran, more⟩ := Option.bind_eq_some_iff.mp runs
  obtain ⟨after, stepped, facts⟩ := Option.map_eq_some_iff.mp more
  obtain ⟨⟨call, found, stale⟩, respects⟩ := of_decide_eq_true facts
  obtain ⟨⟨own, -, keeps⟩, same⟩ := receive_own (Machine.reaches_of_run ran)
  exact ⟨app, own, after, ran, keeps, stepped,
    (same 0 (.lan none) call after found stale stepped).mpr respects⟩

/-- Enter receive mode, leave it and come back. -/
def reentering : List FlowMove := [.startReceive, .back, .startReceive]

/-- The first check of the LAN writes its result into the second session. -/
theorem receive_own_broken :
    ¬∀ app, Machine.Reaches step (fun _ _ => True) .new app →
      ∀ id answer call after, app.calls id = some call → StaleCall app call →
        step app (.resume id answer) = some after → after.flow.receive = app.flow.receive := by
  intro always
  have runs : (Machine.run step (fun _ _ => True) reentering .new).bind (fun app =>
      (step app (.resume 0 (.lan none))).map fun after => decide ((∃ call ∈ app.calls 0, StaleCall app call) ∧
        after.flow.receive ≠ app.flow.receive)) = some true := by
    decide +kernel
  obtain ⟨app, ran, more⟩ := Option.bind_eq_some_iff.mp runs
  obtain ⟨after, stepped, facts⟩ := Option.map_eq_some_iff.mp more
  obtain ⟨⟨call, found, stale⟩, differs⟩ := of_decide_eq_true facts
  exact differs (always app (Machine.reaches_of_run ran) 0 (.lan none) call after found stale stepped)

end FileDrop.Flutter.ReceiveSession
