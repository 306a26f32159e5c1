import Mathlib.Logic.Function.Basic
import FileDrop.Flutter.ActiveTransfers
import FileDrop.Flutter.WifiDirect
import FileDrop.Foundation.Machine

/-!
# Receiving in the Home tab

`HomeFlowNotifier` with its receive sub-flow. What a user does runs to the next `await` at once, and so
does what follows an `await`; in between anything can happen. Where an asynchronous call is, and what
the platform has done for it, is kept beside the notifier's state. The calls that start and stop
discovery change nothing here.
-/
namespace FileDrop.Flutter

/-- `ReceiveStage`. -/
inductive ReceiveStage where
  | checkingLan
  | noLanFound
  | creatingGroup
  | wifiDirectError
  | waiting
  deriving DecidableEq, Repr

/-- `ReceiveState`. -/
structure ReceiveState where
  stage : ReceiveStage
  address : Option String
  errorMessage : Option String
  groupCreated : Bool
  deriving DecidableEq, Repr

/-- `const ReceiveState()`. -/
def ReceiveState.initial : ReceiveState := ⟨.checkingLan, none, none, false⟩

/-- `ReceiveState.copyWith`. -/
def ReceiveState.copyWith (state : ReceiveState) (stage : Option ReceiveStage)
    (address errorMessage : Option String) (groupCreated : Option Bool) (clearError : Bool) :
    ReceiveState where
  stage := stage.getD state.stage
  address := address <|> state.address
  errorMessage := if clearError then none else errorMessage <|> state.errorMessage
  groupCreated := groupCreated.getD state.groupCreated

/-- `HomeFlowState`. -/
structure HomeFlowState where
  stage : HomeFlowStage
  filePaths : List String
  device : Option Device
  receive : ReceiveState
  deriving DecidableEq, Repr

/-- `const HomeFlowState()`. -/
def HomeFlowState.initial : HomeFlowState := ⟨.idle, [], none, .initial⟩

/-- `HomeFlowState.copyWith`. -/
def HomeFlowState.copyWith (state : HomeFlowState) (stage : Option HomeFlowStage)
    (filePaths : Option (List String)) (device : Option Device) (receive : Option ReceiveState)
    (clearFiles clearDevice : Bool) : HomeFlowState where
  stage := stage.getD state.stage
  filePaths := if clearFiles then [] else filePaths.getD state.filePaths
  device := if clearDevice then none else device <|> state.device
  receive := receive.getD state.receive

/-- `state.copyWith(receive: ..)`. -/
def HomeFlowState.withReceive (state : HomeFlowState) (receive : ReceiveState) : HomeFlowState :=
  state.copyWith none none none (some receive) false false

@[simp] theorem HomeFlowState.withReceive_stage (state : HomeFlowState) (receive : ReceiveState) :
    (state.withReceive receive).stage = state.stage := rfl

@[simp] theorem HomeFlowState.withReceive_receive (state : HomeFlowState) (receive : ReceiveState) :
    (state.withReceive receive).receive = receive := rfl

/-! ## What a user does -/

/-- `startReceive`, up to its `await`. -/
def startReceive (state : HomeFlowState) : HomeFlowState :=
  state.copyWith (some .receiveMode) none none (some .initial) false false

/-- `createWifiDirectGroup`, up to its first `await`. -/
def createWifiDirectGroup (state : HomeFlowState) : HomeFlowState :=
  state.withReceive (state.receive.copyWith (some .creatingGroup) none none none true)

/-- `retryWifiDirect`. -/
def retryWifiDirect (state : HomeFlowState) : HomeFlowState :=
  state.withReceive (state.receive.copyWith (some .noLanFound) none none none true)

/-- `reset`. -/
def reset (_ : HomeFlowState) : HomeFlowState := .initial

/-- `back`. -/
def back (state : HomeFlowState) : HomeFlowState :=
  match state.stage with
  | .idle | .receiveMode | .filePicker => .initial
  | .deviceSelectSend => state.copyWith (some .filePicker) none none none false true
  | .confirmSend => state.copyWith (some .deviceSelectSend) none none none false true

/-- `back` calls `_maybeRemoveWifiDirectGroup`, and that `removeGroup`. -/
def backRemoves (state : HomeFlowState) : Bool :=
  state.stage = .receiveMode && state.receive.groupCreated

/-! ## What follows an `await` -/

/-- Where an asynchronous call is. -/
inductive FlowTask where
  /-- At `checkUsableLan`. -/
  | usableLan
  /-- At `ensureServerRunning`. -/
  | serverRunning (address : String)
  /-- At the request for `nearbyWifiDevices`. -/
  | nearbyPermission
  /-- At the request for `locationWhenInUse`. -/
  | locationPermission
  /-- At `createGroup`, and the platform has not acted. -/
  | creatingGroup
  /-- The platform has formed the group, and is asked for its address. -/
  | groupFormed
  /-- The platform has formed no group, and says so. -/
  | groupRefused (failure : GroupFailure)
  /-- At `removeGroup`, and the platform has not acted. -/
  | removingGroup
  /-- The platform has acted. -/
  | groupRemoved
  deriving DecidableEq

/-- What an `await` completes with. -/
inductive FlowAnswer where
  /-- What `checkUsableLan` returns; nothing when it throws. -/
  | lan (ip : Option String)
  /-- `ensureServerRunning` has returned, or thrown. -/
  | server
  /-- The permission is granted or not; or the request throws. -/
  | permission (granted : Except String Bool)
  | info (info : ConnectionInfo)
  | refused
  | removed
  deriving DecidableEq

/-- The message when no permission is granted. -/
def deniedMessage : String :=
  "Permission was not granted, so a Wi-Fi Direct network cannot be created."

/-- The message for what `createGroup`, or a request for permission, throws. -/
def GroupFailure.text : GroupFailure → String
  | .wifiDirect message => message
  | .other text => "Could not create a Wi-Fi Direct network: " ++ text

/-- The state with an error shown. -/
def showError (state : HomeFlowState) (message : String) : HomeFlowState :=
  state.withReceive (state.receive.copyWith (some .wifiDirectError) none (some message) none false)

/-- The rest of `_checkLanAndMaybeWait`, and the address to go on with. -/
def lanChecked (state : HomeFlowState) (ip : Option String) : HomeFlowState × Option FlowTask :=
  if state.stage ≠ .receiveMode then (state, none)
  else match ip with
    | none =>
      (state.withReceive (state.receive.copyWith (some .noLanFound) none none none false), none)
    | some ip => (state, some (.serverRunning ip))

/-- The rest of `_startServerAndEnterWaiting`. -/
def serverEnsured (state : HomeFlowState) (address : String) : HomeFlowState :=
  if state.stage ≠ .receiveMode then state
  else state.withReceive (state.receive.copyWith (some .waiting) (some address) none none false)

/-- The handlers of `createWifiDirectGroup`. -/
def groupFailed (state : HomeFlowState) (failure : GroupFailure) : HomeFlowState :=
  if state.stage ≠ .receiveMode then state else showError state failure.text

/-- `createWifiDirectGroup` after `createGroup`. -/
def groupAnswered (state : HomeFlowState) (result : Except GroupFailure String) :
    HomeFlowState × Option FlowTask :=
  match result with
  | .ok address =>
    if state.stage ≠ .receiveMode then (state, none)
    else (state.withReceive (state.receive.copyWith none none none (some true) false),
      some (.serverRunning address))
  | .error failure => (groupFailed state failure, none)

/-- What follows an `await`: the state, and where the call is next if it goes on. -/
def resume (state : HomeFlowState) : FlowTask → FlowAnswer → Option (HomeFlowState × Option FlowTask)
  | .usableLan, .lan ip => some (lanChecked state ip)
  | .serverRunning address, .server => some (serverEnsured state address, none)
  | .nearbyPermission, .permission (.ok true) => some (state, some .creatingGroup)
  | .nearbyPermission, .permission (.ok false) => some (state, some .locationPermission)
  | .nearbyPermission, .permission (.error text) => some (groupFailed state (.other text), none)
  | .locationPermission, .permission (.ok true) => some (state, some .creatingGroup)
  -- A denial is shown whatever the stage is.
  | .locationPermission, .permission (.ok false) => some (showError state deniedMessage, none)
  | .locationPermission, .permission (.error text) => some (groupFailed state (.other text), none)
  | .groupFormed, .info info =>
    some (groupAnswered state (createGroup (requestGroupOwnerAddress info)))
  | .groupRefused failure, .refused => some (groupAnswered state (.error failure))
  | .groupRemoved, .removed => some (state, none)
  | _, _ => none

/-- An error changes the receive part alone. -/
theorem groupFailed_receive (state : HomeFlowState) (failure : GroupFailure) :
    groupFailed state failure = state.withReceive (groupFailed state failure).receive := by
  unfold groupFailed
  split
  · rfl
  · rfl

/-- So does what `createGroup` returns. -/
theorem groupAnswered_receive (state : HomeFlowState) (result : Except GroupFailure String) :
    (groupAnswered state result).1 = state.withReceive (groupAnswered state result).1.receive := by
  cases result with
  | ok address =>
    simp only [groupAnswered]
    split
    · rfl
    · rfl
  | error failure => exact groupFailed_receive state failure

/-- What follows an `await` changes the receive part alone. -/
theorem resume_receive {state flow : HomeFlowState} {task : FlowTask} {answer : FlowAnswer}
    {next : Option FlowTask} (resumed : resume state task answer = some (flow, next)) :
    flow = state.withReceive flow.receive := by
  unfold resume at resumed
  split at resumed
  · rename_i ip
    unfold lanChecked at resumed
    split at resumed
    · cases resumed
      rfl
    · cases ip with
      | none | some =>
        cases resumed
        rfl
  · cases resumed
    unfold serverEnsured
    split
    · rfl
    · rfl
  · cases resumed
    rfl
  · cases resumed
    rfl
  · cases resumed
    exact groupFailed_receive state _
  · cases resumed
    rfl
  · cases resumed
    rfl
  · cases resumed
    exact groupFailed_receive state _
  · obtain ⟨rfl, rfl⟩ := Prod.mk.inj (Option.some.inj resumed)
    exact groupAnswered_receive state _
  · cases resumed
    exact groupFailed_receive state _
  · cases resumed
    rfl
  · cases resumed

/-- What follows an `await` leaves the stage. -/
theorem resume_stage {state flow : HomeFlowState} {task : FlowTask} {answer : FlowAnswer}
    {next : Option FlowTask} (resumed : resume state task answer = some (flow, next)) :
    flow.stage = state.stage := by
  rw [resume_receive resumed, HomeFlowState.withReceive_stage]

/-- No way back leads into receive mode. -/
theorem back_stage (state : HomeFlowState) : (back state).stage ≠ .receiveMode := by
  cases stage : state.stage with
  | idle | receiveMode | filePicker | deviceSelectSend | confirmSend =>
    simp [back, stage, HomeFlowState.initial, HomeFlowState.copyWith]

/-! ## What the platform does -/

/-- What the platform does for a call. -/
inductive PlatformAct where
  | form
  | refuse (refusal : CreateRefusal)
  /-- Nobody handles the call. -/
  | unhandled (text : String)
  /-- `removeGroup` has removed the group, or done nothing. -/
  | remove (gone : Bool)
  deriving DecidableEq

/-- Whether there is a group then, and where the call is. -/
def act (group : Bool) : FlowTask → PlatformAct → Option (Bool × FlowTask)
  | .creatingGroup, .form => some (true, .groupFormed)
  | .creatingGroup, .refuse refusal =>
    some (group, .groupRefused (.wifiDirect (messageFor refusal.exception)))
  | .creatingGroup, .unhandled text => some (group, .groupRefused (.other text))
  | .removingGroup, .remove gone => some (group && !gone, .groupRemoved)
  | _, _ => none

/-! ## The app -/

/-- An asynchronous call, with the receive session it was started in, if it was in one. -/
structure FlowCall where
  session : Option Nat
  task : FlowTask
  deriving DecidableEq

/-- The notifier's state, the calls under way, and the platform. -/
structure HomeApp where
  flow : HomeFlowState
  /-- There is a Wi-Fi Direct group that the app has created. -/
  group : Bool
  issued : Nat
  calls : Nat → Option FlowCall
  /-- How often `startReceive` was called. Nothing reads this. -/
  session : Nat

/-- One step of the user, of a call or of the platform. -/
inductive FlowMove where
  | startReceive
  | createWifiDirectGroup
  | retryWifiDirect
  | back
  | reset
  | resume (id : Nat) (answer : FlowAnswer)
  | act (id : Nat) (act : PlatformAct)
  deriving DecidableEq

namespace HomeApp

/-- The app is opened. -/
def new : HomeApp := ⟨.initial, false, 0, fun _ => none, 0⟩

/-- The receive session that is open. -/
def opened (app : HomeApp) : Option Nat :=
  if app.flow.stage = .receiveMode then some app.session else none

/-- The calls when another one has been started. -/
def spawn (app : HomeApp) (session : Option Nat) (task : FlowTask) : Nat → Option FlowCall :=
  Function.update app.calls app.issued (some ⟨session, task⟩)

/-- The state after a user has left, and `removeGroup` if it is called then. -/
def leave (app : HomeApp) (flow : HomeFlowState) (removes : Bool) : HomeApp :=
  if removes then
    { app with flow, issued := app.issued + 1, calls := app.spawn app.opened .removingGroup }
  else { app with flow }

@[simp] theorem leave_flow (app : HomeApp) (flow : HomeFlowState) (removes : Bool) :
    (app.leave flow removes).flow = flow := by
  cases removes with
  | true | false => rfl

/-- One step. -/
def step (app : HomeApp) : FlowMove → Option HomeApp
  | .startReceive => some { app with
      flow := Flutter.startReceive app.flow
      session := app.session + 1
      issued := app.issued + 1
      calls := app.spawn (some (app.session + 1)) .usableLan }
  | .createWifiDirectGroup => some { app with
      flow := Flutter.createWifiDirectGroup app.flow
      issued := app.issued + 1
      calls := app.spawn app.opened .nearbyPermission }
  | .retryWifiDirect => some { app with flow := Flutter.retryWifiDirect app.flow }
  | .back => some (app.leave (Flutter.back app.flow) (backRemoves app.flow))
  | .reset => some (app.leave (Flutter.reset app.flow) app.flow.receive.groupCreated)
  | .resume id answer =>
    (app.calls id).bind fun call =>
      (Flutter.resume app.flow call.task answer).map fun (flow, next) => { app with
        flow, calls := Function.update app.calls id (next.map (⟨call.session, ·⟩)) }
  | .act id act =>
    (app.calls id).bind fun call =>
      (Flutter.act app.group call.task act).map fun (group, next) => { app with
        group, calls := Function.update app.calls id (some ⟨call.session, next⟩) }

/-- What follows an `await` of a call. -/
theorem step_resume {app after : HomeApp} {id : Nat} {answer : FlowAnswer}
    (stepped : app.step (.resume id answer) = some after) :
    ∃ call flow next, app.calls id = some call ∧
      Flutter.resume app.flow call.task answer = some (flow, next) ∧
      after = { app with
        flow, calls := Function.update app.calls id (next.map (⟨call.session, ·⟩)) } := by
  obtain ⟨call, found, moved⟩ := Option.bind_eq_some_iff.mp stepped
  obtain ⟨⟨flow, next⟩, resumed, rfl⟩ := Option.map_eq_some_iff.mp moved
  exact ⟨call, flow, next, found, resumed, rfl⟩

/-- What the platform does for a call. -/
theorem step_act {app after : HomeApp} {id : Nat} {act : PlatformAct}
    (stepped : app.step (.act id act) = some after) :
    ∃ call group next, app.calls id = some call ∧
      Flutter.act app.group call.task act = some (group, next) ∧
      after = { app with
        group, calls := Function.update app.calls id (some ⟨call.session, next⟩) } := by
  obtain ⟨call, found, moved⟩ := Option.bind_eq_some_iff.mp stepped
  obtain ⟨⟨group, next⟩, acted, rfl⟩ := Option.map_eq_some_iff.mp moved
  exact ⟨call, group, next, found, acted, rfl⟩

end HomeApp

end FileDrop.Flutter
