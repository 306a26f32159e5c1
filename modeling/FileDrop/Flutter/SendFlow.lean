import FileDrop.Ffi.Discovery
import FileDrop.Flutter.HomeFlow
import FileDrop.Flutter.NearbyDevices

/-!
# Sending in the Home tab

`HomeFlowNotifier` with its send flow, the view that the Home screen shows for each stage while there is
no transfer, and the calls that both make: discovery is started and stopped by the notifier, which waits
for neither, and `sendFiles` is called by the confirmation view. A view lives until another is shown, and
the frame that builds the other comes at once here; a call that completes after its view is gone changes
nothing.
-/
namespace FileDrop.Flutter

/-! ## The notifier -/

/-- `startSend`. -/
def startSend (state : HomeFlowState) : HomeFlowState :=
  state.copyWith (some .filePicker) none none none true false

/-- `filesPicked`. -/
def filesPicked (state : HomeFlowState) (filePaths : List String) : HomeFlowState :=
  state.copyWith (some .deviceSelectSend) (some filePaths) none none false false

/-- `deviceSelected`. -/
def deviceSelected (state : HomeFlowState) (device : Device) : HomeFlowState :=
  state.copyWith (some .confirmSend) none (some device) none false false

/-- `_maybeStopDiscovery`. -/
def maybeStopDiscovery (state : HomeFlowState) : Option DiscoveryCommand :=
  if state.stage = .deviceSelectSend ∨ state.stage = .confirmSend then some .stop else none

/-- The call that `back` makes. -/
def backCommand (selfDevice : DiscoveredDevice) (state : HomeFlowState) : Option DiscoveryCommand :=
  match state.stage with
  | .idle | .receiveMode | .filePicker => none
  | .deviceSelectSend => maybeStopDiscovery state
  | .confirmSend => some (.start selfDevice)

/-! ## The Home tab -/

/-- Every stage has a view of its own. -/
theorem HomeFlowStage.view_injective : Function.Injective HomeFlowStage.view := by
  intro stage other same
  cases stage with
  | idle | filePicker | deviceSelectSend | confirmSend | receiveMode =>
    cases other with
    | idle | filePicker | deviceSelectSend | confirmSend | receiveMode => first | rfl | cases same

/-- What `sendFiles` is called with: of the device, its address, port and id. -/
structure SendRequest where
  device : Device
  filePaths : List String
  deriving DecidableEq

/-- A call of `sendFiles` under way, with the view that made it. -/
structure SendCall where
  view : Nat
  request : SendRequest
  deriving DecidableEq

/-- The state of the Home tab. -/
structure SendApp where
  flow : HomeFlowState
  transfers : ActiveTransfers
  nearby : NearbyDevices
  /-- How many confirmation views there have been. -/
  views : Nat
  calls : List SendCall
  /-- Every call of `sendFiles` there has been, the latest first. Nothing reads this. -/
  requests : List SendRequest

/-- What happens in the Home tab. -/
inductive SendMove where
  | startSend
  | startReceive
  /-- `onContinue`. -/
  | pick (filePaths : List String)
  /-- `onDeviceSelected`. -/
  | select (device : Device)
  | back
  /-- `_send`, up to its `await`. -/
  | send
  /-- `sendFiles` has returned to the call at a place, or thrown. -/
  | complete (place : Nat) (returned : Bool)
  | event (event : FileDropEvent)
  /-- The receive flow changes its own part. -/
  | receive (state : ReceiveState)

namespace SendApp

/-- The app is opened. -/
def new : SendApp := ⟨.initial, .empty, .empty, 0, [], []⟩

/-- The view that is shown. -/
def view (app : SendApp) : HomeView := homeScreen app.transfers app.flow.stage

/-- The confirmation view that is shown. -/
def shown (app : SendApp) : Option Nat := if app.view = .confirmSendView then some app.views else none

/-- `_sending`: the view that is shown waits for a call of its own. -/
def sending (app : SendApp) : Bool := app.calls.any fun call => some call.view = app.shown

/-- A user can do it on the view that is shown; the other moves are not a user's. -/
def onScreen (app : SendApp) : SendMove → Prop
  | .startSend | .startReceive => app.view = .idleView
  | .pick filePaths => app.view = .filePickerView ∧ filePaths ≠ []
  | .select device => app.view = .deviceSelectSendView ∧ device ∈ nearbyList app.nearby
  | .back => app.view ≠ .idleView ∧ app.view ≠ .activeTransfersView
  | .send => app.view = .confirmSendView ∧ app.sending = false
  | .complete .. | .event _ | .receive _ => True

/-- The view of a stage is shown at that stage, while there is no transfer. -/
theorem view_eq_iff (app : SendApp) (stage : HomeFlowStage) :
    app.view = stage.view ↔ app.transfers.isEmpty = true ∧ app.flow.stage = stage := by
  unfold view homeScreen
  cases app.transfers.isEmpty with
  | true => simp [HomeFlowStage.view_injective.eq_iff]
  | false =>
    cases stage with
    | idle | filePicker | deviceSelectSend | confirmSend | receiveMode => simp [HomeFlowStage.view]

/-- The confirmation view that is shown is the last there has been. -/
theorem eq_shown_iff (app : SendApp) (view : Nat) :
    some view = app.shown ↔
      app.transfers.isEmpty = true ∧ app.flow.stage = .confirmSend ∧ view = app.views := by
  have confirming := app.view_eq_iff .confirmSend
  by_cases here : app.view = .confirmSendView
  · have now := confirming.mp here
    simp only [shown, if_pos here, Option.some.injEq, now, true_and]
  · have elsewhere : ¬(app.transfers.isEmpty = true ∧ app.flow.stage = .confirmSend) :=
      fun now => here (confirming.mpr now)
    simp only [shown, if_neg here, reduceCtorEq, ← and_assoc, elsewhere, false_and]

/-- Where a user can go back, the stage is not the first. -/
theorem stage_ne_idle {app : SendApp} (onScreen : app.onScreen .back) : app.flow.stage ≠ .idle := by
  intro idle
  have shown := onScreen
  cases empty : app.transfers.isEmpty with
  | true => exact shown.1 ((app.view_eq_iff .idle).mpr ⟨empty, idle⟩)
  | false => exact shown.2 (by simp [view, homeScreen, empty])

/-- `_send`, up to its `await`; without a device there is no view that could. -/
def sendTapped (app : SendApp) : Option SendApp :=
  app.flow.device.map fun device =>
    { app with
      calls := app.calls ++ [⟨app.views, ⟨device, app.flow.filePaths⟩⟩]
      requests := ⟨device, app.flow.filePaths⟩ :: app.requests }

/-- The rest of `_send`: `onSent` is `reset`, if the view is still there and nothing was thrown. -/
def sendCompleted (app : SendApp) (place : Nat) (returned : Bool) :
    Option (SendApp × Option DiscoveryCommand) :=
  app.calls[place]?.map fun call =>
    let app' := { app with calls := app.calls.eraseIdx place }
    if returned ∧ some call.view = app.shown then
      ({ app' with flow := reset app.flow }, maybeStopDiscovery app.flow)
    else (app', none)

/-- One step, and the call of discovery that it makes. -/
def step (selfDevice : DiscoveredDevice) (app : SendApp) :
    SendMove → Option (SendApp × Option DiscoveryCommand)
  | .startSend => some ({ app with flow := Flutter.startSend app.flow }, none)
  | .startReceive => some ({ app with flow := Flutter.startReceive app.flow }, none)
  | .pick filePaths => some (
      { app with flow := filesPicked app.flow filePaths, nearby := nearbyStep app.nearby .clear },
      some (.start selfDevice))
  | .select device => some (
      { app with flow := deviceSelected app.flow device, views := app.views + 1 }, some .stop)
  | .back => some ({ app with flow := Flutter.back app.flow }, backCommand selfDevice app.flow)
  | .send => app.sendTapped.map (·, none)
  | .complete place returned => app.sendCompleted place returned
  | .event event => some ({ app with
      transfers := handle app.transfers event
      nearby := nearbyStep app.nearby (.event event) }, none)
  | .receive state => some ({ app with flow := app.flow.withReceive state }, none)

end SendApp

/-! ## The receive flow -/

/-- A user can do it in the receive flow while there is no transfer. Only the confirmation view calls
`reset`. -/
def HomeApp.onScreen (home : HomeApp) : FlowMove → Prop
  | .startReceive => home.flow.stage = .idle
  | .back => home.flow.stage ≠ .idle
  | .reset => False
  | .createWifiDirectGroup | .retryWifiDirect | .resume .. | .act .. => True

/-- What a step of the receive flow is in the Home tab. -/
def SendMove.ofFlow (after : HomeApp) : FlowMove → SendMove
  | .startReceive => .startReceive
  | .back => .back
  | .createWifiDirectGroup | .retryWifiDirect | .reset | .resume .. | .act .. =>
    .receive after.flow.receive

/-- The Home tab takes every step of the receive flow. -/
theorem SendApp.step_ofFlow (selfDevice : DiscoveredDevice) {app : SendApp} {home after : HomeApp}
    {move : FlowMove} (same : app.flow = home.flow) (onScreen : home.onScreen move)
    (stepped : home.step move = some after) :
    ∃ command, app.step selfDevice (.ofFlow after move) = some ({ app with flow := after.flow }, command) := by
  cases move with
  | startReceive =>
    cases stepped
    exact ⟨none, by rw [← same]; rfl⟩
  | back =>
    cases stepped
    exact ⟨backCommand selfDevice app.flow, by rw [HomeApp.leave_flow, ← same]; rfl⟩
  | reset => exact absurd onScreen id
  | createWifiDirectGroup | retryWifiDirect =>
    cases stepped
    exact ⟨none, by simp only [← same]; rfl⟩
  | resume id answer =>
    obtain ⟨call, flow, next, -, resumed, rfl⟩ := HomeApp.step_resume stepped
    have alone : app.flow.withReceive flow.receive = flow := same ▸ (resume_receive resumed).symm
    exact ⟨none, by simp only [SendMove.ofFlow, SendApp.step, alone]⟩
  | act id act =>
    obtain ⟨call, group, next, -, -, rfl⟩ := HomeApp.step_act stepped
    exact ⟨none, by simp only [← same]; rfl⟩

/-- Every run of the receive flow that the screen allows is one of the Home tab, up to the flow's state. -/
theorem SendApp.reaches_ofFlow {selfDevice : DiscoveredDevice} {home : HomeApp}
    (path : Machine.Reaches HomeApp.step HomeApp.onScreen .new home) :
    ∃ app, Machine.Reaches (fun app move => (app.step selfDevice move).map Prod.fst) SendApp.onScreen
      .new app ∧ app.flow = home.flow ∧ app.transfers = .empty := by
  induction path with
  | refl => exact ⟨.new, .refl, rfl, rfl⟩
  | @tail before after _ last ih =>
    obtain ⟨move, onScreen, stepped⟩ := last
    obtain ⟨app, reached, same, calm⟩ := ih
    obtain ⟨command, moved⟩ := step_ofFlow selfDevice same onScreen stepped
    refine ⟨{ app with flow := after.flow }, reached.tail ⟨.ofFlow after move, ?_, ?_⟩, rfl, calm⟩
    · cases move with
      | startReceive => exact (app.view_eq_iff .idle).mpr ⟨by rw [calm]; rfl, same ▸ onScreen⟩
      | back =>
        have leaving : app.flow.stage ≠ .idle := same ▸ onScreen
        refine ⟨fun shown => leaving ((app.view_eq_iff .idle).mp shown).2, ?_⟩
        rw [SendApp.view, calm]
        cases app.flow.stage with
        | idle | filePicker | deviceSelectSend | confirmSend | receiveMode => decide
      | reset => exact absurd onScreen id
      | createWifiDirectGroup | retryWifiDirect | resume | act => exact trivial
    · exact congrArg (Option.map Prod.fst) moved

/-! ## The app over the engine -/

/-- The Home tab and the FFI it calls. -/
structure SendSystem where
  app : SendApp
  world : FfiDiscovery

/-- A step of the Home tab, or of the FFI. -/
inductive SystemMove where
  | app (move : SendMove)
  | ffi (move : FfiDiscoveryMove)

namespace SendSystem

/-- Nothing has happened. -/
def new : SendSystem := ⟨.new, .new⟩

/-- The call that the app makes is issued. -/
def issue (host : DiscoveryHost) (world : FfiDiscovery) : Option DiscoveryCommand → Option FfiDiscovery
  | none => some world
  | some command => world.step host (.issue command)

/-- One step. -/
def step (host : DiscoveryHost) (selfDevice : DiscoveredDevice) (system : SendSystem) :
    SystemMove → Option SendSystem
  | .app move =>
    (system.app.step selfDevice move).bind fun (app, command) =>
      (issue host system.world command).map (⟨app, ·⟩)
  | .ffi move => (system.world.step host move).map (⟨system.app, ·⟩)

end SendSystem

end FileDrop.Flutter
