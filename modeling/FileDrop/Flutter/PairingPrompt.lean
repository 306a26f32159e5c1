import FileDrop.Core.UuidText
import FileDrop.Flutter.Events
import FileDrop.Foundation.Machine

/-!
# Asking the user about a pairing

`PairingRequestsNotifier`, the shell that opens `IncomingTransferSheet` for the oldest request, and the
buttons of the sheet. A button takes the requests of its device off the list at once, calls the engine, and
pops the navigator when the call has returned, whatever is on top of it by then.
-/
namespace FileDrop.Flutter

/-- `PairingRequestedEvent`. -/
structure PairingRequestedEvent where
  deviceId : String
  deviceName : String
  token : String
  deriving DecidableEq, Repr

/-- What `toFileDropEvent` makes of the engine's event. -/
def ofPairingRequested (event : PairingRequested) : PairingRequestedEvent :=
  ⟨event.deviceId.toText, event.deviceName, event.token⟩

/-- So it stands for what the stream of all events delivers. -/
theorem ofEvent_ofPairing (event : PairingRequested) :
    ofEvent (Events.ofPairing event) = .pairingRequested (ofPairingRequested event).deviceId
      (ofPairingRequested event).deviceName (ofPairingRequested event).token :=
  rfl

/-- A sheet that is open. -/
structure IncomingTransferSheet where
  number : Nat
  request : PairingRequestedEvent
  deriving DecidableEq

/-- An `acceptTransfer` or `rejectTransfer` under way. -/
structure PairingAnswer where
  /-- The sheet it was given on. -/
  sheet : Nat
  deviceId : String
  accepted : Bool
  /-- Whether the call has succeeded, once the engine has carried it out. -/
  result : Option Bool
  deriving DecidableEq

/-- The notifier, the shell and what it shows. -/
structure PairingPrompts where
  /-- The state of `PairingRequestsNotifier`. -/
  requests : List PairingRequestedEvent
  /-- The sheet that is open; `_sheetOpen` is whether there is one. -/
  sheet : Option IncomingTransferSheet
  /-- How many sheets were opened. -/
  sheets : Nat
  answers : List PairingAnswer
  /-- `_AppShell` is on the navigator. -/
  shell : Bool
  deriving DecidableEq

namespace PairingPrompts

/-- The shell has been built, and nothing was asked. -/
def new : PairingPrompts := ⟨[], none, 0, [], true⟩

/-- The listener in `_AppShellState.build`, up to the closing of the sheet. -/
def listen (prompts : PairingPrompts) : PairingPrompts :=
  match prompts.requests with
  | [] => prompts
  | request :: _ =>
    if prompts.shell ∧ prompts.sheet = none then
      { prompts with sheet := some ⟨prompts.sheets, request⟩, sheets := prompts.sheets + 1 }
    else prompts

/-- The listener of `PairingRequestsNotifier.build`. -/
def receive (prompts : PairingPrompts) (event : PairingRequestedEvent) : PairingPrompts :=
  listen { prompts with requests := prompts.requests ++ [event] }

/-- `dismiss`. -/
def dismiss (prompts : PairingPrompts) (deviceId : String) : PairingPrompts :=
  listen { prompts with requests := prompts.requests.filter (·.deviceId ≠ deviceId) }

/-- The sheet closes, with what follows in `whenComplete`. -/
def close (prompts : PairingPrompts) : PairingPrompts :=
  match prompts.sheet with
  | none => prompts
  | some sheet => dismiss { prompts with sheet := none } sheet.request.deviceId

/-- `navigator.pop`. -/
def pop (prompts : PairingPrompts) : PairingPrompts :=
  match prompts.sheet with
  | none => { prompts with shell := false }
  | some _ => prompts.close

/-- A button of the sheet, up to its `await`. -/
def tap (prompts : PairingPrompts) (accepted : Bool) : Option PairingPrompts :=
  prompts.sheet.map fun sheet =>
    let dismissed := prompts.dismiss sheet.request.deviceId
    { dismissed with
      answers := dismissed.answers ++ [⟨sheet.number, sheet.request.deviceId, accepted, none⟩] }

/-- What follows the `await` of a button, if the call did not throw. -/
def complete (prompts : PairingPrompts) (place : Nat) : Option PairingPrompts :=
  (prompts.answers[place]?.bind (·.result)).map fun succeeded =>
    let done := { prompts with answers := prompts.answers.eraseIdx place }
    if succeeded then done.pop else done

end PairingPrompts

/-! ## The app and its engine -/

/-- The engine's requests, the events on their way to the app, and the app. -/
structure PairingApp where
  pairing : PairingStateMachine
  stream : List PairingRequestedEvent
  prompts : PairingPrompts

/-- One step of somebody. -/
inductive PromptMove where
  /-- `pair_device`. -/
  | pairDevice (choice : PairChoice) (peer : Uuid) (name : String)
  /-- A token is presented, or expired requests are swept. -/
  | engine (call : PairingCall)
  | deliver
  /-- An event is lost because the app has fallen behind. -/
  | lose
  | tap (accepted : Bool)
  /-- The user closes the sheet without a button. -/
  | swipe
  /-- The engine carries out a call of a button. -/
  | confirm (place : Nat)
  | complete (place : Nat)

namespace PairingApp

/-- Nothing has happened. -/
def new : PairingApp := ⟨.new, [], .new⟩

/-- Neither a new request nor a decision. -/
def beside : PairingOp → Bool
  | .presentToken .. | .sweepExpired => true
  | .createRequest .. | .confirm .. => false

/-- `accept_transfer` or `reject_transfer`, for the call of a button. -/
def answer (uuid : Uuid.Parser) (pairing : PairingStateMachine) (call : PairingAnswer) :
    PairingAnswer × PairingStateMachine :=
  match uuid.parseStr call.deviceId with
  | none => ({ call with result := some false }, pairing)
  | some peer =>
    let (result, pairing) := pairing.confirm peer call.accepted
    ({ call with result := some result.isOk }, pairing)

/-- One step, on a device with an engine. -/
def step (uuid : Uuid.Parser) (deviceId : Uuid) (deviceName : String) (app : PairingApp) :
    PromptMove → Option PairingApp
  | .pairDevice choice peer name =>
    let (_, event, pairing) := PairingEngine.pairDevice ⟨deviceId, deviceName, app.pairing⟩ choice peer name
    some { app with pairing, stream := app.stream ++ [ofPairingRequested event] }
  | .engine call =>
    if beside call.op then some { app with pairing := app.pairing.apply call } else none
  | .deliver =>
    match app.stream with
    | [] => none
    | event :: stream => some { app with stream, prompts := app.prompts.receive event }
  | .lose =>
    match app.stream with
    | [] => none
    | _ :: stream => some { app with stream }
  | .tap accepted => (app.prompts.tap accepted).map fun prompts => { app with prompts }
  | .swipe => app.prompts.sheet.map fun _ => { app with prompts := app.prompts.close }
  | .confirm place =>
    match app.prompts.answers[place]? with
    | some ⟨sheet, deviceId, accepted, none⟩ =>
      let (call, pairing) := answer uuid app.pairing ⟨sheet, deviceId, accepted, none⟩
      some { app with
        pairing, prompts := { app.prompts with answers := app.prompts.answers.set place call } }
    | _ => none
  | .complete place => (app.prompts.complete place).map fun prompts => { app with prompts }

end PairingApp

end FileDrop.Flutter
