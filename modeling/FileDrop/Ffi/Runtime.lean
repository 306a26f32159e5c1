import FileDrop.Foundation.Broadcast
import FileDrop.Foundation.Machine

/-!
# The event channel

The broadcast channel of the runtime, and everything that meets in it: `emit` sends, each call of
`subscribe_events` forwards what its own receiver gets to its sink, and `filedrop_poll_event` asks the
one receiver that was made with the channel. The channels themselves are a parameter.
-/
namespace FileDrop

open Broadcast

/-- `EVENT_CHANNEL_CAPACITY`. -/
def eventChannelCapacity : Nat := 1024

variable {Event : Type}

/-- A call of `subscribe_events`. -/
structure Subscription (tokio : Documented eventChannelCapacity Event) where
  rx : tokio.Receiver
  /-- What its sink has taken, in order. -/
  added : List Event
  /-- Its loop has ended, and its receiver is dropped. -/
  returned : Bool

/-- `FfiRuntime`, as far as it delivers events. A call is known by how many were made before it. -/
structure FfiEvents (tokio : Documented eventChannelCapacity Event) where
  eventsTx : tokio.Sender
  pollRx : tokio.Receiver
  /-- What polls have returned, in order. No call reads this. -/
  polled : List Event
  subscriptions : List (Subscription tokio)

/-- One step of somebody. -/
inductive FfiEventsMove (Event : Type) where
  | emit (event : Event)
  | subscribe
  /-- The `recv` of a call completes; the sink fails when its listener was torn down. -/
  | forward (id : Nat) (listening : Bool)
  | poll

variable {tokio : Documented eventChannelCapacity Event}

/-- How many events had been emitted before the next one that the call is to get. -/
abbrev Subscription.cursor (call : Subscription tokio) : Nat := tokio.cursor call.rx

namespace FfiEvents

/-- What is known of the channel. -/
abbrev channel (world : FfiEvents tokio) : Channel Event := tokio.channel world.eventsTx

/-- How many events had been emitted before the next one that a poll is to get. -/
abbrev pollCursor (world : FfiEvents tokio) : Nat := tokio.cursor world.pollRx

/-- `FfiRuntime::new`. -/
def new : FfiEvents tokio := ⟨tokio.new.1, tokio.new.2, [], []⟩

/-- `FfiRuntime::emit`. -/
def emit (world : FfiEvents tokio) (event : Event) : FfiEvents tokio :=
  match tokio.send world.eventsTx event with
  | .ok eventsTx => { world with eventsTx }
  | .error _ => world

/-- `subscribe_events`, up to its loop. -/
def subscribe (world : FfiEvents tokio) : FfiEvents tokio :=
  let (rx, eventsTx) := tokio.subscribe world.eventsTx
  { world with eventsTx, subscriptions := world.subscriptions ++ [⟨rx, [], false⟩] }

/-- One turn of the loop of `subscribe_events`, when `recv` completes. -/
def forward (world : FfiEvents tokio) (id : Nat) (listening : Bool) : Option (FfiEvents tokio) :=
  (world.subscriptions[id]?).bind fun call =>
    if call.returned then none
    else match tokio.recv world.eventsTx call.rx with
      | (.item event, rx) =>
        if listening then
          some { world with
            subscriptions := world.subscriptions.set id ⟨rx, call.added ++ [event], false⟩ }
        else
          some { world with
            eventsTx := tokio.leave world.eventsTx rx
            subscriptions := world.subscriptions.set id ⟨rx, call.added, true⟩ }
      | (.lagged _, rx) =>
        some { world with subscriptions := world.subscriptions.set id ⟨rx, call.added, false⟩ }
      | (.empty, _) => none

/-- `filedrop_poll_event`, before the event is made a text. The lock on `poll_rx` is held all along. -/
def pollEvent (world : FfiEvents tokio) : Option Event × FfiEvents tokio :=
  match tokio.recv world.eventsTx world.pollRx with
  | (.item event, pollRx) => (some event, { world with pollRx })
  | (.lagged _, pollRx) => (none, { world with pollRx })
  -- The timeout elapses.
  | (.empty, _) => (none, world)

/-- A poll, and what it has returned is noted. -/
def poll (world : FfiEvents tokio) : FfiEvents tokio :=
  let (event, after) := world.pollEvent
  { after with polled := world.polled ++ event.toList }

/-- What polls in a row return. -/
def returns : Nat → FfiEvents tokio → List (Option Event)
  | 0, _ => []
  | count + 1, world => world.pollEvent.1 :: returns count world.poll

/-- One step. -/
def step (world : FfiEvents tokio) : FfiEventsMove Event → Option (FfiEvents tokio)
  | .emit event => some (world.emit event)
  | .subscribe => some world.subscribe
  | .forward id listening => world.forward id listening
  | .poll => some world.poll

/-! ## What a step can do -/

/-- The cases of a step, in a world whose channel has a receiver. -/
inductive Steps (before : FfiEvents tokio) : FfiEventsMove Event → FfiEvents tokio → Prop where
  | emit (event : Event) (eventsTx : tokio.Sender)
      (sent : tokio.channel eventsTx = { before.channel with sent := before.channel.sent ++ [event] }) :
      Steps before (.emit event) { before with eventsTx }
  | subscribe (rx : tokio.Receiver) (eventsTx : tokio.Sender)
      (begins : tokio.cursor rx = before.channel.sent.length)
      (heard : tokio.channel eventsTx = { before.channel with receivers := before.channel.receivers + 1 }) :
      Steps before .subscribe
        { before with eventsTx, subscriptions := before.subscriptions ++ [⟨rx, [], false⟩] }
  /-- A call goes on: its sink takes what its receiver got. -/
  | turn (id : Nat) (call : Subscription tokio) (received : Received Event) (rx : tokio.Receiver)
      (now : before.subscriptions[id]? = some call) (running : call.returned = false)
      (turn : Channel.Receives tokio.capacity before.channel call.cursor received (tokio.cursor rx)) :
      Steps before (.forward id true) { before with
        subscriptions := before.subscriptions.set id ⟨rx, call.added ++ received.toList, false⟩ }
  /-- A receiver has lagged; nobody asks the sink. -/
  | lag (id : Nat) (call : Subscription tokio) (rx : tokio.Receiver) (missed : Nat)
      (now : before.subscriptions[id]? = some call) (running : call.returned = false)
      (turn : Channel.Receives tokio.capacity before.channel call.cursor (.lagged missed) (tokio.cursor rx)) :
      Steps before (.forward id false) { before with
        subscriptions := before.subscriptions.set id ⟨rx, call.added, false⟩ }
  /-- The sink takes no more. -/
  | tornDown (id : Nat) (call : Subscription tokio) (rx : tokio.Receiver) (eventsTx : tokio.Sender)
      (now : before.subscriptions[id]? = some call) (running : call.returned = false)
      (left : tokio.channel eventsTx = before.channel.leave) :
      Steps before (.forward id false)
        { before with eventsTx, subscriptions := before.subscriptions.set id ⟨rx, call.added, true⟩ }
  | poll (received : Received Event) (pollRx : tokio.Receiver)
      (turn : Channel.Receives tokio.capacity before.channel before.pollCursor received (tokio.cursor pollRx)) :
      Steps before .poll { before with pollRx, polled := before.polled ++ received.toList }

/-- A step does nothing else. -/
theorem step_cases {before after : FfiEvents tokio} {move : FfiEventsMove Event}
    (heard : before.channel.receivers ≠ 0) (stepped : step before move = some after) :
    Steps before move after := by
  cases move with
  | emit event =>
    obtain ⟨eventsTx, done, sent⟩ := Documented.send_heard heard event
    simp only [step, FfiEvents.emit, done] at stepped
    cases stepped
    exact .emit event eventsTx sent
  | subscribe =>
    cases stepped
    obtain ⟨begins, more⟩ := Prod.mk.inj (tokio.subscribe_eq before.eventsTx)
    exact .subscribe _ _ begins more
  | forward id listening =>
    obtain ⟨call, now, turned⟩ := Option.bind_eq_some_iff.mp stepped
    split at turned
    · cases turned
    · rename_i running
      have running := Bool.eq_false_of_not_eq_true running
      split at turned
      · rename_i event rx turn
        split at turned
        · rename_i listens
          subst listens
          cases turned
          exact .turn id call _ rx now running (Documented.receives turn)
        · rename_i deaf
          obtain rfl := Bool.eq_false_of_not_eq_true deaf
          cases turned
          exact .tornDown id call rx _ now running (tokio.leave_eq _ _)
      · rename_i missed rx turn
        cases turned
        cases listening with
        | true =>
          have same := Steps.turn id call _ rx now running (Documented.receives turn)
          rwa [Received.toList, List.append_nil] at same
        | false => exact .lag id call rx missed now running (Documented.receives turn)
      · cases turned
  | poll =>
    obtain rfl := Option.some.inj stepped
    simp only [FfiEvents.poll, pollEvent]
    cases given : tokio.recv before.eventsTx before.pollRx with
    | mk received pollRx =>
      have turn := Documented.receives given
      cases received with
      | item | lagged => exact .poll _ pollRx turn
      | empty =>
        have stays :
            Channel.Receives tokio.capacity before.channel before.pollCursor .empty before.pollCursor := by
          generalize tokio.cursor pollRx = last at turn
          cases turn with
          | empty end_ => exact .empty end_
        exact .poll .empty before.pollRx stays

end FfiEvents

end FileDrop
