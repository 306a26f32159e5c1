import FileDrop.Flutter.NearbyDevices
import FileDrop.Foundation.Since
import FileDrop.Verif.EventStream

/-!
# The app after it has fallen behind

Events that the app's stream has lost are gone, and nothing tells the app so. But each entry the app shows
is a function of the events from the one that wrote it on. So once the stream has caught up, every
transfer that was started, and every device that was discovered, within the last events that a channel
keeps is shown as if no event had been lost.
-/
namespace FileDrop.Flutter.Resync
open FileDrop FfiEvents EventStream Broadcast

/-! ## One entry -/

/-- What is shown of one transfer depends on nothing else. -/
theorem handle_local (id : String) (left right : ActiveTransfers) (event : FileDropEvent)
    (seen : left.get? id = right.get? id) : (handle left event).get? id = (handle right event).get? id := by
  cases event with
  | transferStarted transferId =>
    by_cases mine : id = transferId
    · subst mine
      simp only [handle, InsertionMap.get?_insert_self]
    · simp only [handle, InsertionMap.get?_insert_ne _ _ mine, seen]
  | transferProgress progress =>
    by_cases mine : id = progress.transferId
    · subst mine
      simp only [handle, InsertionMap.get?_insert_self]
    · simp only [handle, InsertionMap.get?_insert_ne _ _ mine, seen]
  | transferPaused transferId =>
    by_cases mine : id = transferId
    · subst mine
      simp only [handle_transferPaused, InsertionMap.get?_modify_self, seen]
    · simp only [handle_transferPaused, InsertionMap.get?_modify_ne _ _ mine, seen]
  | transferCompleted transferId =>
    by_cases mine : id = transferId
    · subst mine
      simp only [handle_transferCompleted, InsertionMap.get?_modify_self, seen]
    · simp only [handle_transferCompleted, InsertionMap.get?_modify_ne _ _ mine, seen]
  | transferFailed transferId =>
    by_cases mine : id = transferId
    · subst mine
      simp only [handle_transferFailed, InsertionMap.get?_modify_self, seen]
    · simp only [handle_transferFailed, InsertionMap.get?_modify_ne _ _ mine, seen]
  | deviceDiscovered | deviceConnected | pairingRequested | deviceDisconnected => exact seen

/-- What is shown of one device depends on nothing else. -/
theorem nearbyListener_local (id : String) (left right : NearbyDevices) (event : FileDropEvent)
    (seen : left.get? id = right.get? id) :
    (nearbyListener left event).get? id = (nearbyListener right event).get? id := by
  cases event with
  | deviceDiscovered device =>
    by_cases mine : id = device.deviceId
    · subst mine
      simp only [nearbyListener, InsertionMap.get?_insert_self]
    · simp only [nearbyListener, InsertionMap.get?_insert_ne _ _ mine, seen]
  | deviceDisconnected deviceId =>
    by_cases mine : id = deviceId
    · subst mine
      simp only [nearbyListener, InsertionMap.get?_erase_self]
    · simp only [nearbyListener, InsertionMap.get?_erase_ne _ mine, seen]
  | deviceConnected | pairingRequested | transferStarted | transferProgress | transferPaused
  | transferCompleted | transferFailed => exact seen

/-- So does what is shown after a new search. -/
theorem nearbyStep_local (id : String) (left right : NearbyDevices) (input : NearbyInput)
    (seen : left.get? id = right.get? id) :
    (nearbyStep left input).get? id = (nearbyStep right input).get? id := by
  cases input with
  | event event => exact nearbyListener_local id left right event seen
  | clear => rfl

/-! ## Inputs that agree from an entry on -/

/-- The events among inputs. -/
def eventsOf (inputs : List NearbyInput) : List FileDropEvent :=
  inputs.filterMap fun input =>
    match input with
    | .event event => some event
    | .clear => none

/-- Inputs that are events. -/
theorem eventsOf_events (events : List FileDropEvent) : eventsOf (events.map .event) = events := by
  induction events with
  | nil => rfl
  | cons event rest ih => exact congrArg (event :: ·) ih

/-- Inputs are split where their events are. -/
theorem eventsOf_split {inputs : List NearbyInput} {older recent : List FileDropEvent} {event : FileDropEvent}
    (all : eventsOf inputs = older ++ event :: recent) :
    ∃ front back, inputs = front ++ .event event :: back ∧ eventsOf front = older ∧ eventsOf back = recent := by
  obtain ⟨front, rest, rfl, before, after⟩ := List.filterMap_eq_append_iff.mp all
  obtain ⟨clears, input, back, rfl, none, given, later⟩ := List.filterMap_eq_cons_iff.mp after
  have same : input = .event event := by
    cases input with
    | event other => exact congrArg NearbyInput.event (Option.some.inj given)
    | clear => cases given
  subst same
  refine ⟨front ++ clears, back, by rw [List.append_assoc], ?_, later⟩
  rw [eventsOf, List.filterMap_append, before, List.filterMap_eq_nil_iff.mpr none, List.append_nil]

/-- What is shown of a device after a discovery does not depend on what was before it. -/
theorem nearby_discovered (device : Device) (front before back : List NearbyInput) :
    (nearbyDevices (front ++ .event (.deviceDiscovered device) :: back)).get? device.deviceId =
      (nearbyDevices (before ++ .event (.deviceDiscovered device) :: back)).get? device.deviceId := by
  refine Runs.foldl_look (nearbyStep_local device.deviceId) (fun left right => ?_) _ _ _ _ _
  simp only [nearbyStep, nearbyListener, InsertionMap.get?_insert_self]

/-! ## A stream that has caught up -/

/-- The call's receiver has nothing left to get. -/
def CaughtUp {tokio : Documented eventChannelCapacity Events.FileDropEvent} (world : FfiEvents tokio)
    (call : Subscription tokio) : Prop :=
  call.returned = false ∧ call.cursor = world.channel.sent.length

section

variable {tokio : Documented eventChannelCapacity Events.FileDropEvent}
variable {earlier later : List (FfiEventsMove Events.FileDropEvent)}
variable {after : FfiEvents tokio} {call : Subscription tokio}

/-- A stream that has caught up ends with the last events. -/
theorem caughtUp_added (ran : run (earlier ++ .subscribe :: later) new = some after)
    (now : after.subscriptions[subscribed earlier]? = some call) (caughtUp : CaughtUp after call) :
    ∃ older, call.added = older ++ (emitted later).drop ((emitted later).length - tokio.capacity) := by
  obtain ⟨known, cursor, there, within, follows, running⟩ := subscribed_forwarding ran
  obtain rfl := Option.some.inj (now.symm.trans there)
  have at_end : cursor = (emitted later).length := by
    have total := running caughtUp.1
    rw [caughtUp.2, (sound_run ran).sent, emitted_append, List.length_append, emitted] at total
    omega
  subst at_end
  have last : (emitted later).length ≤ ((emitted later).length - tokio.capacity) + tokio.capacity := by omega
  have recent := follows.recent within (Nat.zero_le _) last
  rwa [List.take_length] at recent

/-- What a stream has lost was before the recent events. -/
theorem caughtUp_split (ran : run (earlier ++ .subscribe :: later) new = some after)
    (now : after.subscriptions[subscribed earlier]? = some call) (caughtUp : CaughtUp after call)
    {before recent : List Events.FileDropEvent} {event : Events.FileDropEvent}
    (emits : emitted later = before ++ event :: recent) (few : recent.length < eventChannelCapacity) :
    ∃ older, call.added = older ++ event :: recent := by
  obtain ⟨older, added⟩ := caughtUp_added ran now caughtUp
  have enough := tokio.enough
  rw [emits, List.length_append, List.length_cons, List.drop_append_of_le_length (by omega)] at added
  exact ⟨older ++ before.drop (before.length + (recent.length + 1) - tokio.capacity), by
    rw [added, List.append_assoc]⟩

/-- In every run, however many events the app's stream has lost: when it has caught up, a transfer whose
start is among the last events is shown as all the events of the engine leave it. So is a device that was
discovered among them, wherever between the events the list was cleared: it is shown as it would be if the
app had got everything before the discovery as well, whatever clears there had been, and from then on what
it did get. -/
theorem resynchronised (ran : run (earlier ++ .subscribe :: later) new = some after)
    (now : after.subscriptions[subscribed earlier]? = some call) (caughtUp : CaughtUp after call)
    {before recent : List Events.FileDropEvent} {event : Events.FileDropEvent}
    (emits : emitted later = before ++ event :: recent) (few : recent.length < eventChannelCapacity) :
    (∀ transferId fileName totalBytes, event = .transferStarted transferId fileName totalBytes →
      (activeTransfers (call.added.map ofEvent)).get? transferId.toText =
        (activeTransfers ((emitted later).map ofEvent)).get? transferId.toText) ∧
    (∀ device, event = .deviceDiscovered device → ∀ inputs, eventsOf inputs = call.added.map ofEvent →
      ∃ front back, inputs = front ++ .event (ofEvent event) :: back ∧ eventsOf back = recent.map ofEvent ∧
        ∀ whole, eventsOf whole = before.map ofEvent →
          (nearbyDevices inputs).get? device.deviceId.toText =
            (nearbyDevices (whole ++ .event (ofEvent event) :: back)).get? device.deviceId.toText) := by
  obtain ⟨older, added⟩ := caughtUp_split ran now caughtUp emits few
  rw [added]
  constructor
  · rintro transferId fileName totalBytes rfl
    rw [emits, List.map_append, List.map_append, List.map_cons]
    refine Runs.foldl_look (handle_local transferId.toText) (fun left right => ?_) _ _ _ _ _
    simp only [ofEvent, handle, InsertionMap.get?_insert_self]
  · rintro device rfl inputs given
    rw [List.map_append, List.map_cons] at given
    obtain ⟨front, back, rfl, -, same⟩ := eventsOf_split given
    exact ⟨front, back, rfl, same, fun whole _ => nearby_discovered (deviceFromDto device) front whole back⟩

end

/-- A device that connects, one that is discovered, a transfer that is started, and other events. -/
def sampleEvents (others : List Events.FileDropEvent) : List Events.FileDropEvent :=
  .deviceConnected ⟨4⟩ :: .deviceDiscovered ⟨⟨5⟩, "peer", "10.0.0.2", 53317, "android", false⟩ ::
    .transferStarted ⟨7⟩ "a.txt" 2 :: others

/-- The library of the run. -/
abbrev kept : Documented eventChannelCapacity Events.FileDropEvent := .plain eventChannelCapacity

/-- The events come, and then the stream catches up. -/
def sampleMoves (others : List Events.FileDropEvent) : List (FfiEventsMove Events.FileDropEvent) :=
  (sampleEvents others).map .emit ++ List.replicate 1025 (.forward 0 true)

/-- With so many other events, the stream loses the first event and gets all others. -/
theorem sampleMoves_ran {others : List Events.FileDropEvent} (many : others.length = 1022) :
    ∃ (after : FfiEvents kept) (call : Subscription kept),
      run ([] ++ .subscribe :: sampleMoves others) new = some after ∧
        after.subscriptions[subscribed ([] : List (FfiEventsMove Events.FileDropEvent))]? = some call ∧
        CaughtUp after call ∧ call.added = (sampleEvents others).tail := by
  have sent : (sampleEvents others).length = 1025 := congrArg (· + 3) many
  have begun : run [.subscribe] new =
      some (⟨⟨[], 2⟩, (0 : Nat), [], [⟨(0 : Nat), [], false⟩]⟩ : FfiEvents kept) := rfl
  obtain ⟨eventsTx, emits, known⟩ := @run_emits _ kept ⟨⟨[], 2⟩, (0 : Nat), [], [⟨(0 : Nat), [], false⟩]⟩
    (Nat.succ_ne_zero 1) (sampleEvents others)
  obtain rfl : eventsTx = ⟨sampleEvents others, 2⟩ := known
  obtain ⟨last, at_end, drained⟩ := @forwards_drain _ kept
    ⟨⟨sampleEvents others, 2⟩, (0 : Nat), [], [⟨(0 : Nat), [], false⟩]⟩ _ 0 [] rfl (Nat.zero_le _)
  have length : (⟨⟨sampleEvents others, 2⟩, (0 : Nat), [], [⟨(0 : Nat), [], false⟩]⟩ :
      FfiEvents kept).channel.sent.length = 1025 := sent
  have room : kept.capacity = 1024 := rfl
  have start : kept.cursor (0 : Nat) = 0 := rfl
  have count : turnsNeeded 1024 0 1025 = 1025 := rfl
  have lost : max 0 (1025 - 1024) = 1 := rfl
  rw [length, room, start, count, lost] at drained
  refine ⟨⟨⟨sampleEvents others, 2⟩, (0 : Nat), [], [⟨last, (sampleEvents others).tail, false⟩]⟩,
    ⟨last, (sampleEvents others).tail, false⟩, ?_, rfl, ⟨rfl, at_end⟩, rfl⟩
  unfold run at begun emits drained ⊢
  rw [List.nil_append, sampleMoves, ← List.singleton_append, Machine.run_append, begun, Option.bind_some,
    Machine.run_append, emits, Option.bind_some, drained]
  rfl

/-- The stream has lost the first event. The transfer is shown, and so is the device, though the list was
cleared after the stream had begun. -/
theorem resynchronised_sample : ∃ others : List Events.FileDropEvent,
    (activeTransfers ((sampleEvents others).tail.map ofEvent)).get? (⟨7⟩ : Uuid).toText =
        (activeTransfers ((sampleEvents others).map ofEvent)).get? (⟨7⟩ : Uuid).toText ∧
      ∃ back, eventsOf back = (.transferStarted ⟨7⟩ "a.txt" 2 :: others).map ofEvent ∧
        (nearbyDevices (.clear :: (sampleEvents others).tail.map (.event <| ofEvent ·))).get? (⟨5⟩ : Uuid).toText =
          (nearbyDevices (.event (.deviceConnected (⟨4⟩ : Uuid).toText) :: .clear ::
            .event (.deviceDiscovered ⟨(⟨5⟩ : Uuid).toText, "peer", "10.0.0.2", 53317, "android", false⟩) ::
              back)).get? (⟨5⟩ : Uuid).toText := by
  refine ⟨List.replicate 1022 (.deviceConnected ⟨4⟩), ?_⟩
  have many : (List.replicate 1022 (Events.FileDropEvent.deviceConnected ⟨4⟩)).length = 1022 :=
    List.length_replicate
  generalize List.replicate 1022 (Events.FileDropEvent.deviceConnected ⟨4⟩) = others at many ⊢
  obtain ⟨after, call, ran, now, caughtUp, added⟩ := sampleMoves_ran many
  have emits : emitted (sampleMoves others) = sampleEvents others := by
    rw [sampleMoves, emitted_append, emitted_emits, emitted_forwards, List.append_nil]
  have started : emitted (sampleMoves others) =
      (sampleEvents others).take 2 ++ .transferStarted ⟨7⟩ "a.txt" 2 :: others := emits
  have found : emitted (sampleMoves others) = (sampleEvents others).take 1 ++
      .deviceDiscovered ⟨⟨5⟩, "peer", "10.0.0.2", 53317, "android", false⟩ ::
        .transferStarted ⟨7⟩ "a.txt" 2 :: others := emits
  refine ⟨?_, ?_⟩
  · have few : others.length < eventChannelCapacity := many ▸ (by decide)
    have shown := (resynchronised ran now caughtUp started few).1 ⟨7⟩ "a.txt" 2 rfl
    rwa [added, emits] at shown
  · have few : (.transferStarted ⟨7⟩ "a.txt" 2 :: others : List Events.FileDropEvent).length <
        eventChannelCapacity := by
      rw [List.length_cons, many]
      decide
    have given : eventsOf (.clear :: (sampleEvents others).tail.map (.event <| ofEvent ·)) =
        call.added.map ofEvent := by
      rw [added, ← eventsOf_events ((sampleEvents others).tail.map ofEvent), List.map_map]
      rfl
    obtain ⟨front, back, same, later, shown⟩ :=
      (resynchronised ran now caughtUp found few).2 _ rfl _ given
    exact ⟨back, later, shown [.event (.deviceConnected (⟨4⟩ : Uuid).toText), .clear] rfl⟩

end FileDrop.Flutter.Resync
