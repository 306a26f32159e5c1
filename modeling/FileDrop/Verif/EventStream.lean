import FileDrop.Ffi.Runtime

/-!
# What receivers of events get

The receiver that polls ask was made with the channel, so the channel always has one, and nothing that is
emitted is handed back. Every call of `subscribe_events` then gets what is emitted after it, in order and
once, except for events that more than a full channel of others came after before its turn; and so do
polls, from the first event on.
-/
namespace FileDrop.EventStream
open FileDrop FfiEvents Broadcast

variable {Event : Type} {tokio : Documented eventChannelCapacity Event}

/-- The events that moves emit. -/
def emitted : List (FfiEventsMove Event) → List Event
  | [] => []
  | .emit event :: rest => event :: emitted rest
  | .subscribe :: rest | .forward _ _ :: rest | .poll :: rest => emitted rest

/-- How many calls of `subscribe_events` moves make. -/
def subscribed : List (FfiEventsMove Event) → Nat
  | [] => 0
  | .subscribe :: rest => subscribed rest + 1
  | .emit _ :: rest | .forward _ _ :: rest | .poll :: rest => subscribed rest

@[simp] theorem emitted_append (first second : List (FfiEventsMove Event)) :
    emitted (first ++ second) = emitted first ++ emitted second := by
  induction first with
  | nil => rfl
  | cons move rest ih =>
    cases move with
    | emit event => exact congrArg (event :: ·) ih
    | subscribe | forward | poll => exact ih

/-- Emits in a row emit these events. -/
theorem emitted_emits (events : List Event) : emitted (events.map .emit) = events := by
  induction events with
  | nil => rfl
  | cons event rest ih => exact congrArg (event :: ·) ih

/-- Turns of a call emit nothing. -/
theorem emitted_forwards (count id : Nat) (listening : Bool) :
    emitted (List.replicate count (.forward id listening : FfiEventsMove Event)) = [] := by
  induction count with
  | zero => rfl
  | succ count ih => exact ih

@[simp] theorem subscribed_append (first second : List (FfiEventsMove Event)) :
    subscribed (first ++ second) = subscribed first + subscribed second := by
  induction first with
  | nil => exact (Nat.zero_add _).symm
  | cons move rest ih =>
    cases move with
    | subscribe =>
      simp only [List.cons_append, subscribed, ih]
      omega
    | emit | forward | poll => exact ih

/-- A run of the runtime, whoever makes its moves. -/
def run (moves : List (FfiEventsMove Event)) (world : FfiEvents tokio) : Option (FfiEvents tokio) :=
  Machine.run step (fun _ _ => True) moves world

/-! ## Nothing is handed back -/

/-- The channel holds what was emitted; its receivers are the one for polls and those of the calls that
have not returned. -/
structure Sound (past : List (FfiEventsMove Event)) (world : FfiEvents tokio) : Prop where
  sent : world.channel.sent = emitted past
  calls : world.subscriptions.length = subscribed past
  receivers : world.channel.receivers = world.subscriptions.countP (!·.returned) + 1

/-- A call that goes on keeps its receiver. -/
theorem countP_turn {subscriptions : List (Subscription tokio)} {id : Nat} {call next : Subscription tokio}
    (now : subscriptions[id]? = some call) (same : next.returned = call.returned) :
    (subscriptions.set id next).countP (!·.returned) = subscriptions.countP (!·.returned) := by
  obtain ⟨inside, found⟩ := List.getElem?_eq_some_iff.mp now
  rw [List.countP_set inside, found, same]
  have counted : (if !call.returned then 1 else 0) ≤ subscriptions.countP (!·.returned) := by
    split
    · rename_i running
      exact List.countP_pos_iff.mpr ⟨call, List.mem_of_getElem? now, running⟩
    · exact Nat.zero_le _
  omega

/-- A call that returns has dropped its receiver. -/
theorem countP_returned {subscriptions : List (Subscription tokio)} {id : Nat}
    {call next : Subscription tokio} (now : subscriptions[id]? = some call)
    (running : call.returned = false) (returned : next.returned = true) :
    (subscriptions.set id next).countP (!·.returned) = subscriptions.countP (!·.returned) - 1 := by
  obtain ⟨inside, found⟩ := List.getElem?_eq_some_iff.mp now
  simp only [List.countP_set inside, found, running, returned, Bool.not_false, Bool.not_true, if_true,
    Bool.false_eq_true, if_false, Nat.add_zero]

/-- Every step keeps it so. -/
theorem sound_step {past : List (FfiEventsMove Event)} {move : FfiEventsMove Event}
    {before after : FfiEvents tokio} (sound : Sound past before)
    (stepped : step before move = some after) :
    Steps before move after ∧ Sound (past ++ [move]) after := by
  have heard : before.channel.receivers ≠ 0 := by
    rw [sound.receivers]
    exact Nat.succ_ne_zero _
  have cases_ := step_cases heard stepped
  refine ⟨cases_, ?_⟩
  cases cases_ with
  | emit event eventsTx sent =>
    refine ⟨?_, ?_, ?_⟩
    · rw [channel, sent, emitted_append, ← sound.sent]
      rfl
    · rw [subscribed_append, ← sound.calls]
      rfl
    · rw [channel, sent]
      exact sound.receivers
  | subscribe rx eventsTx begins more =>
    refine ⟨?_, ?_, ?_⟩
    · rw [channel, more, emitted_append, ← sound.sent]
      exact (List.append_nil _).symm
    · rw [List.length_append, subscribed_append, ← sound.calls]
      rfl
    · rw [channel, more, List.countP_append, sound.receivers]
      rfl
  | turn id call received rx now running turn =>
    refine ⟨?_, ?_, ?_⟩
    · rw [emitted_append, ← sound.sent]
      exact (List.append_nil _).symm
    · rw [List.length_set, subscribed_append, ← sound.calls]
      rfl
    · rw [countP_turn now running.symm]
      exact sound.receivers
  | lag id call rx missed now running turn =>
    refine ⟨?_, ?_, ?_⟩
    · rw [emitted_append, ← sound.sent]
      exact (List.append_nil _).symm
    · rw [List.length_set, subscribed_append, ← sound.calls]
      rfl
    · rw [countP_turn now running.symm]
      exact sound.receivers
  | tornDown id call rx eventsTx now running left =>
    refine ⟨?_, ?_, ?_⟩
    · rw [channel, left, emitted_append, ← sound.sent]
      exact (List.append_nil _).symm
    · rw [List.length_set, subscribed_append, ← sound.calls]
      rfl
    · have counted : 0 < before.subscriptions.countP (!·.returned) :=
        List.countP_pos_iff.mpr ⟨call, List.mem_of_getElem? now, by rw [running]; rfl⟩
      rw [channel, left, countP_returned now running rfl]
      show before.channel.receivers - 1 = _
      rw [sound.receivers]
      omega
  | poll received pollRx turn =>
    refine ⟨?_, ?_, sound.receivers⟩
    · rw [emitted_append, ← sound.sent]
      exact (List.append_nil _).symm
    · rw [subscribed_append, ← sound.calls]
      rfl

/-- A new runtime has a receiver, and nothing has been emitted. -/
theorem sound_new : Sound [] (new : FfiEvents tokio) := by
  have empty : (new : FfiEvents tokio).channel = .new := tokio.new_eq.1
  refine ⟨?_, rfl, ?_⟩
  · rw [empty]
    rfl
  · rw [empty]
    rfl

/-- Every run keeps it so. -/
theorem sound_run {moves : List (FfiEventsMove Event)} {after : FfiEvents tokio}
    (ran : run moves new = some after) : Sound moves after :=
  Machine.invariant_of_run sound_new (fun _ _ _ _ sound _ stepped => (sound_step sound stepped).2) ran

/-! ## In a row -/

section

variable {world : FfiEvents tokio} {eventsTx : tokio.Sender} {rx last : tokio.Receiver}

/-- Emits in a row, while there is a receiver. -/
theorem run_emits (heard : world.channel.receivers ≠ 0) (events : List Event) :
    ∃ eventsTx, run (events.map .emit) world = some { world with eventsTx } ∧
      tokio.channel eventsTx = { world.channel with sent := world.channel.sent ++ events } := by
  induction events generalizing world with
  | nil => exact ⟨world.eventsTx, rfl, by rw [List.append_nil]⟩
  | cons event rest ih =>
    obtain ⟨next, done, sent⟩ := Documented.send_heard heard event
    have emits : world.emit event = { world with eventsTx := next } := by
      rw [FfiEvents.emit, done]
    have goesOn : ({ world with eventsTx := next } : FfiEvents tokio).channel.receivers ≠ 0 := by
      rw [channel, sent]
      exact heard
    obtain ⟨last, ran, all⟩ := ih goesOn
    refine ⟨last, ?_, ?_⟩
    · show (some (world.emit event)).bind (run (rest.map .emit)) = _
      rw [Option.bind_some, emits, ran]
    · rw [all, channel, sent]
      simp only [List.append_assoc, List.singleton_append]

/-- A poll that gets an event. -/
theorem poll_item {event : Event} {pollRx : tokio.Receiver}
    (turn : tokio.recv world.eventsTx world.pollRx = (.item event, pollRx)) :
    world.pollEvent.1 = some event ∧ world.poll = { world with pollRx, polled := world.polled ++ [event] } := by
  simp only [FfiEvents.poll, pollEvent, turn, Option.toList_some, and_self]

/-- A poll that has lagged gets none. -/
theorem poll_lagged {missed : Nat} {pollRx : tokio.Receiver}
    (turn : tokio.recv world.eventsTx world.pollRx = (.lagged missed, pollRx)) :
    world.pollEvent.1 = none ∧ world.poll = { world with pollRx } := by
  simp only [FfiEvents.poll, pollEvent, turn, Option.toList_none, List.append_nil, and_self]

/-- Polls in a row get what their receiver gets. -/
theorem polls_gets {items : List Event} (gets : Documented.Gets eventsTx rx items last)
    (polled : List Event) (subscriptions : List (Subscription tokio)) :
    returns items.length ⟨eventsTx, rx, polled, subscriptions⟩ = items.map some ∧
      poll^[items.length] ⟨eventsTx, rx, polled, subscriptions⟩ =
        ⟨eventsTx, last, polled ++ items, subscriptions⟩ := by
  induction gets generalizing polled with
  | done =>
    rw [List.append_nil]
    exact ⟨rfl, rfl⟩
  | @item receiver middle last item rest turn later ih =>
    obtain ⟨event, next⟩ := @poll_item _ _ ⟨eventsTx, receiver, polled, subscriptions⟩ _ _ turn
    obtain ⟨events, after⟩ := ih (polled ++ [item])
    rw [List.length_cons, returns, event, next, events, Function.iterate_succ_apply, next, after]
    exact ⟨rfl, by simp only [List.append_assoc, List.singleton_append]⟩

/-- A turn of a call that gets an event. -/
theorem forward_item {id : Nat} {added : List Event} {event : Event} {next : tokio.Receiver}
    (now : world.subscriptions[id]? = some ⟨rx, added, false⟩)
    (turn : tokio.recv world.eventsTx rx = (.item event, next)) : world.forward id true = some { world with
      subscriptions := world.subscriptions.set id ⟨next, added ++ [event], false⟩ } := by
  simp only [forward, now, Option.bind_some, turn, Bool.false_eq_true, if_false, if_true]

/-- A turn of one that has lagged. -/
theorem forward_lagged {id : Nat} {added : List Event} {missed : Nat} {next : tokio.Receiver}
    (now : world.subscriptions[id]? = some ⟨rx, added, false⟩)
    (turn : tokio.recv world.eventsTx rx = (.lagged missed, next)) (listening : Bool) :
    world.forward id listening =
      some { world with subscriptions := world.subscriptions.set id ⟨next, added, false⟩ } := by
  simp only [forward, now, Option.bind_some, turn, Bool.false_eq_true, if_false]

/-- A call in its turns gets what its receiver gets. -/
theorem forwards_gets {items : List Event} (gets : Documented.Gets eventsTx rx items last)
    (pollRx : tokio.Receiver) (polled : List Event) {id : Nat} {added : List Event}
    {subscriptions : List (Subscription tokio)} (now : subscriptions[id]? = some ⟨rx, added, false⟩) :
    run (List.replicate items.length (.forward id true)) ⟨eventsTx, pollRx, polled, subscriptions⟩ =
      some ⟨eventsTx, pollRx, polled, subscriptions.set id ⟨last, added ++ items, false⟩⟩ := by
  induction gets generalizing subscriptions added with
  | done =>
    obtain ⟨inside, found⟩ := List.getElem?_eq_some_iff.mp now
    rw [List.append_nil, ← found, List.set_getElem_self]
    rfl
  | @item receiver middle last item rest turn later ih =>
    have inside := (List.getElem?_eq_some_iff.mp now).1
    have taken := @forward_item _ _ ⟨eventsTx, pollRx, polled, subscriptions⟩ _ _ _ _ _ now turn
    have went : (subscriptions.set id ⟨middle, added ++ [item], false⟩)[id]? =
        some ⟨middle, added ++ [item], false⟩ :=
      List.getElem?_set_self inside
    have after := ih went
    show (forward _ id true).bind (run (List.replicate rest.length (.forward id true))) = _
    rw [taken, Option.bind_some, after]
    simp only [List.set_set, List.append_assoc, List.singleton_append]

/-- How many turns bring a receiver to the end. -/
def turnsNeeded (capacity cursor sent : Nat) : Nat :=
  if cursor + capacity < sent then capacity + 1 else sent - cursor

/-- A call that goes on catches up by turns of its own. -/
theorem forwards_drain {id : Nat} {added : List Event} (now : world.subscriptions[id]? = some ⟨rx, added, false⟩)
    (within : tokio.cursor rx ≤ world.channel.sent.length) :
    ∃ last, tokio.cursor last = world.channel.sent.length ∧
      run (List.replicate (turnsNeeded tokio.capacity (tokio.cursor rx) world.channel.sent.length)
          (.forward id true)) world =
        some { world with subscriptions := world.subscriptions.set id ⟨last, added ++ world.channel.sent.drop
          (max (tokio.cursor rx) (world.channel.sent.length - tokio.capacity)), false⟩ } := by
  unfold turnsNeeded
  obtain ⟨last, at_end, ⟨near, gets⟩ | ⟨behind, missed, middle, lagged, gets⟩⟩ := Documented.drains within
  · have near : ¬tokio.cursor rx + tokio.capacity < world.channel.sent.length := Nat.not_lt.mpr near
    have after := forwards_gets gets world.pollRx world.polled now
    rw [List.length_drop] at after
    rw [if_neg near, Nat.max_eq_left (by omega)]
    exact ⟨last, at_end, after⟩
  · have behind : tokio.cursor rx + tokio.capacity < world.channel.sent.length := behind
    have inside := (List.getElem?_eq_some_iff.mp now).1
    have told : (world.subscriptions.set id ⟨middle, added, false⟩)[id]? = some ⟨middle, added, false⟩ :=
      List.getElem?_set_self inside
    have after := forwards_gets gets world.pollRx world.polled told
    rw [List.length_drop, Nat.sub_sub_self (by omega),
      List.set_set] at after
    rw [if_pos behind, Nat.max_eq_right (by omega)]
    refine ⟨last, at_end, ?_⟩
    show (world.forward id true).bind (run (List.replicate tokio.capacity (.forward id true))) = _
    rw [forward_lagged now lagged, Option.bind_some]
    exact after

end

/-! ## A run that falls behind -/

/-- The library of the run. -/
abbrev kept : Documented eventChannelCapacity Nat := .plain eventChannelCapacity

/-- Events, then two polls and two turns of a call. -/
def lateMoves (events : List Nat) : List (FfiEventsMove Nat) :=
  events.map .emit ++ ([.poll, .poll] ++ [.forward 0 true, .forward 0 true])

/-- These events, and one before them, are three more than a channel keeps: the first poll and the first
turn get nothing, and the second ones the oldest event that is kept. -/
theorem lateMoves_ran {events : List Nat} (many : events.length = 1026) {oldest : Nat}
    (there : events[2]? = some oldest) : run ([.emit 7] ++ .subscribe :: lateMoves events) new =
      some (⟨⟨7 :: events, 2⟩, (4 : Nat), [oldest], [⟨(4 : Nat), [oldest], false⟩]⟩ : FfiEvents kept) := by
  have begun : run ([.emit 7] ++ [.subscribe]) new =
      some (⟨⟨[7], 2⟩, (0 : Nat), [], [⟨(1 : Nat), [], false⟩]⟩ : FfiEvents kept) := rfl
  obtain ⟨eventsTx, emits, known⟩ := @run_emits _ kept ⟨⟨[7], 2⟩, (0 : Nat), [], [⟨(1 : Nat), [], false⟩]⟩
    (Nat.succ_ne_zero 1) events
  obtain rfl : eventsTx = ⟨7 :: events, 2⟩ := known
  have sent : (7 :: events).length = eventChannelCapacity + 3 := congrArg (· + 1) many
  have behind {cursor : Nat} (lost : cursor < 3) :
      kept.recv ⟨7 :: events, 2⟩ cursor =
        (.lagged (eventChannelCapacity + 3 - eventChannelCapacity - cursor), (3 : Nat)) := by
    show Channel.receive _ _ _ = _
    rw [Channel.receive, sent, if_pos (by omega), Nat.add_sub_cancel_left]
  have near : kept.recv ⟨7 :: events, 2⟩ (3 : Nat) = (.item oldest, (4 : Nat)) := by
    have next : (7 :: events)[3]? = some oldest := there
    show Channel.receive _ _ _ = _
    rw [Channel.receive, sent, if_neg (by omega), next]
  have polls : run [.poll, .poll]
      (⟨⟨7 :: events, 2⟩, (0 : Nat), [], [⟨(1 : Nat), [], false⟩]⟩ : FfiEvents kept) =
      some ⟨⟨7 :: events, 2⟩, (4 : Nat), [oldest], [⟨(1 : Nat), [], false⟩]⟩ := by
    have first := @poll_lagged _ kept ⟨⟨7 :: events, 2⟩, (0 : Nat), [], [⟨(1 : Nat), [], false⟩]⟩ _ _
      (behind (show 0 < 3 by decide))
    have second := @poll_item _ kept ⟨⟨7 :: events, 2⟩, (3 : Nat), [], [⟨(1 : Nat), [], false⟩]⟩ _ _ near
    show some (poll (poll _)) = _
    rw [first.2, second.2]
    rfl
  have turns : run [.forward 0 true, .forward 0 true]
      (⟨⟨7 :: events, 2⟩, (4 : Nat), [oldest], [⟨(1 : Nat), [], false⟩]⟩ : FfiEvents kept) =
      some ⟨⟨7 :: events, 2⟩, (4 : Nat), [oldest], [⟨(4 : Nat), [oldest], false⟩]⟩ := by
    have first := @forward_lagged _ kept
      ⟨⟨7 :: events, 2⟩, (4 : Nat), [oldest], [⟨(1 : Nat), [], false⟩]⟩ _ 0 _ _ _ rfl (behind (show 1 < 3 by decide)) true
    have second := @forward_item _ kept
      ⟨⟨7 :: events, 2⟩, (4 : Nat), [oldest], [⟨(3 : Nat), [], false⟩]⟩ _ 0 _ _ _ rfl near
    show (forward _ 0 true).bind (fun after => (after.forward 0 true).bind some) = _
    rw [first, Option.bind_some]
    exact congrArg (Option.bind · some) second
  unfold run at begun emits polls turns ⊢
  rw [lateMoves, List.append_cons, Machine.run_append, begun, Option.bind_some, Machine.run_append, emits,
    Option.bind_some, Machine.run_append, polls, Option.bind_some, turns]

/-! ## Polls -/

/-- What polls have returned. -/
structure Polled (past : List (FfiEventsMove Event)) (world : FfiEvents tokio) : Prop where
  sound : Sound past world
  within : world.pollCursor ≤ (emitted past).length
  follows : Follows tokio.capacity (emitted past) 0 world.pollCursor world.polled

/-- A receiver that has got something of what was emitted has got it when more is emitted. -/
theorem follows_emitted {capacity : Nat} {past : List (FfiEventsMove Event)} {start cursor : Nat}
    {got : List Event}
    (follows : Follows capacity (emitted past) start cursor got) (within : cursor ≤ (emitted past).length)
    (move : FfiEventsMove Event) :
    cursor ≤ (emitted (past ++ [move])).length ∧
      Follows capacity (emitted (past ++ [move])) start cursor got := by
  rw [emitted_append]
  refine ⟨?_, follows.append within _⟩
  rw [List.length_append]
  exact Nat.le_add_right_of_le within

/-- Every step keeps polls following what is emitted. -/
theorem polled_step {past : List (FfiEventsMove Event)} {move : FfiEventsMove Event}
    {before after : FfiEvents tokio} (polled : Polled past before)
    (stepped : step before move = some after) : Polled (past ++ [move]) after := by
  obtain ⟨cases_, sound⟩ := sound_step polled.sound stepped
  obtain ⟨within, follows⟩ := follows_emitted polled.follows polled.within move
  cases cases_ with
  | emit | subscribe | turn | lag | tornDown => exact ⟨sound, within, follows⟩
  | poll received pollRx turn =>
    have now := polled.sound.sent
    have same : emitted (past ++ [.poll]) = emitted past := by
      rw [emitted_append]
      exact List.append_nil _
    have followed : Follows tokio.capacity before.channel.sent 0 before.pollCursor before.polled :=
      now ▸ polled.follows
    refine ⟨sound, ?_, ?_⟩
    · rw [same, ← now]
      exact turn.within (now ▸ polled.within)
    · rw [same, ← now]
      exact followed.receives (Nat.zero_le _) turn

/-- Every run keeps it so. -/
theorem polled_run {moves : List (FfiEventsMove Event)} {after : FfiEvents tokio}
    (ran : run moves new = some after) : Polled moves after :=
  have begins : Polled [] (new : FfiEvents tokio) := by
    have start : (new : FfiEvents tokio).pollCursor = 0 := tokio.new_eq.2
    refine ⟨sound_new, ?_, ?_⟩
    · rw [start]
      exact Nat.zero_le _
    · rw [start]
      exact follows_start
  Machine.invariant_of_run begins (fun _ _ _ _ polled _ stepped => polled_step polled stepped) ran

/-- In every run polls get what is emitted in order and once, from the first event on. An event they have
passed without getting it came before as many others as the channel keeps. -/
theorem polled_follows {moves : List (FfiEventsMove Event)} {after : FfiEvents tokio}
    (ran : run moves new = some after) :
    after.pollCursor ≤ (emitted moves).length ∧
      Follows eventChannelCapacity (emitted moves) 0 after.pollCursor after.polled :=
  have polled := polled_run ran
  ⟨polled.within, polled.follows.mono tokio.enough⟩

/-- The first poll has lost three events, and the second gets the one after them. -/
theorem polled_follows_sample : Follows eventChannelCapacity
    (emitted ([.emit 7] ++ .subscribe :: lateMoves (List.range 1026))) 0 4 [2] :=
  (polled_follows (lateMoves_ran List.length_range (List.getElem?_range (by decide)))).2

/-- After every run, polling on returns, in order, every event that polls have not returned and the channel
has kept, and nothing else; only a receiver that has fallen behind gets nothing, exactly once and first. -/
theorem polls_drain {moves : List (FfiEventsMove Event)} {world : FfiEvents tokio}
    (ran : run moves new = some world) :
    returns (turnsNeeded tokio.capacity world.pollCursor (emitted moves).length) world =
        (if world.pollCursor + tokio.capacity < (emitted moves).length then [none] else []) ++
          ((emitted moves).drop (max world.pollCursor ((emitted moves).length - tokio.capacity))).map some ∧
      ∃ pollRx, tokio.cursor pollRx = (emitted moves).length ∧
        poll^[turnsNeeded tokio.capacity world.pollCursor (emitted moves).length] world = { world with
          pollRx
          polled := world.polled ++
            (emitted moves).drop (max world.pollCursor ((emitted moves).length - tokio.capacity)) } := by
  have polled := polled_run ran
  have within := polled.within
  rw [← polled.sound.sent] at within ⊢
  unfold turnsNeeded
  obtain ⟨last, at_end, ⟨near, gets⟩ | ⟨behind, missed, middle, lagged, gets⟩⟩ := Documented.drains within
  · have near : ¬world.pollCursor + tokio.capacity < world.channel.sent.length := Nat.not_lt.mpr near
    obtain ⟨events, after⟩ := polls_gets gets world.polled world.subscriptions
    rw [List.length_drop] at events after
    rw [if_neg near, if_neg near, Nat.max_eq_left (by omega)]
    exact ⟨events, last, at_end, after⟩
  · have behind : world.pollCursor + tokio.capacity < world.channel.sent.length := behind
    obtain ⟨nothing, next⟩ := poll_lagged lagged
    obtain ⟨events, after⟩ := polls_gets gets world.polled world.subscriptions
    rw [List.length_drop, Nat.sub_sub_self (by omega)]
      at events after
    rw [if_pos behind, if_pos behind, Nat.max_eq_right (by omega), returns, nothing, next,
      Function.iterate_succ_apply, next]
    exact ⟨congrArg (none :: ·) events, last, at_end, after⟩

/-- After more events than are kept, polling on returns nothing, and then those that are. -/
theorem polls_drain_sample :
    returns 1025 (⟨⟨List.range 1026, 1⟩, (0 : Nat), [], []⟩ : FfiEvents kept) =
      none :: ((List.range 1026).drop 2).map some := by
  have many : (List.range 1026).length = 1026 := List.length_range
  generalize List.range 1026 = events at many ⊢
  obtain ⟨eventsTx, emits, known⟩ := @run_emits _ kept new (Nat.succ_ne_zero 0) events
  obtain rfl : eventsTx = ⟨events, 1⟩ := known
  have ran : run (events.map .emit) new = some (⟨⟨events, 1⟩, (0 : Nat), [], []⟩ : FfiEvents kept) := emits
  have start : (⟨⟨events, 1⟩, (0 : Nat), [], []⟩ : FfiEvents kept).pollCursor = 0 := rfl
  have room : kept.capacity = 1024 := rfl
  have count : turnsNeeded 1024 0 1026 = 1025 := rfl
  have drained := (polls_drain ran).1
  rw [emitted_emits, many, start, room, count, if_pos (by decide)] at drained
  exact drained

/-! ## Calls of `subscribe_events` -/

/-- What a call that began at `start` has forwarded. -/
structure Forwarding (id start : Nat) (past : List (FfiEventsMove Event))
    (world : FfiEvents tokio) : Prop where
  sound : Sound past world
  call : ∃ call cursor, world.subscriptions[id]? = some call ∧
    start ≤ cursor ∧ cursor ≤ (emitted past).length ∧
    Follows tokio.capacity (emitted past) start cursor call.added ∧
    (call.returned = false → call.cursor = cursor)

section

variable {id start : Nat} {past : List (FfiEventsMove Event)} {move : FfiEventsMove Event}
variable {before after : FfiEvents tokio}

/-- A step that leaves the call alone. -/
theorem Forwarding.aside (forwarding : Forwarding id start past before)
    (sound : Sound (past ++ [move]) after)
    (same : ∀ call, before.subscriptions[id]? = some call → after.subscriptions[id]? = some call) :
    Forwarding id start (past ++ [move]) after := by
  obtain ⟨call, cursor, now, began, within, follows, running⟩ := forwarding.call
  obtain ⟨within, follows⟩ := follows_emitted follows within move
  exact ⟨sound, call, cursor, same call now, began, within, follows, running⟩

/-- A step of another call leaves this one alone. -/
theorem set_other {subscriptions : List (Subscription tokio)} {other : Nat} {next : Subscription tokio}
    (apart : other ≠ id) (call : Subscription tokio) (now : subscriptions[id]? = some call) :
    (subscriptions.set other next)[id]? = some call := by
  rw [List.getElem?_set_ne apart]
  exact now

/-- Every step keeps the call following what is emitted. -/
theorem forwarding_step (forwarding : Forwarding id start past before)
    (stepped : step before move = some after) :
    Forwarding id start (past ++ [move]) after := by
  obtain ⟨cases_, sound⟩ := sound_step forwarding.sound stepped
  cases cases_ with
  | emit | poll => exact forwarding.aside sound fun _ now => now
  | subscribe =>
    refine forwarding.aside sound fun call now => ?_
    have inside := (List.getElem?_eq_some_iff.mp now).1
    rw [List.getElem?_append_left inside]
    exact now
  | turn other call received rx now running turn =>
    by_cases mine : other = id
    · subst mine
      obtain ⟨known, position, there, began, within, follows, continues⟩ := forwarding.call
      obtain rfl := Option.some.inj (now.symm.trans there)
      obtain rfl := continues running
      have sent := forwarding.sound.sent
      have same : emitted (past ++ [.forward other true]) = emitted past := by
        rw [emitted_append]
        exact List.append_nil _
      have inside := (List.getElem?_eq_some_iff.mp now).1
      rw [← sent] at within follows
      refine ⟨sound, _, tokio.cursor rx, List.getElem?_set_self inside, Nat.le_trans began turn.forward, ?_, ?_,
        fun _ => rfl⟩
      · rw [same, ← sent]
        exact turn.within within
      · rw [same, ← sent]
        exact follows.receives began turn
    · exact forwarding.aside sound (set_other mine)
  | lag other call rx missed now running turn =>
    by_cases mine : other = id
    · subst mine
      obtain ⟨known, position, there, began, within, follows, continues⟩ := forwarding.call
      obtain rfl := Option.some.inj (now.symm.trans there)
      obtain rfl := continues running
      have sent := forwarding.sound.sent
      have same : emitted (past ++ [.forward other false]) = emitted past := by
        rw [emitted_append]
        exact List.append_nil _
      have inside := (List.getElem?_eq_some_iff.mp now).1
      rw [← sent] at within follows
      refine ⟨sound, _, tokio.cursor rx, List.getElem?_set_self inside, Nat.le_trans began turn.forward, ?_, ?_,
        fun _ => rfl⟩
      · rw [same, ← sent]
        exact turn.within within
      · rw [same, ← sent]
        have received := follows.receives began turn
        rwa [Received.toList, List.append_nil] at received
    · exact forwarding.aside sound (set_other mine)
  | tornDown other call rx eventsTx now running left =>
    by_cases mine : other = id
    · subst mine
      obtain ⟨known, position, there, began, within, follows, continues⟩ := forwarding.call
      obtain rfl := Option.some.inj (now.symm.trans there)
      have inside := (List.getElem?_eq_some_iff.mp now).1
      obtain ⟨within, follows⟩ := follows_emitted follows within (.forward other false)
      exact ⟨sound, _, position, List.getElem?_set_self inside, began, within, follows, by simp⟩
    · exact forwarding.aside sound (set_other mine)

end

/-- Where a call is after a run: what it has forwarded, and how far its receiver has come in what was
emitted after the call. -/
theorem subscribed_forwarding {earlier later : List (FfiEventsMove Event)} {after : FfiEvents tokio}
    (ran : run (earlier ++ .subscribe :: later) new = some after) :
    ∃ call cursor, after.subscriptions[subscribed earlier]? = some call ∧
      cursor ≤ (emitted later).length ∧ Follows tokio.capacity (emitted later) 0 cursor call.added ∧
      (call.returned = false → call.cursor = (emitted earlier).length + cursor) := by
  unfold run at ran
  rw [List.append_cons, Machine.run_append] at ran
  obtain ⟨started, begins, rest⟩ := Option.bind_eq_some_iff.mp ran
  rw [Machine.run_append] at begins
  obtain ⟨middle, reached, one⟩ := Option.bind_eq_some_iff.mp begins
  obtain rfl : middle.subscribe = started := Option.some.inj one
  have sound := sound_run reached
  have begun : Forwarding (subscribed earlier) (emitted earlier).length (earlier ++ [.subscribe])
      middle.subscribe := by
    obtain ⟨-, next⟩ := sound_step sound (rfl : step middle .subscribe = _)
    have begins : tokio.cursor (tokio.subscribe middle.eventsTx).1 = middle.channel.sent.length :=
      (Prod.mk.inj (tokio.subscribe_eq middle.eventsTx)).1
    refine ⟨next, ⟨(tokio.subscribe middle.eventsTx).1, [], false⟩, _, ?_, Nat.le_refl _, ?_, follows_start,
      fun _ => begins.trans (congrArg List.length sound.sent)⟩
    · show (middle.subscriptions ++ [_])[subscribed earlier]? = _
      rw [← sound.calls, List.getElem?_concat_length]
    · rw [emitted_append, List.length_append]
      exact Nat.le_add_right _ _
  have forwarding : Forwarding (subscribed earlier) (emitted earlier).length
      (earlier ++ [.subscribe] ++ later) after := by
    let held (past : List (FfiEventsMove Event)) (world : FfiEvents tokio) : Prop :=
      Forwarding (subscribed earlier) (emitted earlier).length (earlier ++ [.subscribe] ++ past) world
    suffices held later after from this
    refine Machine.invariant_of_run ?_ ?_ rest
    · show Forwarding _ _ (_ ++ []) _
      rwa [List.append_nil]
    · intro past state move next held _ stepped
      show Forwarding _ _ (_ ++ (past ++ [move])) _
      rw [← List.append_assoc]
      exact forwarding_step held stepped
  obtain ⟨call, cursor, now, began, within, follows, running⟩ := forwarding.call
  have all : emitted (earlier ++ [.subscribe] ++ later) = emitted earlier ++ emitted later := by
    rw [emitted_append, emitted_append, emitted, emitted, List.append_nil]
  rw [all] at within follows
  have since := follows.drop (by rw [List.length_append]; exact Nat.le_add_right _ _)
  rw [List.drop_left] at since
  rw [List.length_append] at within
  refine ⟨call, cursor - (emitted earlier).length, now, by omega, since, fun going => ?_⟩
  rw [running going]
  omega

/-- In every run a call of `subscribe_events` forwards what is emitted after it in order and once. An
event it has passed without forwarding it came before as many others as the channel keeps. -/
theorem subscribed_follows {earlier later : List (FfiEventsMove Event)} {after : FfiEvents tokio}
    (ran : run (earlier ++ .subscribe :: later) new = some after) :
    ∃ call cursor, after.subscriptions[subscribed earlier]? = some call ∧
      cursor ≤ (emitted later).length ∧
      Follows eventChannelCapacity (emitted later) 0 cursor call.added ∧
      (call.returned = false → call.cursor = (emitted earlier).length + cursor) := by
  obtain ⟨call, cursor, now, within, follows, running⟩ := subscribed_forwarding ran
  exact ⟨call, cursor, now, within, follows.mono tokio.enough, running⟩

/-- The first turn of the call has lost two events, and the second forwards the one after them. -/
theorem subscribed_follows_sample : ∃ cursor, cursor ≤ (emitted (lateMoves (List.range 1026))).length ∧
    Follows eventChannelCapacity (emitted (lateMoves (List.range 1026))) 0 cursor [2] ∧ 4 = 1 + cursor := by
  obtain ⟨call, cursor, now, within, follows, running⟩ :=
    subscribed_follows (lateMoves_ran List.length_range (List.getElem?_range (by decide)))
  obtain rfl := Option.some.inj now
  exact ⟨cursor, within, follows, running rfl⟩

end FileDrop.EventStream
