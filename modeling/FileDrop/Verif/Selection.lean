import FileDrop.Flutter.SendFlow

/-!
# What is sent, and where

The confirmation view shows the files that were picked last and the device that was selected last, and that
is what it sends. A device that was selected had been discovered before. A call that returns after its view
is gone, as the user has left it or a transfer has started, resets nothing.
-/
namespace FileDrop.Flutter.Selection
open FileDrop

/-- The files that were picked last. -/
def picked (moves : List SendMove) : Option (List String) :=
  (moves.filterMap fun
    | .pick filePaths => some filePaths
    | _ => none).getLast?

/-- The device that was selected last. -/
def selected (moves : List SendMove) : Option Device :=
  (moves.filterMap fun
    | .select device => some device
    | _ => none).getLast?

/-- The request is for the files that were picked last, and for the device that was selected last. -/
def Chosen (moves : List SendMove) (request : SendRequest) : Prop :=
  picked moves = some request.filePaths ∧ selected moves = some request.device

/-- A new selection is the last one. -/
theorem selected_select (moves : List SendMove) (device : Device) :
    selected (moves ++ [.select device]) = some device := by
  simp [selected]

/-- New files are the last ones. -/
theorem picked_pick (moves : List SendMove) (filePaths : List String) :
    picked (moves ++ [.pick filePaths]) = some filePaths := by
  simp [picked]

/-- Other moves select nothing. -/
theorem selected_other (moves : List SendMove) {move : SendMove} (other : ∀ device, move ≠ .select device) :
    selected (moves ++ [move]) = selected moves := by
  cases move with
  | select device => exact absurd rfl (other device)
  | startSend | startReceive | pick | back | send | complete | event | receive => simp [selected]

/-- Other moves pick nothing. -/
theorem picked_other (moves : List SendMove) {move : SendMove} (other : ∀ filePaths, move ≠ .pick filePaths) :
    picked (moves ++ [move]) = picked moves := by
  cases move with
  | pick filePaths => exact absurd rfl (other filePaths)
  | startSend | startReceive | select | back | send | complete | event | receive => simp [picked]

/-- The state after a move. -/
def step (selfDevice : DiscoveredDevice) (app : SendApp) (move : SendMove) : Option SendApp :=
  (app.step selfDevice move).map Prod.fst

instance (app : SendApp) : (move : SendMove) → Decidable (app.onScreen move)
  | .startSend | .startReceive => inferInstanceAs (Decidable (app.view = .idleView))
  | .pick filePaths => inferInstanceAs (Decidable (app.view = .filePickerView ∧ filePaths ≠ []))
  | .select device =>
    inferInstanceAs (Decidable (app.view = .deviceSelectSendView ∧ device ∈ nearbyList app.nearby))
  | .back => inferInstanceAs (Decidable (app.view ≠ .idleView ∧ app.view ≠ .activeTransfersView))
  | .send => inferInstanceAs (Decidable (app.view = .confirmSendView ∧ app.sending = false))
  | .complete .. | .event _ | .receive _ => inferInstanceAs (Decidable True)

/-! ## What the app remembers -/

/-- The device was discovered. -/
def Seen (past : List SendMove) (device : Device) : Prop := .event (.deviceDiscovered device) ∈ past

/-- A request that was made at some time, as it was chosen then. -/
def Made (past : List SendMove) (request : SendRequest) : Prop :=
  ∃ earlier later, past = earlier ++ .send :: later ∧ Chosen earlier request ∧ request.filePaths ≠ [] ∧
    Seen earlier request.device

/-- What the state says about the moves that led to it. -/
structure Remembers (past : List SendMove) (app : SendApp) : Prop where
  files : app.flow.stage = .deviceSelectSend ∨ app.flow.stage = .confirmSend →
    picked past = some app.flow.filePaths
  device : app.flow.stage = .confirmSend → selected past = app.flow.device ∧ app.flow.device.isSome
  nonempty : ∀ filePaths, picked past = some filePaths → filePaths ≠ []
  nearby : ∀ id device, app.nearby.get? id = some device → Seen past device
  seen : ∀ device, selected past = some device → Seen past device
  views : ∀ call ∈ app.calls, call.view ≤ app.views
  mine : ∀ call ∈ app.calls, app.flow.stage = .confirmSend → call.view = app.views →
    app.flow.device = some call.request.device ∧ app.flow.filePaths = call.request.filePaths
  made : ∀ request ∈ app.requests, Made past request

variable {past : List SendMove} {app after : SendApp} {selfDevice : DiscoveredDevice}

/-- What was seen stays so. -/
theorem Seen.snoc {device : Device} (seen : Seen past device) (move : SendMove) :
    Seen (past ++ [move]) device :=
  List.mem_append_left _ seen

/-- What was made stays so. -/
theorem Made.snoc {request : SendRequest} (made : Made past request) (move : SendMove) :
    Made (past ++ [move]) request := by
  obtain ⟨earlier, later, split, chosen⟩ := made
  exact ⟨earlier, later ++ [move], by rw [split, List.append_assoc, List.cons_append], chosen⟩

/-- A device that is listed is found at its id. -/
theorem get?_of_listed {device : Device} {map : NearbyDevices} (listed : device ∈ nearbyList map) :
    ∃ id, map.get? id = some device := by
  obtain ⟨⟨id, found⟩, entry, rfl⟩ := List.mem_map.mp listed
  exact ⟨id, (map.mem_entries_iff id found).mp entry⟩

/-- What is found after an event was found before, or discovered by it. -/
theorem seen_event {event : FileDropEvent}
    (nearby : ∀ id device, app.nearby.get? id = some device → Seen past device)
    (id : String) (device : Device) (found : (nearbyListener app.nearby event).get? id = some device) :
    Seen (past ++ [.event event]) device := by
  cases event with
  | deviceDiscovered new =>
    by_cases same : id = new.deviceId
    · subst same
      simp only [nearbyListener, InsertionMap.get?_insert_self, Option.some.injEq] at found
      subst found
      exact List.mem_append_right _ List.mem_cons_self
    · simp only [nearbyListener, InsertionMap.get?_insert_ne _ _ same] at found
      exact (nearby id device found).snoc _
  | deviceDisconnected gone =>
    by_cases same : id = gone
    · subst same
      simp only [nearbyListener, InsertionMap.get?_erase_self] at found
      cases found
    · simp only [nearbyListener, InsertionMap.get?_erase_ne _ same] at found
      exact (nearby id device found).snoc _
  | deviceConnected | pairingRequested | transferStarted | transferProgress | transferPaused
  | transferCompleted | transferFailed => exact (nearby id device found).snoc _

/-- A move that neither picks nor selects, and after which the views that choose are no nearer. -/
theorem Remembers.leave (remembers : Remembers past app) {move : SendMove} {flow : HomeFlowState}
    (noPick : ∀ filePaths, move ≠ .pick filePaths) (noSelect : ∀ device, move ≠ .select device)
    (files : flow.stage = .deviceSelectSend ∨ flow.stage = .confirmSend →
      (app.flow.stage = .deviceSelectSend ∨ app.flow.stage = .confirmSend) ∧
        flow.filePaths = app.flow.filePaths)
    (confirming : flow.stage = .confirmSend → app.flow.stage = .confirmSend ∧ flow.device = app.flow.device) :
    Remembers (past ++ [move]) { app with flow } where
  files shown := by
    rw [picked_other past noPick, (files shown).2]
    exact remembers.files (files shown).1
  device shown := by
    rw [selected_other past noSelect, (confirming shown).2]
    exact remembers.device (confirming shown).1
  nonempty filePaths last := remembers.nonempty filePaths (picked_other past noPick ▸ last)
  nearby id device found := (remembers.nearby id device found).snoc move
  seen device last := (remembers.seen device (selected_other past noSelect ▸ last)).snoc move
  views := remembers.views
  mine call member shown same := by
    have sameFiles : flow.filePaths = app.flow.filePaths := (files (.inr shown)).2
    rw [(confirming shown).2, sameFiles]
    exact remembers.mine call member (confirming shown).1 same
  made request member := (remembers.made request member).snoc move

/-- A call that completes is gone, and resets the flow if it returned and its own view is shown. -/
theorem sendCompleted_eq {place : Nat} {returned : Bool} {command : Option DiscoveryCommand}
    (completed : app.sendCompleted place returned = some (after, command)) :
    ∃ call, app.calls[place]? = some call ∧
      after = { app with
        calls := app.calls.eraseIdx place
        flow := if returned = true ∧ some call.view = app.shown then .initial else app.flow } := by
  obtain ⟨call, found, same⟩ := Option.map_eq_some_iff.mp completed
  refine ⟨call, found, ?_⟩
  split at same
  · rename_i own
    rw [if_pos own]
    exact (Prod.mk.inj same).1.symm
  · rename_i other
    rw [if_neg other]
    exact (Prod.mk.inj same).1.symm

/-- Fewer calls are remembered as well. -/
theorem Remembers.fewer (remembers : Remembers past app) {calls : List SendCall}
    (fewer : ∀ call ∈ calls, call ∈ app.calls) : Remembers past { app with calls } :=
  { remembers with
    views := fun call member => remembers.views call (fewer call member)
    mine := fun call member => remembers.mine call (fewer call member) }

/-- A request that is made is remembered. -/
theorem Remembers.send {device : Device} (remembers : Remembers past app)
    (confirming : app.flow.stage = .confirmSend) (there : app.flow.device = some device) :
    Remembers (past ++ [.send]) { app with
      calls := app.calls ++ [⟨app.views, ⟨device, app.flow.filePaths⟩⟩]
      requests := ⟨device, app.flow.filePaths⟩ :: app.requests } := by
  have kept : Remembers (past ++ [.send]) app :=
    remembers.leave (by simp) (by simp) (fun shown => ⟨shown, rfl⟩) fun shown => ⟨shown, rfl⟩
  have last : selected past = some device := (remembers.device confirming).1.trans there
  have files := remembers.files (.inr confirming)
  refine { kept with views := ?_, mine := ?_, made := ?_ }
  · refine List.forall_mem_append.mpr ⟨remembers.views, List.forall_mem_singleton.mpr (Nat.le_refl _)⟩
  · exact List.forall_mem_append.mpr ⟨remembers.mine, List.forall_mem_singleton.mpr fun _ _ => ⟨there, rfl⟩⟩
  · refine List.forall_mem_cons.mpr ⟨?_, kept.made⟩
    exact ⟨past, [], rfl, ⟨files, last⟩, remembers.nonempty _ files, remembers.seen device last⟩

/-- A selection is remembered. -/
theorem Remembers.select {device : Device} (remembers : Remembers past app)
    (choosing : app.flow.stage = .deviceSelectSend) (listed : device ∈ nearbyList app.nearby) :
    Remembers (past ++ [.select device])
      { app with flow := deviceSelected app.flow device, views := app.views + 1 } := by
  obtain ⟨id, found⟩ := get?_of_listed listed
  have files : picked (past ++ [.select device]) = picked past := picked_other past (by simp)
  refine ⟨fun _ => files.trans (remembers.files (.inl choosing)), fun _ => ⟨selected_select past device, rfl⟩,
    fun filePaths last => remembers.nonempty filePaths (files ▸ last),
    fun id other there => (remembers.nearby id other there).snoc _, fun other last => ?_,
    fun call member => Nat.le_succ_of_le (remembers.views call member), fun call member _ same => ?_,
    fun request member => (remembers.made request member).snoc _⟩
  · rw [selected_select] at last
    obtain rfl := Option.some.inj last
    exact (remembers.nearby id device found).snoc _
  · have older := remembers.views call member
    simp only at same
    omega

/-- Picked files are remembered. -/
theorem Remembers.pick {filePaths : List String} (remembers : Remembers past app) (some : filePaths ≠ []) :
    Remembers (past ++ [.pick filePaths])
      { app with flow := filesPicked app.flow filePaths, nearby := nearbyStep app.nearby .clear } := by
  have device : selected (past ++ [.pick filePaths]) = selected past := selected_other past (by simp)
  refine ⟨fun _ => picked_pick past filePaths, nofun, fun other last => ?_, nofun,
    fun device' last => (remembers.seen device' (device ▸ last)).snoc _, remembers.views, nofun,
    fun request member => (remembers.made request member).snoc _⟩
  rw [picked_pick] at last
  exact Option.some.inj last ▸ some

/-- Every move that the screen allows is remembered. -/
theorem Remembers.step {move : SendMove} (remembers : Remembers past app) (onScreen : app.onScreen move)
    (stepped : Selection.step selfDevice app move = some after) : Remembers (past ++ [move]) after := by
  obtain ⟨⟨next, command⟩, moved, rfl⟩ := Option.map_eq_some_iff.mp stepped
  cases move with
  | startSend =>
    cases moved
    exact remembers.leave (by simp) (by simp) (by simp [startSend, HomeFlowState.copyWith])
      (by simp [startSend, HomeFlowState.copyWith])
  | startReceive =>
    cases moved
    exact remembers.leave (by simp) (by simp) (by simp [startReceive, HomeFlowState.copyWith])
      (by simp [startReceive, HomeFlowState.copyWith])
  | pick filePaths =>
    cases moved
    exact remembers.pick onScreen.2
  | select device =>
    cases moved
    exact remembers.select ((app.view_eq_iff .deviceSelectSend).mp onScreen.1).2 onScreen.2
  | back =>
    cases moved
    refine remembers.leave (by simp) (by simp) ?_ ?_
    · intro shown
      cases stage : app.flow.stage with
      | idle | receiveMode | filePicker =>
        simp [back, stage, HomeFlowState.initial] at shown
      | deviceSelectSend => simp [back, stage, HomeFlowState.copyWith] at shown
      | confirmSend => exact ⟨.inr rfl, by simp [back, stage, HomeFlowState.copyWith]⟩
    · intro shown
      cases stage : app.flow.stage with
      | idle | receiveMode | filePicker | deviceSelectSend | confirmSend =>
        simp [back, stage, HomeFlowState.initial, HomeFlowState.copyWith] at shown
  | send =>
    obtain ⟨sent, tapped, same⟩ := Option.map_eq_some_iff.mp moved
    obtain ⟨device, there, rfl⟩ := Option.map_eq_some_iff.mp tapped
    obtain ⟨rfl, -⟩ := Prod.mk.inj same
    exact remembers.send ((app.view_eq_iff .confirmSend).mp onScreen.1).2 there
  | complete place returned =>
    obtain ⟨call, -, rfl⟩ := sendCompleted_eq moved
    have kept : Remembers (past ++ [.complete place returned]) { app with
        flow := if returned = true ∧ some call.view = app.shown then .initial else app.flow } := by
      split
      · exact remembers.leave (by simp) (by simp) (by simp [HomeFlowState.initial])
          (by simp [HomeFlowState.initial])
      · exact remembers.leave (by simp) (by simp) (fun shown => ⟨shown, rfl⟩) fun shown => ⟨shown, rfl⟩
    exact kept.fewer fun other member => List.mem_of_mem_eraseIdx member
  | event event =>
    cases moved
    have kept : Remembers (past ++ [.event event]) app :=
      remembers.leave (by simp) (by simp) (fun shown => ⟨shown, rfl⟩) fun shown => ⟨shown, rfl⟩
    exact { kept with nearby := seen_event remembers.nearby }
  | receive state =>
    cases moved
    exact remembers.leave (by simp) (by simp) (fun shown => ⟨shown, rfl⟩) fun shown => ⟨shown, rfl⟩

/-- When the app is opened there is nothing to remember. -/
theorem remembers_new : Remembers [] .new :=
  ⟨by simp [SendApp.new, HomeFlowState.initial], by simp [SendApp.new, HomeFlowState.initial], nofun, nofun,
    nofun, nofun, nofun, nofun⟩

/-! ## What is sent -/

/-- In every run of what the screen allows, beside any events: the confirmation view shows the files that
were picked last and the device that was selected last, and every request there was is for some files, and
for a device that had been discovered, as they were chosen when it was made. -/
theorem sent_as_chosen {moves : List SendMove}
    (ran : Machine.run (step selfDevice) SendApp.onScreen moves .new = some app) :
    (app.flow.stage = .confirmSend → ∃ request, Chosen moves request ∧
        app.flow.device = some request.device ∧ app.flow.filePaths = request.filePaths) ∧
      ∀ request ∈ app.requests, Made moves request := by
  have remembers : Remembers moves app := Machine.invariant_of_run remembers_new
    (fun _ _ _ _ remembers onScreen stepped => remembers.step onScreen stepped) ran
  refine ⟨fun confirming => ?_, remembers.made⟩
  obtain ⟨last, there⟩ := remembers.device confirming
  obtain ⟨device, found⟩ := Option.isSome_iff_exists.mp there
  exact ⟨⟨device, app.flow.filePaths⟩, ⟨remembers.files (.inr confirming), last.trans found⟩, found, rfl⟩

/-- A device nearby. -/
def sampleTablet : Device :=
  ⟨"00000000-0000-0000-0000-000000000008", "Tablet", "192.168.1.21", 53317, "android", false⟩

/-- A photo is sent to the device, the first time after going back. -/
def sampleMoves : List SendMove :=
  [.startSend, .pick ["/storage/other.jpg"], .back, .pick ["/storage/photo.jpg"],
    .event (.deviceDiscovered sampleTablet), .select sampleTablet, .send]

/-- The app of the samples. -/
def samplePhone : DiscoveredDevice := ⟨⟨7⟩, "Phone", "192.168.1.20", 53317, "android", false⟩

/-- The request is as it was chosen. -/
theorem sent_as_chosen_sample : ∃ app,
    Machine.run (step samplePhone) SendApp.onScreen sampleMoves .new = some app ∧
    app.requests = [⟨sampleTablet, ["/storage/photo.jpg"]⟩] ∧
    Made sampleMoves ⟨sampleTablet, ["/storage/photo.jpg"]⟩ := by
  have runs : (Machine.run (step samplePhone) SendApp.onScreen sampleMoves .new).map (·.requests) =
      some [⟨sampleTablet, ["/storage/photo.jpg"]⟩] := by
    decide +kernel
  obtain ⟨app, ran, requests⟩ := Option.map_eq_some_iff.mp runs
  exact ⟨app, ran, requests, (sent_as_chosen ran).2 _ (requests ▸ List.mem_singleton_self _)⟩

end FileDrop.Flutter.Selection
