import FileDrop.Flutter.ActiveTransfers

/-!
# What the Home tab is routed by

The handler writes entries and never takes one away: an event that ends a transfer only changes the
status of its entry. So the map is empty exactly as long as no event has made an entry, and the
first transfer that is started keeps the Home tab at the active transfers.
-/
namespace FileDrop.Flutter.HomeScreen

/-- An event that makes an entry, if there is none. -/
def opens : FileDropEvent → Bool
  | .transferStarted .. | .transferProgress _ => true
  | _ => false

/-- An event that ends a transfer. -/
def endsTransfer (id : String) : FileDropEvent → Prop
  | .transferCompleted transferId _ => transferId = id
  | .transferFailed transferId _ => transferId = id
  | _ => False

/-- Every transfer that was started has ended since. -/
def AllEnded (events : List FileDropEvent) : Prop :=
  ∀ before id fileName totalBytes since,
    events = before ++ .transferStarted id fileName totalBytes :: since →
      ∃ event ∈ since, endsTransfer id event

/-- The Home tab is released: the map is empty, and the view is that of the stage. -/
def Released (transfers : ActiveTransfers) : Prop :=
  transfers.isEmpty = true ∧ ∀ stage, homeScreen transfers stage = stage.view

/-- The Home tab is routed by whether the map is empty. -/
theorem released_iff_isEmpty (transfers : ActiveTransfers) :
    Released transfers ↔ transfers.isEmpty = true := by
  constructor
  · exact And.left
  · intro none
    refine ⟨none, fun stage => ?_⟩
    simp only [homeScreen, none, Bool.not_true, Bool.false_eq_true, if_false]

/-- One event: the map is empty afterwards exactly when it was and the event makes no entry. -/
theorem handle_isEmpty (transfers : ActiveTransfers) (event : FileDropEvent) :
    (handle transfers event).isEmpty = (transfers.isEmpty && !opens event) := by
  cases event with
  | transferStarted | transferProgress =>
    simp only [handle, opens, InsertionMap.isEmpty_insert, Bool.not_true, Bool.and_false]
  | transferPaused id =>
    simp only [handle_transferPaused, InsertionMap.isEmpty_modify, opens, Bool.not_false, Bool.and_true]
  | transferCompleted id sha256 =>
    simp only [handle_transferCompleted, InsertionMap.isEmpty_modify, opens, Bool.not_false, Bool.and_true]
  | transferFailed id error =>
    simp only [handle_transferFailed, InsertionMap.isEmpty_modify, opens, Bool.not_false, Bool.and_true]
  | deviceDiscovered | deviceConnected | pairingRequested | deviceDisconnected =>
    simp only [handle, opens, Bool.not_false, Bool.and_true]

/-- A sequence of events: the map is empty afterwards exactly when it was and no event makes an
entry. -/
theorem foldl_isEmpty (events : List FileDropEvent) (transfers : ActiveTransfers) :
    (events.foldl handle transfers).isEmpty = true ↔
      transfers.isEmpty = true ∧ ∀ event ∈ events, opens event = false := by
  induction events generalizing transfers with
  | nil => simp
  | cons event events ih =>
    rw [List.foldl_cons, ih, handle_isEmpty, Bool.and_eq_true, Bool.not_eq_true', List.forall_mem_cons,
      and_assoc]

/-- After every sequence of events, whether or not its transfers have ended: the Home tab is released
exactly when none of the events started a transfer or reported progress. -/
theorem released_iff (events : List FileDropEvent) :
    Released (activeTransfers events) ↔ ∀ event ∈ events, opens event = false := by
  rw [released_iff_isEmpty, activeTransfers, foldl_isEmpty]
  exact and_iff_right rfl

/-- One transfer that was started and has completed. -/
def sampleEvents : List FileDropEvent :=
  [.transferStarted "7" "a" 2, .transferCompleted "7" "digest"]

/-- A transfer that has completed still holds the Home tab. -/
theorem released_broken :
    ¬∀ events : List FileDropEvent, AllEnded events → Released (activeTransfers events) := by
  intro always
  have ended : AllEnded sampleEvents := by
    intro before id fileName totalBytes since split
    match before with
    | [] =>
      obtain ⟨started, rest⟩ := List.cons.inj split
      have named : "7" = id := (FileDropEvent.transferStarted.inj started).1
      rw [← rest, ← named]
      exact ⟨.transferCompleted "7" "digest", List.mem_singleton_self _, rfl⟩
    | [first] =>
      obtain ⟨-, rest⟩ := List.cons.inj split
      cases (List.cons.inj rest).1
    | first :: second :: more =>
      have lengths := congrArg List.length split
      simp only [sampleEvents, List.length_cons, List.length_nil, List.length_append] at lengths
      omega
  have released := always sampleEvents ended
  have started : opens (.transferStarted "7" "a" 2) = false :=
    (released_iff sampleEvents).mp released _ List.mem_cons_self
  cases started

end FileDrop.Flutter.HomeScreen
