import FileDrop.Flutter.NearbyDevices
import FileDrop.Foundation.Since

/-!
# Which devices the app lists

A device is listed when it was discovered, and since then neither its id was heard of again nor the list
emptied. No id is listed twice, whatever the events were.
-/
namespace FileDrop.Flutter.Nearby

/-- The input is the discovery of the device. -/
def Discovers (device : Device) (_ : List NearbyInput) (input : NearbyInput) : Prop :=
  input = .event (.deviceDiscovered device)

/-- The input writes or removes what is known under an id. -/
def Replaces (id : String) : NearbyInput → Prop
  | .event (.deviceDiscovered device) => device.deviceId = id
  | .event (.deviceDisconnected deviceId) => deviceId = id
  | .event _ => False
  | .clear => True

/-- One input: what is read at an id afterwards. -/
theorem nearbyStep_get? (state : NearbyDevices) (input : NearbyInput) (id : String) (device : Device) :
    (nearbyStep state input).get? id = some device ↔
      (input = .event (.deviceDiscovered device) ∧ device.deviceId = id) ∨
        state.get? id = some device ∧ ¬Replaces id input := by
  cases input with
  | clear => simp [nearbyStep, Replaces]
  | event event =>
    cases event with
    | deviceDiscovered found =>
      by_cases same : found.deviceId = id
      · subst same
        simp only [nearbyStep, nearbyListener, InsertionMap.get?_insert_self, Option.some.injEq,
          Replaces, not_true_eq_false, and_false, or_false, NearbyInput.event.injEq,
          FileDropEvent.deviceDiscovered.injEq]
        constructor
        · rintro rfl
          exact ⟨rfl, rfl⟩
        · exact And.left
      · have other : ¬(found = device ∧ device.deviceId = id) := by
          rintro ⟨rfl, here⟩
          exact same here
        simp only [nearbyStep, nearbyListener, InsertionMap.get?_insert_ne state found (Ne.symm same),
          Replaces, same, not_false_eq_true, and_true, NearbyInput.event.injEq,
          FileDropEvent.deviceDiscovered.injEq, other, false_or]
    | deviceDisconnected gone =>
      by_cases same : gone = id
      · subst same
        simp [nearbyStep, nearbyListener, Replaces]
      · simp [nearbyStep, nearbyListener, Replaces, same, InsertionMap.get?_erase_ne state (Ne.symm same)]
    | deviceConnected | pairingRequested | transferStarted | transferProgress | transferPaused
    | transferCompleted | transferFailed => simp [nearbyStep, nearbyListener, Replaces]

/-- What is read at an id after inputs is what was discovered under it and has not been replaced. -/
theorem nearbyDevices_get? (inputs : List NearbyInput) (id : String) (device : Device) :
    (nearbyDevices inputs).get? id = some device ↔
      device.deviceId = id ∧ Runs.Since (Discovers device) (Replaces id) inputs := by
  induction inputs using List.reverseRecOn with
  | nil =>
    refine iff_of_false (by simp [nearbyDevices]) ?_
    rintro ⟨-, earlier, input, between, split, -⟩
    simp at split
  | append_singleton inputs last ih =>
    rw [nearbyDevices, List.foldl_append, List.foldl_cons, List.foldl_nil, nearbyStep_get?,
      Runs.since_snoc]
    show _ ∨ (nearbyDevices inputs).get? id = some device ∧ _ ↔ _
    rw [ih]
    constructor
    · rintro (⟨found, here⟩ | ⟨⟨here, since⟩, kept⟩)
      · exact ⟨here, .inl found⟩
      · exact ⟨here, .inr ⟨since, kept⟩⟩
    · rintro ⟨here, found | ⟨since, kept⟩⟩
      · exact .inl ⟨found, here⟩
      · exact .inr ⟨⟨here, since⟩, kept⟩

/-- After every sequence of events and new searches the app lists exactly the devices that were
discovered and not replaced or removed since, each under an id of its own. -/
theorem listed_iff (inputs : List NearbyInput) :
    ((nearbyList (nearbyDevices inputs)).map Device.deviceId).Nodup ∧
      ∀ device, device ∈ nearbyList (nearbyDevices inputs) ↔
        Runs.Since (Discovers device) (Replaces device.deviceId) inputs := by
  have keyed : ∀ entry ∈ (nearbyDevices inputs).entries, entry.2.deviceId = entry.1 := by
    intro entry member
    have read := ((nearbyDevices inputs).mem_entries_iff entry.1 entry.2).mp member
    exact ((nearbyDevices_get? inputs entry.1 entry.2).mp read).1
  refine ⟨?_, fun device => ?_⟩
  · have same : (nearbyList (nearbyDevices inputs)).map Device.deviceId =
        (nearbyDevices inputs).entries.map Prod.fst := by
      rw [nearbyList, InsertionMap.values, List.map_map]
      exact List.map_congr_left keyed
    rw [same]
    exact (nearbyDevices inputs).distinct
  · constructor
    · intro listed
      obtain ⟨⟨id, found⟩, member, rfl⟩ := List.mem_map.mp listed
      have read := ((nearbyDevices inputs).mem_entries_iff id found).mp member
      obtain ⟨rfl, since⟩ := (nearbyDevices_get? inputs id found).mp read
      exact since
    · intro since
      have read := (nearbyDevices_get? inputs device.deviceId device).mpr ⟨rfl, since⟩
      exact List.mem_map.mpr ⟨_, ((nearbyDevices inputs).mem_entries_iff _ _).mpr read, rfl⟩

end FileDrop.Flutter.Nearby
