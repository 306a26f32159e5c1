import FileDrop.Flutter.Events

/-!
# The nearby devices of the app

`NearbyDevicesNotifier`: a map from device ids to devices, written by the events about devices and
emptied before a new search. The list that is shown are its values.
-/
namespace FileDrop.Flutter

/-- The state of `NearbyDevicesNotifier`. -/
abbrev NearbyDevices : Type := InsertionMap String Device

/-- The listener of `NearbyDevicesNotifier.build`. -/
def nearbyListener (state : NearbyDevices) : FileDropEvent → NearbyDevices
  | .deviceDiscovered device => state.insert device.deviceId device
  | .deviceDisconnected deviceId => state.erase deviceId
  | .deviceConnected _ | .pairingRequested .. | .transferStarted .. | .transferProgress _
  | .transferPaused _ | .transferCompleted .. | .transferFailed .. => state

/-- What happens to the notifier. -/
inductive NearbyInput where
  | event (event : FileDropEvent)
  /-- `clear`. -/
  | clear

/-- One input. -/
def nearbyStep (state : NearbyDevices) : NearbyInput → NearbyDevices
  | .event event => nearbyListener state event
  | .clear => .empty

/-- The notifier's state after inputs, from `build` on. -/
def nearbyDevices (inputs : List NearbyInput) : NearbyDevices := inputs.foldl nearbyStep .empty

/-- The devices that `NearbyDevicesBody` lists. -/
def nearbyList (state : NearbyDevices) : List Device := state.values

end FileDrop.Flutter
