import Mathlib.Data.String.Defs

/-!
# Wi-Fi Direct

The platform channel that creates and removes a Wi-Fi Direct group: what the handler on the platform's
side answers, and what the service on the app's side makes of it. What the platform itself does is the
environment's choice.
-/
namespace FileDrop.Flutter

/-- The reason codes of `WifiP2pManager`. -/
inductive P2pReason where
  | error
  | p2pUnsupported
  | busy
  | other (code : Int)
  deriving DecidableEq, Repr

/-- `reasonCodeToErrorCode`. -/
def reasonCodeToErrorCode : P2pReason → String
  | .p2pUnsupported => "P2P_UNSUPPORTED"
  | .busy => "BUSY"
  | .error | .other _ => "ERROR"

/-- `reasonName`. -/
def reasonName : P2pReason → String
  | .p2pUnsupported => "P2P_UNSUPPORTED"
  | .busy => "BUSY"
  | .error => "ERROR"
  | .other code => "reason=" ++ toString code

/-- `PlatformException`. -/
structure PlatformException where
  code : String
  message : Option String
  deriving DecidableEq, Repr

/-- Why `createGroup` of the handler forms no group. -/
inductive CreateRefusal where
  /-- There is no manager, or no channel to it. -/
  | unavailable
  | wifiDisabled
  /-- A `SecurityException`. -/
  | permissionDenied
  /-- `onFailure`. -/
  | failed (reason : P2pReason)
  deriving DecidableEq, Repr

/-- What `createGroup` of the handler answers then. -/
def CreateRefusal.exception : CreateRefusal → PlatformException
  | .unavailable => ⟨"P2P_UNSUPPORTED", some "Wi-Fi Direct is not available on this device."⟩
  | .wifiDisabled => ⟨"WIFI_DISABLED", some "Wi-Fi is turned off."⟩
  | .permissionDenied => ⟨"PERMISSION_DENIED", some "Missing permission for Wi-Fi Direct."⟩
  | .failed reason => ⟨reasonCodeToErrorCode reason,
      some ("Failed to create Wi-Fi Direct group (" ++ reasonName reason ++ ").")⟩

/-- What `requestConnectionInfo` answers about a group that has been formed. -/
inductive ConnectionInfo where
  | groupOwnerAddress (address : String)
  /-- No group is formed, or its owner has no address. -/
  | none
  /-- A `SecurityException`. -/
  | permissionDenied
  deriving DecidableEq, Repr

/-- `requestGroupOwnerAddress`. -/
def requestGroupOwnerAddress : ConnectionInfo → Except PlatformException String
  | .groupOwnerAddress address => .ok address
  | .none => .error ⟨"NO_GROUP_INFO",
      some "Wi-Fi Direct group was created but its address could not be determined."⟩
  | .permissionDenied => .error ⟨"PERMISSION_DENIED", some "Missing permission for Wi-Fi Direct."⟩

/-! ## The service -/

/-- `_messageFor`. -/
def messageFor (exception : PlatformException) : String :=
  if exception.code = "WIFI_DISABLED" then "Wi-Fi is turned off. Turn on Wi-Fi and try again."
  else if exception.code = "PERMISSION_DENIED" then
    "FileDrop needs nearby-devices/location permission to create a Wi-Fi Direct network."
  else if exception.code = "P2P_UNSUPPORTED" then "This device does not support Wi-Fi Direct."
  else if exception.code = "BUSY" then "Wi-Fi Direct is busy. Try again in a moment."
  else if exception.code = "NO_GROUP_INFO" then
    "Could not determine the Wi-Fi Direct group address."
  else exception.message.getD ("Wi-Fi Direct request failed (" ++ exception.code ++ ").")

/-- What `createGroup` throws. -/
inductive GroupFailure where
  /-- A `WifiDirectException`. -/
  | wifiDirect (message : String)
  /-- Another exception, displayed. -/
  | other (text : String)
  deriving DecidableEq, Repr

/-- `createGroup` of the service, by what the channel answers. -/
def createGroup : Except PlatformException String → Except GroupFailure String
  | .ok address =>
    if address = "" then
      .error (.wifiDirect "Wi-Fi Direct group was created but no group owner address was returned.")
    else .ok address
  | .error exception => .error (.wifiDirect (messageFor exception))

/-- Only an address that is not empty is returned. -/
theorem createGroup_ok {info : ConnectionInfo} {address : String} :
    createGroup (requestGroupOwnerAddress info) = .ok address ↔
      info = .groupOwnerAddress address ∧ address ≠ "" := by
  cases info with
  | groupOwnerAddress given =>
    simp only [requestGroupOwnerAddress, createGroup, ConnectionInfo.groupOwnerAddress.injEq]
    split
    · rename_i empty
      refine iff_of_false (fun same => by cases same) ?_
      rintro ⟨rfl, some⟩
      exact some empty
    · rename_i some
      constructor
      · intro same
        cases same
        exact ⟨rfl, some⟩
      · rintro ⟨rfl, -⟩
        rfl
  | none | permissionDenied =>
    refine iff_of_false (fun same => by cases same) ?_
    rintro ⟨same, -⟩
    cases same

end FileDrop.Flutter
