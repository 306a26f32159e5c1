import FileDrop.Ffi.Server
import FileDrop.Pairing.State

/-!
# Showing a pairing code

`pair_device` makes a token, registers a request with it, and returns the payload of a QR code. It reads
the clock twice, once in `create_request` and once for the payload; the readings, the token and the
interfaces' addresses are the environment's choice.
-/
namespace FileDrop

/-- `QrPairingPayloadDto`. -/
structure QrPairingPayload where
  version : UInt8
  deviceId : Uuid
  deviceName : String
  address : String
  port : UInt16
  token : String
  expiresAt : Int
  deriving DecidableEq, Repr

/-- `FileDropEvent::PairingRequested`. -/
structure PairingRequested where
  deviceId : Uuid
  deviceName : String
  token : String
  deriving DecidableEq, Repr

/-- `FileDropEngine`, as far as pairing uses it. -/
structure PairingEngine where
  deviceId : Uuid
  deviceName : String
  pairing : PairingStateMachine

/-- What the environment decides about one call of `pair_device`. -/
structure PairChoice where
  /-- `generate_pairing_token`. -/
  token : String
  /-- The clock in `create_request`. -/
  created : Int
  /-- `local_ipv4_addresses`, displayed; none when they cannot be listed. -/
  addresses : List String
  /-- The clock in `chrono_now_plus_secs`. -/
  returned : Int

/-- `chrono_now_plus_secs`, at the clock reading `now`: the seconds since the epoch, none before it. -/
def chronoNowPlusSecs (now secs : Int) : Int := i64Add now secs

/-- `api::pair_device` with an engine: the payload, the event and the state machine. -/
def PairingEngine.pairDevice (engine : PairingEngine) (choice : PairChoice) (peerDeviceId : Uuid)
    (peerName : String) : QrPairingPayload × PairingRequested × PairingStateMachine :=
  let (_, pairing) := engine.pairing.createRequest choice.created peerDeviceId peerName choice.token 300
  let payload : QrPairingPayload := {
    version := 1
    deviceId := engine.deviceId
    deviceName := engine.deviceName
    address := choice.addresses.head?.getD ""
    port := defaultPort
    token := choice.token
    expiresAt := chronoNowPlusSecs choice.returned 300 }
  (payload, ⟨peerDeviceId, peerName, choice.token⟩, pairing)

end FileDrop
