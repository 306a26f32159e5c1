import FileDrop.Core.Error
import FileDrop.Core.SocketAddr

/-!
# Discovery over mDNS

What a device registers with the mDNS daemon and what it reads from a service that the daemon resolves.
The daemon and the parser of identifiers are of other crates: a resolved service is what the daemon
answers about it, and the parser is a parameter.
-/
namespace FileDrop

/-- `discovery::DiscoveredDevice`. -/
structure DiscoveredDevice where
  deviceId : Uuid
  name : String
  address : String
  port : UInt16
  platform : String
  paired : Bool
  deriving DecidableEq, Repr

/-- `DiscoveredDevice::socket_addr`. -/
def DiscoveredDevice.socketAddr (device : DiscoveredDevice) : Option Inet.SocketAddr :=
  (IpAddr.parse Ipv6.parse device.address).map fun ip => .new ip device.port

/-- `SERVICE_TYPE`. -/
def serviceType : String := "_filedrop._tcp.local."

/-- The rounds of `str::trim_end_matches`: each takes one match off the end. -/
def trimEndRounds (pattern : List Char) : Nat → List Char → List Char
  | 0, text => text
  | rounds + 1, text =>
    if pattern <:+ text then trimEndRounds pattern rounds (text.take (text.length - pattern.length))
    else text

/-- `str::trim_end_matches`. A text has at most as many matches as characters. -/
def trimEndMatches (pattern text : String) : String :=
  .ofList (trimEndRounds pattern.toList text.length text.toList)

/-- `sanitize_instance`. -/
def sanitizeInstance (name : String) : String :=
  .ofList (name.toList.map fun c => if c = '.' then '-' else c)

/-- `mdns_sd::ServiceInfo`, as far as it is set or read. -/
structure ServiceInfo where
  fullname : String
  hostName : String
  /-- What `get_property_val_str` answers for `device_id`. -/
  deviceId : Option String
  /-- And for `platform`. -/
  platform : Option String
  /-- The IPv4 addresses, in the order that `get_addresses_v4` yields them. -/
  addressesV4 : List Ipv4
  port : UInt16
  deriving DecidableEq, Repr

/-- The service that `MdnsDiscovery::advertise` registers for a device. -/
def advertise (parseIpv6 : String → Option Ipv6) (serviceName : String) (device : DiscoveredDevice) :
    Except FileDropError ServiceInfo :=
  match IpAddr.parse parseIpv6 device.address with
  | none => .error (.discovery "invalid advertise address")
  | some ip => .ok {
      fullname := sanitizeInstance serviceName ++ "." ++ serviceType
      hostName := sanitizeInstance device.name ++ ".local."
      deviceId := some device.deviceId.toText
      platform := some device.platform
      addressesV4 := match ip with
        | .v4 address => [address]
        | .v6 _ => []
      port := device.port }

/-- The device that `MdnsDiscovery::browse` makes of a resolved service, with the identifier it makes up
when the service has no usable one. -/
def browse (parseUuid : String → Option Uuid) (info : ServiceInfo) (madeUp : Uuid) :
    Option DiscoveredDevice :=
  info.addressesV4.head?.map fun address => {
    deviceId := (info.deviceId.bind parseUuid).getD madeUp
    name := trimEndMatches "." (trimEndMatches serviceType info.fullname)
    address := address.toText
    port := info.port
    platform := info.platform.getD "unknown"
    paired := false }

/-- The key of a resolved service. -/
theorem browse_deviceId {parseUuid : String → Option Uuid} {info : ServiceInfo} {madeUp : Uuid}
    {device : DiscoveredDevice} (resolved : browse parseUuid info madeUp = some device) :
    device.deviceId = (info.deviceId.bind parseUuid).getD madeUp := by
  obtain ⟨address, -, rfl⟩ := Option.map_eq_some_iff.mp resolved
  rfl

end FileDrop
