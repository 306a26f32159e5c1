import FileDrop.Discovery.Mdns
import FileDrop.Ffi.Api

/-!
# The address of a peer

Two routes lead to the socket address of a peer. `socket_addr` parses the address alone and adds the
port as a number; `send_files` pastes both into one text and parses that. A socket address of IPv6 is
written in brackets, an address of IPv6 without: the first route takes bare addresses only, the second
bracketed ones only. The two agree on every other text.
-/
namespace FileDrop

open Inet (parseBracketed)

/-- The pasted text gives an IPv4 address with the port, or the IPv6 address of the brackets. -/
theorem sendAddr_eq (address : String) (port : UInt16) :
    sendAddr address port =
      match Ipv4.parse address with
      | some ip => some (.v4 ip port)
      | none => (parseBracketed address.toList).map fun (ip, scopeId) => .v6 ip port 0 scopeId :=
  Inet.SocketAddr.parse_pasted address port

/-- The two routes give the same for exactly the texts that are no IPv6 address, bare or in brackets. -/
theorem routes_agree_iff (device : DiscoveredDevice) :
    sendAddr device.address device.port = device.socketAddr ↔
      Ipv6.parse device.address = none ∧ parseBracketed device.address.toList = none := by
  rw [sendAddr_eq, DiscoveredDevice.socketAddr, IpAddr.parse]
  cases quad : Ipv4.parse device.address with
  | some ip =>
    have others := Inet.not_ipv4 quad
    exact ⟨fun _ => others, fun _ => rfl⟩
  | none =>
    cases bracketed : parseBracketed device.address.toList with
    | some inner =>
      have bare : Ipv6.parse device.address = none := by
        apply Inet.parseBracketed_not_ipv6
        rw [bracketed]
        exact Option.some_ne_none inner
      rw [bare]
      constructor
      · intro same
        cases same
      · intro none
        cases none.2
    | none =>
      cases bare : Ipv6.parse device.address with
      | none => exact ⟨fun _ => ⟨rfl, rfl⟩, fun _ => rfl⟩
      | some ip =>
        constructor
        · intro same
          cases same
        · intro none
          cases none.1

/-- A device on IPv6 has a socket address, and `send_files` refuses it. -/
theorem routes_broken :
    ¬∀ device : DiscoveredDevice, sendAddr device.address device.port = device.socketAddr := by
  intro agree
  have same := agree ⟨⟨1⟩, "Phone", "::1", 53317, "ios", false⟩
  exact absurd same (by decide +kernel)

end FileDrop
