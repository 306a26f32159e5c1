import FileDrop.Discovery.Service
import FileDrop.Foundation.Tenancy

/-!
# Discovery services on one host

The services that a host has had, one after the other or at once, all bind `BROADCAST_PORT`. A socket is
bound to it from the first `bind` in `UdpBroadcastDiscovery::start` on; it belongs to that call, and then
to the listener task, which closes it only when it ends. As long as one socket is bound to the port every
other `bind` of it fails.
-/
namespace FileDrop

/-- The listener task runs. -/
def ListenerTask.alive : ListenerTask → Bool
  | .checking | .receiving | .sending _ => true
  | .unspawned | .ended => false

/-- `listen_socket` is open, in the call of `start` or in the listener task. -/
def DiscoveryService.hasSocket (service : DiscoveryService) : Bool :=
  match service.starting with
  | .uncalled | .building | .registering _ | .browsing | .forwardingMdns | .flagging
  | .bindingListener => false
  | .allowingListener | .bindingSender | .allowingSender | .announcing | .listening => true
  | .forwardingUdp | .returned _ => service.listener.alive

/-- The services of a host, each known by how many were created before it, and the one whose socket is
bound to the port. -/
abbrev ServiceHost := Machine.Tenancy Nat DiscoveryService

/-- One step of one of the services; each has the device it was started with. -/
def ServiceHost.step (host : DiscoveryHost) (serviceName : String) (selfDevice : Nat → DiscoveredDevice)
    (world : ServiceHost) (made : Nat × DiscoveryMove) : Option ServiceHost :=
  Machine.Tenancy.move (fun id => DiscoveryService.step host serviceName (selfDevice id))
    DiscoveryService.hasSocket world made

/-- A host without services. -/
def ServiceHost.new : ServiceHost := ⟨fun _ => .new, none⟩

end FileDrop
