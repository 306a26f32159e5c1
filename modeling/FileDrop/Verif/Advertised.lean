import FileDrop.Verif.OwnDevice

/-!
# Browsing what is advertised

A peer reads the identifier, the address, the port and the platform of an advertised device back from
the TXT records and the address of its service. The name it reads is the instance name, and that is the
name the service was created with, not the device's.
-/
namespace FileDrop.Advertised
open FileDrop DiscoveryService OwnDevice

/-- The device a peer is to build: with the name as far as an instance name can have it, and not
paired. -/
def promised (device : DiscoveredDevice) : DiscoveredDevice :=
  { device with name := sanitizeInstance device.name, paired := false }

/-! ## Names -/

/-- The instance name is read back from the full name. -/
theorem trimmed_fullname :
    trimEndMatches "." (trimEndMatches serviceType
      (sanitizeInstance discoveryName ++ "." ++ serviceType)) = discoveryName := by
  decide +kernel

/-- A name without dots is not changed. -/
theorem sanitizeInstance_dotless {name : String} (dotless : ∀ c ∈ name.toList, c ≠ '.') :
    sanitizeInstance name = name := by
  have kept : name.toList.map (fun c => if c = '.' then '-' else c) = name.toList := by
    calc
      name.toList.map (fun c => if c = '.' then '-' else c)
      _ = name.toList.map id := List.map_congr_left fun c member => if_neg (dotless c member)
      _ = name.toList := List.map_id _
  rw [sanitizeInstance, kept, String.ofList_toList]

/-- A dot becomes a hyphen. -/
theorem hyphen_of_dot {name : String} (dot : '.' ∈ name.toList) :
    '-' ∈ (sanitizeInstance name).toList := by
  rw [sanitizeInstance, String.toList_ofList]
  exact List.mem_map.mpr ⟨'.', dot, rfl⟩

/-- Only its own name is sanitized to the service's name. -/
theorem sanitizeInstance_eq_iff (name : String) :
    sanitizeInstance name = discoveryName ↔ name = discoveryName := by
  constructor
  · intro same
    have dotless : ∀ c ∈ name.toList, c ≠ '.' := by
      rintro c member rfl
      have hyphen := hyphen_of_dot member
      rw [same] at hyphen
      exact absurd hyphen (by decide)
    rwa [sanitizeInstance_dotless dotless] at same
  · rintro rfl
    decide +kernel

/-! ## Services -/

variable {host : DiscoveryHost} {serviceName : String} {device : DiscoveredDevice}
variable {before after : DiscoveryService}

/-- A service registers nothing but what it advertises. -/
structure Registers (host : DiscoveryHost) (serviceName : String) (device : DiscoveredDevice)
    (service : DiscoveryService) : Prop where
  starting : ∀ info, service.starting = .registering info →
    advertise host.parseIpv6 serviceName device = .ok info
  registration : ∀ info, service.registration = some info →
    advertise host.parseIpv6 serviceName device = .ok info

/-- `start` keeps to that. -/
theorem registers_start {fault : Option String} (registers : Registers host serviceName device before)
    (stepped : startStep host serviceName device before fault = some after) :
    Registers host serviceName device after := by
  cases startStep_cases stepped with
  | call | browse | forwardMdns | flag | announce | listen | forwardUdp | fail =>
    exact ⟨nofun, registers.registration⟩
  | build info stage advertised =>
    exact ⟨fun other same => StartStage.registering.inj same ▸ advertised, registers.registration⟩
  | register info stage =>
    have advertised := registers.starting info stage
    exact ⟨nofun, fun other same => Option.some.inj same ▸ advertised⟩
  | socket next stage =>
    refine ⟨fun info same => ?_, registers.registration⟩
    obtain rfl : next = .registering info := same
    generalize before.starting = now at stage
    cases stage

/-- Every step keeps to it. -/
theorem registers_step {move : DiscoveryMove} (registers : Registers host serviceName device before)
    (stepped : step host serviceName device before move = some after) :
    Registers host serviceName device after := by
  rcases step_beside stepped with ⟨fault, rfl⟩ | rfl | ⟨_, _, _, _, _, _, _, rfl, -⟩
  · exact registers_start registers stepped
  · obtain ⟨browsing, running, stopping, rfl⟩ := stopStep_cases stepped
    exact { registers with }
  · exact { registers with }

/-- At first nothing is registered. -/
theorem registers_new : Registers host serviceName device .new where
  starting _ same := StartStage.noConfusion same
  registration info same := absurd same.symm (Option.some_ne_none info)

/-- What a service has registered is what it advertises. -/
theorem advertise_of_registration {reached : DiscoveryService}
    (path : Machine.Reaches (step host serviceName device) (fun _ _ => True) .new reached)
    {info : ServiceInfo} (registered : reached.registration = some info) :
    advertise host.parseIpv6 serviceName device = .ok info := by
  have registers : Registers host serviceName device reached :=
    path.invariant registers_new fun _ _ _ registers _ stepped => registers_step registers stepped
  exact registers.registration info registered

/-! ## What a peer builds -/

/-- What is advertised for a device with an IPv4 address is browsed as that device, not paired, under the
service's name. -/
theorem browse_of_advertise (reads : ∀ id : Uuid, host.parseUuid id.toText = some id) {address : Ipv4}
    (valid : Ipv4.parse device.address = some address) {info : ServiceInfo}
    (advertised : advertise host.parseIpv6 discoveryName device = .ok info) (madeUp : Uuid) :
    browse host.parseUuid info madeUp = some { device with name := discoveryName, paired := false } := by
  have parsed : IpAddr.parse host.parseIpv6 device.address = some (.v4 address) := by
    rw [IpAddr.parse, valid]
  rw [advertise, parsed] at advertised
  obtain rfl := Except.ok.inj advertised
  have own : ((some device.deviceId.toText).bind host.parseUuid).getD madeUp = device.deviceId := by
    rw [Option.bind_some, reads, Option.getD_some]
  simp only [browse, List.head?_cons, Option.map_some, trimmed_fullname, own, Option.getD_some,
    Ipv4.toText_parse valid]

/-- However the service of a device with an IPv4 address runs: a peer that resolves what it has
registered builds the device that is promised if the device has the service's name, and only then. The
identifier, the address, the port and the platform are the device's in any case. -/
theorem browse_registered (reads : ∀ id : Uuid, host.parseUuid id.toText = some id) {address : Ipv4}
    (valid : Ipv4.parse device.address = some address) {reached : DiscoveryService}
    (path : Machine.Reaches (step host discoveryName device) (fun _ _ => True) .new reached)
    {info : ServiceInfo} (registered : reached.registration = some info) (madeUp : Uuid) :
    ∃ built, browse host.parseUuid info madeUp = some built ∧
      (built = promised device ↔ device.name = discoveryName) ∧
      built.deviceId = device.deviceId ∧ built.address = device.address ∧ built.port = device.port ∧
      built.platform = device.platform ∧ built.paired = false := by
  have advertised := advertise_of_registration path registered
  refine ⟨_, browse_of_advertise reads valid advertised madeUp, ?_, rfl, rfl, rfl, rfl, rfl⟩
  rw [← sanitizeInstance_eq_iff]
  constructor
  · intro same
    exact (congrArg DiscoveredDevice.name same).symm
  · intro same
    rw [promised, same]

/-! ## A service named otherwise -/

/-- Start until the service is registered. -/
def registering : List DiscoveryMove := List.replicate 3 (.start none)

/-- The host of the samples reads what is displayed. -/
theorem sampleHost_reads (id : Uuid) : sampleHost.parseUuid id.toText = some id := by
  unfold sampleHost
  exact Uuid.parseHyphenated_toText id

/-- A device with the service's name is built as promised. -/
theorem browse_registered_filedrop : ∃ reached info,
    Machine.run (step sampleHost discoveryName { sampleSelf with name := "filedrop" }) (fun _ _ => True)
        registering .new = some reached ∧
      reached.registration = some info ∧
      browse sampleHost.parseUuid info ⟨0⟩ =
        some (promised { sampleSelf with name := "filedrop" }) := by
  have runs : ((Machine.run (step sampleHost discoveryName { sampleSelf with name := "filedrop" })
      (fun _ _ => True) registering .new).map (·.registration.isSome)) = some true := by
    decide +kernel
  obtain ⟨reached, ran, there⟩ := Option.map_eq_some_iff.mp runs
  obtain ⟨info, registered⟩ := Option.isSome_iff_exists.mp there
  have valid : Ipv4.parse "192.168.1.20" = some ⟨192, 168, 1, 20⟩ := by
    decide +kernel
  have path := Machine.reaches_of_run ran
  obtain ⟨built, made, same, -⟩ :=
    browse_registered sampleHost_reads valid path registered ⟨0⟩
  have promises := same.mpr rfl
  exact ⟨reached, info, ran, registered, promises ▸ made⟩

/-- A device of another name is built under the service's. -/
theorem browse_registered_broken :
    ¬∀ (host : DiscoveryHost) (device : DiscoveredDevice) (address : Ipv4) (reached : DiscoveryService)
      (info : ServiceInfo) (madeUp : Uuid),
      (∀ id : Uuid, host.parseUuid id.toText = some id) → Ipv4.parse device.address = some address →
      Machine.Reaches (step host discoveryName device) (fun _ _ => True) .new reached →
      reached.registration = some info →
      browse host.parseUuid info madeUp = some (promised device) := by
  intro always
  have runs : ((Machine.run (step sampleHost discoveryName sampleSelf) (fun _ _ => True) registering
      .new).map fun reached => reached.registration.map fun info =>
        decide (browse sampleHost.parseUuid info ⟨0⟩ = some (promised sampleSelf))) =
      some (some false) := by
    decide +kernel
  obtain ⟨reached, ran, there⟩ := Option.map_eq_some_iff.mp runs
  obtain ⟨info, registered, differs⟩ := Option.map_eq_some_iff.mp there
  have valid : Ipv4.parse sampleSelf.address = some ⟨192, 168, 1, 20⟩ := by
    decide +kernel
  exact of_decide_eq_false differs (always sampleHost sampleSelf _ reached info ⟨0⟩
    sampleHost_reads valid (Machine.reaches_of_run ran) registered)

end FileDrop.Advertised
