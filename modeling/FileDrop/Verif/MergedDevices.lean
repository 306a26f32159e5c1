import FileDrop.Verif.OwnDevice

/-!
# One merged view

Both forward tasks put what reaches them into the one map under its identifier, and the last one wins. So
the map has one device for each identifier. It has one for each peer as long as nobody enters a peer under
another identifier than the one it is there under, which happens to every service without a usable
identifier, because a new one is made up each time; and mDNS is preferred as long as no announcement is
entered for an identifier that mDNS has resolved.
-/
namespace FileDrop.MergedDevices
open FileDrop DiscoveryService OwnDevice

/-! ## Where the entries come from -/

/-- What an entry of the map comes from: a resolved record, which is known by its full name, or an
announcement, which is known by the device that it announces. -/
inductive Source where
  | record (fullname : String)
  | announced (device : DiscoveredDevice)
  deriving DecidableEq

/-- A service, with the sources of its devices. -/
structure Traced where
  service : DiscoveryService
  /-- The records whose devices are on their way to the map, oldest first. -/
  pending : List ServiceInfo
  /-- The devices that mDNS has brought into the map since it was cleared last, in order. -/
  resolved : List DiscoveredDevice
  /-- What the entry of an identifier comes from. -/
  entered : Uuid → Option Source

/-- A service that has not been started. -/
def Traced.new : Traced := ⟨.new, [], [], fun _ => none⟩

/-- Note what a move does with the sources. -/
def Traced.note (host : DiscoveryHost) (before : Traced) (move : DiscoveryMove)
    (service : DiscoveryService) : Traced :=
  match move with
  | .browse event madeUp =>
    match before.service.browse, event with
    | .receiving, .resolved info =>
      if (browse host.parseUuid info madeUp).isSome then
        { before with service, pending := before.pending ++ [info] }
      else { before with service }
    | .sending _, _ =>
      -- the channel is gone, and the device with it
      if service.browse = .ended then { before with service, pending := before.pending.dropLast }
      else { before with service }
    | _, _ => { before with service }
  | .forwardMdns _ =>
    match before.service.mdns.task, before.pending with
    | .inserting device, info :: rest => {
        service
        pending := rest
        resolved := before.resolved ++ [device]
        entered := Function.update before.entered device.deviceId (some (.record info.fullname)) }
    | _, _ => { before with service }
  | .forwardUdp _ =>
    match before.service.udp.task with
    | .inserting device => { before with
        service
        entered := Function.update before.entered device.deviceId (some (.announced device)) }
    | _ => { before with service }
  | .stop =>
    if before.service.stopping = .clearingDevices then
      { before with service, resolved := [], entered := fun _ => none }
    else { before with service }
  | .start _ | .announce _ | .listen _ => { before with service }

/-- One step, with that noted. -/
def traced (host : DiscoveryHost) (serviceName : String) (selfDevice : DiscoveredDevice)
    (before : Traced) (move : DiscoveryMove) : Option Traced :=
  (step host serviceName selfDevice before.service move).map (before.note host move)

/-! ## What the map is to be -/

/-- The device that mDNS has resolved last for an identifier. -/
def latest (resolved : List DiscoveredDevice) (id : Uuid) : Option DiscoveredDevice :=
  (resolved.filter fun device => device.deviceId = id).getLast?

section

variable {Peer : Type} (peerOf : Source → Peer)

/-- The map has one entry at most for each peer, and for what mDNS has resolved the latest resolution. -/
structure Merged (seen : Traced) : Prop where
  keyed : ∀ id device, seen.service.devices id = some device → device.deviceId = id
  /-- Every entry has a source. -/
  sourced : ∀ id, (seen.service.devices id).isSome = (seen.entered id).isSome
  one : ∀ id source other same, seen.entered id = some source → seen.entered other = some same →
    peerOf source = peerOf same → id = other
  preferred : ∀ id device, latest seen.resolved id = some device →
    seen.service.devices id = some device

/-- The peer of a source has no entry under another identifier than that of a device. -/
def Alone (seen : Traced) (source : Source) (device : DiscoveredDevice) : Prop :=
  ∀ id other, seen.entered id = some other → peerOf other = peerOf source → id = device.deviceId

/-- No peer is put into the map under another identifier than the one it is there under, and no
announcement for an identifier that mDNS has resolved, unless it says the same. -/
def Merges (seen : Traced) (move : DiscoveryMove) : Prop :=
  match move with
  | .forwardMdns _ =>
    match seen.service.mdns.task, seen.pending with
    | .inserting device, info :: _ => Alone peerOf seen (.record info.fullname) device
    | _, _ => True
  | .forwardUdp _ =>
    match seen.service.udp.task with
    | .inserting device => Alone peerOf seen (.announced device) device ∧
        ∀ known, latest seen.resolved device.deviceId = some known → known = device
    | _ => True
  | _ => True

end

/-- One more resolution. -/
theorem latest_append (resolved : List DiscoveredDevice) (device : DiscoveredDevice) (id : Uuid) :
    latest (resolved ++ [device]) id =
      if device.deviceId = id then some device else latest resolved id := by
  by_cases mine : device.deviceId = id
  · simp [latest, mine]
  · simp [latest, mine]

/-! ## The way to the map -/

/-- The devices on their way from the daemon to the map, oldest first. -/
def onTheWay (service : DiscoveryService) : List DiscoveredDevice :=
  (match service.mdns.task with
    | .inserting device => [device]
    | _ => []) ++ service.mdns.channel ++
  match service.browse with
  | .sending device => [device]
  | _ => []

/-- A device was made of a resolved record. -/
def Made (host : DiscoveryHost) (info : ServiceInfo) (device : DiscoveredDevice) : Prop :=
  ∃ madeUp, browse host.parseUuid info madeUp = some device

/-- The stages of `start` before the browse task is spawned. -/
def beforeBrowse : StartStage → Bool
  | .uncalled | .building | .registering _ | .browsing => true
  | _ => false

/-- And before its forward task is. -/
def beforeForward : StartStage → Bool
  | .forwardingMdns => true
  | stage => beforeBrowse stage

/-- What holds of every run: the records and the devices on their way go together. -/
structure Sound (host : DiscoveryHost) (seen : Traced) : Prop where
  browse : beforeBrowse seen.service.starting → seen.service.browse = .unspawned
  forward : beforeForward seen.service.starting → seen.service.mdns.task = .unspawned
  pending : List.Forall₂ (Made host) seen.pending (onTheWay seen.service)

variable {host : DiscoveryHost} {serviceName : String} {selfDevice : DiscoveredDevice}

/-! ### Steps of `start` and `stop` -/

section

variable {before after : DiscoveryService}

/-- What a step of `start` leaves as it is. -/
structure StartKeeps (before after : DiscoveryService) : Prop where
  way : onTheWay after = onTheWay before
  devices : after.devices = before.devices
  browse : beforeBrowse after.starting → after.browse = .unspawned
  forward : beforeForward after.starting → after.mdns.task = .unspawned

/-- A step from a stage in which both tasks are spawned. -/
theorem StartKeeps.late (way : onTheWay after = onTheWay before) (devices : after.devices = before.devices)
    (late : beforeForward after.starting = false) : StartKeeps before after := by
  refine ⟨way, devices, fun early => ?_, fun early => ?_⟩
  · cases stage : after.starting with
    | uncalled | building | registering | browsing =>
      rw [stage] at late
      cases late
    | _ =>
      rw [stage] at early
      cases early
  · rw [late] at early
    cases early

/-- `start` spawns the tasks, and touches neither the map nor what is on its way there. -/
theorem start_keeps (browse : beforeBrowse before.starting → before.browse = .unspawned)
    (forward : beforeForward before.starting → before.mdns.task = .unspawned) {fault : Option String}
    (stepped : startStep host serviceName selfDevice before fault = some after) :
    StartKeeps before after := by
  cases startStep_cases stepped with
  | call stage | build _ stage _ | register _ stage =>
    rw [stage] at browse forward
    exact ⟨rfl, rfl, fun _ => browse rfl, fun _ => forward rfl⟩
  | browse stage =>
    rw [stage] at browse forward
    refine ⟨?_, rfl, nofun, fun _ => forward rfl⟩
    simp only [onTheWay, browse rfl]
  | forwardMdns stage =>
    rw [stage] at forward
    refine .late ?_ rfl rfl
    simp only [onTheWay, forward rfl]
  | socket next stage =>
    refine .late rfl rfl ?_
    generalize before.starting = now at stage
    cases stage with
    | bindListener | allowListener | bindSender | allowSender => rfl
  | flag | announce | listen | forwardUdp | fail => exact .late rfl rfl rfl

end

/-! ### Every step -/

variable {before after : Traced}

/-- A service whose tasks from the daemon to the map are where they were. -/
theorem Sound.beside (sound : Sound host before) {service : DiscoveryService}
    (starting : service.starting = before.service.starting)
    (browse : service.browse = before.service.browse) (mdns : service.mdns = before.service.mdns) :
    Sound host { before with service } where
  browse early := by
    have was : beforeBrowse before.service.starting := starting ▸ early
    exact browse.trans (sound.browse was)
  forward early := by
    have was : beforeForward before.service.starting := starting ▸ early
    exact (congrArg Lane.task mdns).trans (sound.forward was)
  pending := by
    have same : onTheWay service = onTheWay before.service := by
      simp only [onTheWay, browse, mdns]
    show List.Forall₂ (Made host) before.pending (onTheWay service)
    rw [same]
    exact sound.pending

/-- Without the last one of both, two lists go together. -/
theorem forall₂_dropLast {records : List ServiceInfo} {front : List DiscoveredDevice}
    {last : DiscoveredDevice} {go : ServiceInfo → DiscoveredDevice → Prop}
    (both : List.Forall₂ go records (front ++ [last])) : List.Forall₂ go records.dropLast front := by
  have length := both.length_eq
  have taken := List.forall₂_take front.length both
  rw [List.take_left' rfl] at taken
  rw [List.dropLast_eq_take, length]
  simpa using taken

/-- A step of the browse task keeps records and devices together. -/
theorem browse_sound {event : MdnsEvent} {madeUp : Uuid} (sound : Sound host before)
    (stepped : traced host serviceName selfDevice before (.browse event madeUp) = some after) :
    Sound host after := by
  obtain ⟨service, moved, rfl⟩ := Option.map_eq_some_iff.mp stepped
  have late {task : BrowseTask} (running : before.service.browse = task) (spawned : task ≠ .unspawned) :
      ¬beforeBrowse before.service.starting = true := fun early =>
    spawned (running.symm.trans (sound.browse early))
  have pending := sound.pending
  cases browseStep_cases moved with
  | ignore task opened unmade =>
    cases event with
    | resolved info =>
      simp only [Traced.note, task, unmade info rfl]
      exact sound
    | other =>
      simp only [Traced.note, task]
      exact sound
    | closed => exact absurd rfl opened
  | close task same =>
    subst same
    have late := late task nofun
    simp only [Traced.note, task]
    refine ⟨fun early => absurd early late, sound.forward, ?_⟩
    simpa only [onTheWay, task] using pending
  | resolve info device task same made =>
    subst same
    have late := late task nofun
    simp only [Traced.note, task, made]
    refine ⟨fun early => absurd early late, sound.forward, ?_⟩
    simp only [onTheWay, task, List.append_nil] at pending
    exact List.rel_append pending (.cons ⟨madeUp, made⟩ .nil)
  | send device lane task sent =>
    have late := late task nofun
    obtain rfl := Lane.send_ok sent
    simp only [onTheWay, task] at pending
    simp only [Traced.note, task, reduceCtorEq, ↓reduceIte]
    refine ⟨fun early => absurd early late, sound.forward, ?_⟩
    simpa only [onTheWay, List.append_nil, List.append_assoc] using pending
  | refuse device task sent =>
    have late := late task nofun
    simp only [onTheWay, task] at pending
    simp only [Traced.note, task, ↓reduceIte]
    refine ⟨fun early => absurd early late, sound.forward, ?_⟩
    simpa only [onTheWay, List.append_nil] using forall₂_dropLast pending

/-- A step of the forward task of mDNS keeps records and devices together. -/
theorem forward_sound {accepted : Bool} (sound : Sound host before)
    (stepped : traced host serviceName selfDevice before (.forwardMdns accepted) = some after) :
    Sound host after := by
  obtain ⟨service, moved, rfl⟩ := Option.map_eq_some_iff.mp stepped
  obtain ⟨⟨lane, devices, onDevice⟩, forwarded, rfl⟩ := Option.map_eq_some_iff.mp moved
  have forwards := forward_cases forwarded
  have pending := sound.pending
  have running (spawned : before.service.mdns.task ≠ .unspawned) :
      ¬beforeForward before.service.starting = true := fun early => spawned (sound.forward early)
  generalize same : before.service.mdns = lane' at forwards
  cases forwards with
  | receive device rest =>
    have late := running (by rw [same]; exact nofun)
    simp only [Traced.note, same]
    refine ⟨sound.browse, fun early => absurd early late, ?_⟩
    simpa only [onTheWay, same, List.nil_append, List.cons_append] using pending
  | drain =>
    have late := running (by rw [same]; exact nofun)
    simp only [Traced.note, same]
    refine ⟨sound.browse, fun early => absurd early late, ?_⟩
    simpa only [onTheWay, same] using pending
  | insert channel device =>
    have late := running (by rw [same]; exact nofun)
    simp only [onTheWay, same, List.cons_append, List.nil_append] at pending
    generalize records : before.pending = waiting at pending
    cases pending with
    | @cons info _ rest _ made others =>
      simp only [Traced.note, same, records]
      refine ⟨sound.browse, fun early => absurd early late, ?_⟩
      simpa only [onTheWay, List.nil_append] using others
  | deliver channel device | refuse channel device =>
    have late := running (by rw [same]; exact nofun)
    simp only [Traced.note, same]
    refine ⟨sound.browse, fun early => absurd early late, ?_⟩
    simpa only [onTheWay, same] using pending

/-- Every step keeps records and devices together. -/
theorem sound_step {move : DiscoveryMove} (sound : Sound host before)
    (stepped : traced host serviceName selfDevice before move = some after) : Sound host after := by
  cases move with
  | browse event madeUp => exact browse_sound sound stepped
  | forwardMdns accepted => exact forward_sound sound stepped
  | start fault =>
    obtain ⟨service, moved, rfl⟩ := Option.map_eq_some_iff.mp stepped
    have kept := start_keeps sound.browse sound.forward moved
    refine ⟨kept.browse, kept.forward, ?_⟩
    show List.Forall₂ (Made host) before.pending (onTheWay service)
    rw [kept.way]
    exact sound.pending
  | stop =>
    obtain ⟨service, moved, rfl⟩ := Option.map_eq_some_iff.mp stepped
    obtain ⟨browsing, running, stopping, rfl⟩ := stopStep_cases moved
    simp only [Traced.note]
    split
    · exact ⟨sound.browse, sound.forward, sound.pending⟩
    · exact sound.beside rfl rfl rfl
  | announce encoded =>
    obtain ⟨service, moved, rfl⟩ := Option.map_eq_some_iff.mp stepped
    obtain ⟨announcer, rfl⟩ := announceStep_cases moved
    exact sound.beside rfl rfl rfl
  | listen received =>
    obtain ⟨service, moved, rfl⟩ := Option.map_eq_some_iff.mp stepped
    obtain ⟨listener, udp, rfl⟩ := listenStep_cases moved
    exact sound.beside rfl rfl rfl
  | forwardUdp accepted =>
    obtain ⟨service, moved, rfl⟩ := Option.map_eq_some_iff.mp stepped
    obtain ⟨⟨lane, devices, onDevice⟩, forwarded, rfl⟩ := Option.map_eq_some_iff.mp moved
    have beside : Sound host { before with
        service := { before.service with udp := lane, devices, onDevice } } := sound.beside rfl rfl rfl
    simp only [Traced.note]
    split
    · exact { beside with }
    · exact beside

/-! ## The map -/

variable {Peer : Type} {peerOf : Source → Peer}

/-- The map and what is known of its entries are as they were. -/
theorem Merged.same (merged : Merged peerOf before)
    (devices : after.service.devices = before.service.devices) (resolved : after.resolved = before.resolved)
    (entered : after.entered = before.entered) : Merged peerOf after where
  keyed id device found := merged.keyed id device (devices ▸ found)
  sourced id := by
    rw [devices, entered]
    exact merged.sourced id
  one := by
    rw [entered]
    exact merged.one
  preferred := by
    rw [resolved, devices]
    exact merged.preferred

/-- The map that was cleared has nothing to be preferred. -/
theorem merged_cleared (devices : after.service.devices = fun _ => none) (resolved : after.resolved = [])
    (entered : after.entered = fun _ => none) : Merged peerOf after where
  keyed := by
    rw [devices]
    exact nofun
  sourced id := by
    rw [devices, entered]
    rfl
  one := by
    rw [entered]
    exact nofun
  preferred := by
    rw [resolved]
    exact nofun

/-- A step of the browse task enters nothing. -/
theorem browse_note {event : MdnsEvent} {madeUp : Uuid} {service : DiscoveryService} :
    (before.note host (.browse event madeUp) service).service = service ∧
      (before.note host (.browse event madeUp) service).resolved = before.resolved ∧
      (before.note host (.browse event madeUp) service).entered = before.entered := by
  simp only [Traced.note]
  split
  · split
    · exact ⟨rfl, rfl, rfl⟩
    · exact ⟨rfl, rfl, rfl⟩
  · split
    · exact ⟨rfl, rfl, rfl⟩
    · exact ⟨rfl, rfl, rfl⟩
  · exact ⟨rfl, rfl, rfl⟩

/-- A device was put into the map. -/
structure Entry (before after : Traced) (device : DiscoveredDevice) (source : Source) : Prop where
  devices : after.service.devices =
    Function.update before.service.devices device.deviceId (some device)
  entered : after.entered = Function.update before.entered device.deviceId (some source)

section

variable {device : DiscoveredDevice} {source : Source}

/-- An entry of a device under its own identifier leaves every device under its own. -/
theorem Entry.keyed (entry : Entry before after device source) (merged : Merged peerOf before) (id : Uuid)
    (other : DiscoveredDevice) (found : after.service.devices id = some other) : other.deviceId = id := by
  rw [entry.devices] at found
  by_cases mine : id = device.deviceId
  · subst mine
    rw [Function.update_self] at found
    rw [← Option.some.inj found]
  · rw [Function.update_of_ne mine] at found
    exact merged.keyed id other found

/-- And every entry with a source. -/
theorem Entry.sourced (entry : Entry before after device source) (merged : Merged peerOf before)
    (id : Uuid) : (after.service.devices id).isSome = (after.entered id).isSome := by
  rw [entry.devices, entry.entered]
  by_cases mine : id = device.deviceId
  · subst mine
    simp only [Function.update_self, Option.isSome_some]
  · simp only [Function.update_of_ne mine]
    exact merged.sourced id

/-- It leaves one entry for each peer exactly if its own peer has no other. -/
theorem Entry.one (entry : Entry before after device source) (merged : Merged peerOf before) :
    (∀ id first other second, after.entered id = some first → after.entered other = some second →
      peerOf first = peerOf second → id = other) ↔ Alone peerOf before source device := by
  constructor
  · intro one id other there same
    by_contra apart
    have still : after.entered id = some other := by
      rw [entry.entered, Function.update_of_ne apart]
      exact there
    have new : after.entered device.deviceId = some source := by
      rw [entry.entered, Function.update_self]
    exact apart (one id other device.deviceId source still new same)
  · intro alone id first other second
    rw [entry.entered]
    by_cases mine : id = device.deviceId
    · by_cases also : other = device.deviceId
      · exact fun _ _ _ => mine.trans also.symm
      · subst mine
        rw [Function.update_self, Function.update_of_ne also]
        rintro ⟨rfl⟩ there same
        exact (alone other second there same.symm).symm
    · by_cases also : other = device.deviceId
      · subst also
        rw [Function.update_self, Function.update_of_ne mine]
        rintro there ⟨rfl⟩ same
        exact alone id first there same
      · rw [Function.update_of_ne mine, Function.update_of_ne also]
        exact merged.one id first other second

/-- An announced device leaves the map merged exactly if its peer has no other entry and mDNS has resolved
nothing else for it. -/
theorem Entry.merged_udp (entry : Entry before after device source) (merged : Merged peerOf before)
    (resolved : after.resolved = before.resolved) :
    Merged peerOf after ↔ Alone peerOf before source device ∧
      ∀ known, latest before.resolved device.deviceId = some known → known = device := by
  constructor
  · intro merged'
    refine ⟨(entry.one merged).mp merged'.one, fun known last => ?_⟩
    have there := merged'.preferred device.deviceId known (by rw [resolved, last])
    rw [entry.devices, Function.update_self] at there
    exact (Option.some.inj there).symm
  · rintro ⟨alone, agrees⟩
    refine ⟨entry.keyed merged, entry.sourced merged, (entry.one merged).mpr alone,
      fun id known last => ?_⟩
    rw [resolved] at last
    rw [entry.devices]
    by_cases mine : id = device.deviceId
    · subst mine
      rw [Function.update_self, agrees known last]
    · rw [Function.update_of_ne mine]
      exact merged.preferred id known last

/-- A device that mDNS has resolved leaves the map merged exactly if its peer has no other entry. -/
theorem Entry.merged_mdns (entry : Entry before after device source) (merged : Merged peerOf before)
    (resolved : after.resolved = before.resolved ++ [device]) :
    Merged peerOf after ↔ Alone peerOf before source device := by
  constructor
  · exact fun merged' => (entry.one merged).mp merged'.one
  · intro alone
    refine ⟨entry.keyed merged, entry.sourced merged, (entry.one merged).mpr alone,
      fun id known last => ?_⟩
    rw [resolved, latest_append] at last
    rw [entry.devices]
    split at last
    · rename_i mine
      subst mine
      rw [Function.update_self]
      exact last
    · rename_i other
      rw [Function.update_of_ne (Ne.symm other)]
      exact merged.preferred id known last

end

/-- A step of the forward task of mDNS leaves the map merged exactly if it merges. -/
theorem forwardMdns_merged {accepted : Bool} (sound : Sound host before) (merged : Merged peerOf before)
    (stepped : traced host serviceName selfDevice before (.forwardMdns accepted) = some after) :
    Merged peerOf after ↔ Merges peerOf before (.forwardMdns accepted) := by
  obtain ⟨service, moved, rfl⟩ := Option.map_eq_some_iff.mp stepped
  obtain ⟨⟨lane, devices, onDevice⟩, forwarded, rfl⟩ := Option.map_eq_some_iff.mp moved
  have forwards := forward_cases forwarded
  generalize same : before.service.mdns = lane' at forwards
  cases forwards with
  | insert channel device =>
    have pending := sound.pending
    simp only [onTheWay, same, List.cons_append, List.nil_append] at pending
    generalize records : before.pending = waiting at pending
    cases pending with
    | @cons info _ rest _ made others =>
      have entry : Entry before (before.note host (.forwardMdns accepted) { before.service with
          mdns := ⟨channel, .sending device⟩
          devices := Function.update before.service.devices device.deviceId (some device)
          onDevice := before.service.onDevice }) device (.record info.fullname) := by
        constructor <;> simp only [Traced.note, same, records]
      refine (entry.merged_mdns merged ?_).trans ?_
      · simp only [Traced.note, same, records]
      · simp only [Merges, same, records]
  | receive | drain | deliver | refuse =>
    refine iff_of_true (merged.same ?_ ?_ ?_) ?_
    · simp only [Traced.note, same]
    · simp only [Traced.note, same]
    · simp only [Traced.note, same]
    · simp only [Merges, same]

/-- A step of the forward task of UDP leaves the map merged exactly if it merges. -/
theorem forwardUdp_merged {accepted : Bool} (merged : Merged peerOf before)
    (stepped : traced host serviceName selfDevice before (.forwardUdp accepted) = some after) :
    Merged peerOf after ↔ Merges peerOf before (.forwardUdp accepted) := by
  obtain ⟨service, moved, rfl⟩ := Option.map_eq_some_iff.mp stepped
  obtain ⟨⟨lane, devices, onDevice⟩, forwarded, rfl⟩ := Option.map_eq_some_iff.mp moved
  have forwards := forward_cases forwarded
  generalize same : before.service.udp = lane' at forwards
  cases forwards with
  | insert channel device =>
    have entry : Entry before (before.note host (.forwardUdp accepted) { before.service with
        udp := ⟨channel, .sending device⟩
        devices := Function.update before.service.devices device.deviceId (some device)
        onDevice := before.service.onDevice }) device (.announced device) := by
      constructor <;> simp only [Traced.note, same]
    refine (entry.merged_udp merged ?_).trans ?_
    · simp only [Traced.note, same]
    · simp only [Merges, same]
  | receive | drain | deliver | refuse =>
    refine iff_of_true (merged.same ?_ ?_ ?_) ?_
    · simp only [Traced.note, same]
    · simp only [Traced.note, same]
    · simp only [Traced.note, same]
    · simp only [Merges, same]

/-- A step leaves the map merged exactly if it merges. -/
theorem merged_step {move : DiscoveryMove} (sound : Sound host before) (merged : Merged peerOf before)
    (stepped : traced host serviceName selfDevice before move = some after) :
    Merged peerOf after ↔ Merges peerOf before move := by
  cases move with
  | forwardMdns accepted => exact forwardMdns_merged sound merged stepped
  | forwardUdp accepted => exact forwardUdp_merged merged stepped
  | start fault =>
    obtain ⟨service, moved, rfl⟩ := Option.map_eq_some_iff.mp stepped
    have kept := start_keeps sound.browse sound.forward moved
    exact iff_of_true (merged.same kept.devices rfl rfl) trivial
  | stop =>
    obtain ⟨service, moved, rfl⟩ := Option.map_eq_some_iff.mp stepped
    obtain ⟨browsing, running, stopping, rfl⟩ := stopStep_cases moved
    refine iff_of_true ?_ trivial
    simp only [Traced.note]
    split
    · exact merged_cleared rfl rfl rfl
    · exact merged.same rfl rfl rfl
  | browse event madeUp =>
    obtain ⟨service, moved, rfl⟩ := Option.map_eq_some_iff.mp stepped
    obtain ⟨browse, mdns, rfl⟩ := browseStep_beside moved
    refine iff_of_true (merged.same ?_ browse_note.2.1 browse_note.2.2) trivial
    rw [browse_note.1]
  | announce encoded =>
    obtain ⟨service, moved, rfl⟩ := Option.map_eq_some_iff.mp stepped
    obtain ⟨announcer, rfl⟩ := announceStep_cases moved
    exact iff_of_true (merged.same rfl rfl rfl) trivial
  | listen received =>
    obtain ⟨service, moved, rfl⟩ := Option.map_eq_some_iff.mp stepped
    obtain ⟨listener, udp, rfl⟩ := listenStep_cases moved
    exact iff_of_true (merged.same rfl rfl rfl) trivial

/-- At first nothing is on its way. -/
theorem sound_new : Sound host .new where
  browse _ := rfl
  forward _ := rfl
  pending := .nil

/-- In every run in which no peer is entered under another identifier than the one it is in the map under,
and no announcement is entered for an identifier that mDNS has resolved, unless it says the same, whatever
is resolved and announced and in whatever order: the map has one entry at most for each peer, and for what
mDNS has resolved the latest resolution. A further step keeps it so exactly if it is such a step. -/
theorem devices_merged {reached : Traced}
    (path : Machine.Reaches (traced host serviceName selfDevice) (Merges peerOf) .new reached) :
    Merged peerOf reached ∧ ∀ move after, traced host serviceName selfDevice reached move = some after →
      (Merged peerOf after ↔ Merges peerOf reached move) := by
  have run : Sound host reached ∧ Merged peerOf reached := by
    induction path with
    | refl => exact ⟨sound_new, merged_cleared rfl rfl rfl⟩
    | tail _ last ih =>
      obtain ⟨sound, merged⟩ := ih
      obtain ⟨move, merges, stepped⟩ := last
      exact ⟨sound_step sound stepped, (merged_step sound merged stepped).mpr merges⟩
  exact ⟨run.2, fun move after stepped => merged_step run.1 run.2 stepped⟩

/-! ## Peers that keep their identifiers -/

/-- The device that a forward task is about to put into the map. -/
def entering : ForwardTask → Option DiscoveredDevice
  | .inserting device => some device
  | .unspawned | .receiving | .sending _ | .ended => none

/-- What is entered has the identifier of its peer, and an announcement says what mDNS has resolved last. -/
def Named (peerOf : Source → Peer) (idOf : Peer → Uuid) (seen : Traced) : DiscoveryMove → Prop
  | .forwardMdns _ => ∀ device ∈ entering seen.service.mdns.task, ∀ info ∈ seen.pending.head?,
      device.deviceId = idOf (peerOf (.record info.fullname))
  | .forwardUdp _ => ∀ device ∈ entering seen.service.udp.task,
      device.deviceId = idOf (peerOf (.announced device)) ∧
        ∀ known ∈ latest seen.resolved device.deviceId, known = device
  | .start _ | .stop | .browse _ _ | .announce _ | .listen _ => True

instance (peerOf : Source → Peer) (idOf : Peer → Uuid) (seen : Traced) :
    (move : DiscoveryMove) → Decidable (Named peerOf idOf seen move)
  | .forwardMdns _ => inferInstanceAs (Decidable (∀ device ∈ entering seen.service.mdns.task, _))
  | .forwardUdp _ => inferInstanceAs (Decidable (∀ device ∈ entering seen.service.udp.task, _))
  | .start _ | .stop | .browse _ _ | .announce _ | .listen _ => .isTrue trivial

/-- The entries have the identifiers of their peers. -/
def EntriesNamed (peerOf : Source → Peer) (idOf : Peer → Uuid) (seen : Traced) : Prop :=
  ∀ id source, seen.entered id = some source → id = idOf (peerOf source)

variable {idOf : Peer → Uuid}

/-- One more entry. -/
theorem EntriesNamed.enter (named : EntriesNamed peerOf idOf before) {device : DiscoveredDevice}
    {source : Source} (own : device.deviceId = idOf (peerOf source))
    (entered : after.entered = Function.update before.entered device.deviceId (some source)) :
    EntriesNamed peerOf idOf after := by
  intro id other found
  rw [entered] at found
  by_cases mine : id = device.deviceId
  · subst mine
    rw [Function.update_self] at found
    rw [← Option.some.inj found, own]
  · rw [Function.update_of_ne mine] at found
    exact named id other found

/-- Where the entries have the identifiers of their peers, a device that has that of its own is alone. -/
theorem EntriesNamed.alone (named : EntriesNamed peerOf idOf before) {device : DiscoveredDevice}
    {source : Source} (own : device.deviceId = idOf (peerOf source)) :
    Alone peerOf before source device := by
  intro id other found same
  rw [named id other found, same, own]

/-- A step that enters a device under the identifier of its peer merges, and leaves the entries named. -/
theorem EntriesNamed.step {move : DiscoveryMove} (named : EntriesNamed peerOf idOf before)
    (names : Named peerOf idOf before move)
    (stepped : traced host serviceName selfDevice before move = some after) :
    Merges peerOf before move ∧ EntriesNamed peerOf idOf after := by
  obtain ⟨service, moved, rfl⟩ := Option.map_eq_some_iff.mp stepped
  cases move with
  | forwardMdns accepted =>
    cases task : before.service.mdns.task with
    | inserting device =>
      cases records : before.pending with
      | nil =>
        simp only [Merges, Traced.note, task, records]
        exact ⟨trivial, named⟩
      | cons info rest =>
        have own := names device (by rw [task]; rfl) info (by rw [records]; rfl)
        simp only [Merges, Traced.note, task, records]
        exact ⟨named.alone own, named.enter own rfl⟩
    | unspawned | receiving | sending | ended =>
      simp only [Merges, Traced.note, task]
      exact ⟨trivial, named⟩
  | forwardUdp accepted =>
    cases task : before.service.udp.task with
    | inserting device =>
      obtain ⟨own, agrees⟩ := names device (by rw [task]; rfl)
      simp only [Merges, Traced.note, task]
      exact ⟨⟨named.alone own, agrees⟩, named.enter own rfl⟩
    | unspawned | receiving | sending | ended =>
      simp only [Merges, Traced.note, task]
      exact ⟨trivial, named⟩
  | browse event madeUp =>
    have entered := (@browse_note host before event madeUp service).2.2
    exact ⟨trivial, fun id source found => named id source (entered ▸ found)⟩
  | stop =>
    refine ⟨trivial, ?_⟩
    simp only [Traced.note]
    split
    · exact nofun
    · exact named
  | start | announce | listen => exact ⟨trivial, named⟩

/-- A run in which every peer brings its own identifier merges. -/
theorem merges_named {reached : Traced}
    (path : Machine.Reaches (traced host serviceName selfDevice) (Named peerOf idOf) .new reached) :
    Machine.Reaches (traced host serviceName selfDevice) (Merges peerOf) .new reached := by
  have run : Machine.Reaches (traced host serviceName selfDevice) (Merges peerOf) .new reached ∧
      EntriesNamed peerOf idOf reached := by
    induction path with
    | refl => exact ⟨.refl, fun _ _ found => nomatch found⟩
    | tail _ last ih =>
      obtain ⟨merging, named⟩ := ih
      obtain ⟨move, names, stepped⟩ := last
      obtain ⟨merges, stays⟩ := named.step names stepped
      exact ⟨merging.tail ⟨move, merges, stepped⟩, stays⟩
  exact run.1

/-! ## An announcement after a resolution -/

/-- A host that reads one announcement, of the device 8. -/
def sampleHost : DiscoveryHost :=
  { OwnDevice.sampleHost with
    parseAnnounce := fun bytes => if bytes = [1] then
      some ⟨magic, ⟨8⟩, "Laptop", 53317, "linux"⟩ else none }

/-- The one record is that of the device 8, and whoever announces a device is that device. -/
def samplePeer : Source → Uuid
  | .record _ => ⟨8⟩
  | .announced device => device.deviceId

/-- The device 8 is resolved twice. -/
def resolvedTwice : List DiscoveryMove :=
  let resolution : List DiscoveryMove := [.browse (.resolved (sampleInfo ⟨8⟩)) ⟨0⟩, .browse .other ⟨0⟩,
    .forwardMdns true, .forwardMdns true, .forwardMdns true]
  List.replicate 13 (.start none) ++ resolution ++ resolution

/-- And announces itself from another address. -/
def thenAnnounced : List DiscoveryMove :=
  resolvedTwice ++ [.listen none, .listen (some ⟨[1], "192.168.1.99"⟩), .listen none, .forwardUdp true,
    .forwardUdp true]

/-- A device that is resolved twice is in the map once. -/
theorem devices_merged_twice : ∃ reached,
    Machine.run (traced sampleHost discoveryName sampleSelf) (Named samplePeer id) resolvedTwice .new =
        some reached ∧
      reached.resolved.length = 2 ∧ Merged samplePeer reached := by
  have runs : (Machine.run (traced sampleHost discoveryName sampleSelf) (Named samplePeer id)
      resolvedTwice .new).map (·.resolved.length) = some 2 := by
    decide +kernel
  obtain ⟨reached, ran, twice⟩ := Option.map_eq_some_iff.mp runs
  exact ⟨reached, ran, twice, (devices_merged (merges_named (Machine.reaches_of_run ran))).1⟩

/-- An announcement takes the place of what mDNS has resolved. -/
theorem devices_merged_broken :
    ¬∀ (host : DiscoveryHost) (selfDevice : DiscoveredDevice) (peerOf : Source → Uuid) (reached : Traced),
      Machine.Reaches (traced host discoveryName selfDevice) (fun _ _ => True) .new reached →
      Merged peerOf reached := by
  intro always
  have runs : (Machine.run (traced sampleHost discoveryName sampleSelf) (fun _ _ => True) thenAnnounced
      .new).map (fun reached => ((latest reached.resolved ⟨8⟩).map (·.address),
        (reached.service.devices ⟨8⟩).map (·.address))) =
          some (some "192.168.1.20", some "192.168.1.99") := by
    decide +kernel
  obtain ⟨reached, ran, both⟩ := Option.map_eq_some_iff.mp runs
  obtain ⟨resolved, entered⟩ := Prod.mk.inj both
  obtain ⟨device, last, near⟩ := Option.map_eq_some_iff.mp resolved
  have merged := always sampleHost sampleSelf samplePeer reached (Machine.reaches_of_run ran)
  rw [merged.preferred ⟨8⟩ device last, Option.map_some, near] at entered
  exact absurd entered (by decide)

end FileDrop.MergedDevices
