import FileDrop.Ffi.Discovery
import FileDrop.Foundation.Machine

/-!
# The last discovery command

A service runs on unless a stop has taken it. What a stop takes is what was stored last, whoever stored
it, so it is the order in which the calls get to the slot that counts, and not the order in which they
were issued.
-/
namespace FileDrop.LastCommand
open FileDrop FfiDiscovery Slot

/-! ## What the accesses tell -/

/-- What is known of a call and its service, by whether the service has been stored. -/
def Fits : Option DiscoveryCall → StartStage → Prop → Prop
  | none, starting, stored => ¬stored ∧ starting = .uncalled
  | some ⟨.stop, _⟩, starting, stored => ¬stored ∧ starting = .uncalled
  | some ⟨.start _, .storing⟩, starting, stored => ¬stored ∧ starting = .returned (.ok ())
  | some ⟨.start _, .spawning⟩, starting, stored => stored ∧ starting = .returned (.ok ())
  | some ⟨.start _, .returned (.ok ())⟩, starting, stored => stored ∧ starting = .returned (.ok ())
  | _, _, stored => ¬stored

/-- A service that was stored is that of a start that has started it. -/
theorem Fits.started {call : Option DiscoveryCall} {starting : StartStage} {stored : Prop}
    (fits : Fits call starting stored) (holds : stored) :
    starting = .returned (.ok ()) ∧ ∃ selfDevice stage, call = some ⟨.start selfDevice, stage⟩ := by
  unfold Fits at fits
  split at fits
  · exact absurd holds fits.1
  · exact absurd holds fits.1
  · exact absurd holds fits.1
  · exact ⟨fits.2, _, _, rfl⟩
  · exact ⟨fits.2, _, _, rfl⟩
  · exact absurd holds fits

/-- How the calls, their services and the slot stand to each other. -/
structure Sound (world : FfiDiscovery) : Prop where
  issued : ∀ id, world.issued ≤ id → world.calls id = none
  slot : world.discovery = content world.accesses
  fits : ∀ id, Fits (world.calls id) (world.services id).starting (.stored id ∈ world.accesses)
  unstored : ∀ id, .stored id ∉ world.accesses → (world.services id).stopping = .uncalled
  nodup : (kept world.accesses).Nodup
  kept : ∀ id ∈ kept world.accesses, (world.services id).stopping = .uncalled
  taken : ∀ id service, world.calls id = some ⟨.stop, .stopping service⟩ →
    .stored service ∈ world.accesses ∧ service ∉ Slot.kept world.accesses
  gone : ∀ id, .stored id ∈ world.accesses → id ∉ Slot.kept world.accesses →
    (world.services id).stopping = .returned ∨ ∃ stop, world.calls stop = some ⟨.stop, .stopping id⟩

variable {before : FfiDiscovery} {id : Nat} {command : DiscoveryCommand} {stage : DiscoveryStage}

/-- A call that has been issued is one of the calls. -/
theorem Sound.lt_issued (sound : Sound before) {call : DiscoveryCall} (now : before.calls id = some call) :
    id < before.issued := by
  by_contra late
  rw [sound.issued id (Nat.le_of_not_lt late)] at now
  cases now

/-- What is known of a call at its stage. -/
theorem Sound.fits_now (sound : Sound before) {call : DiscoveryCall} (now : before.calls id = some call) :
    Fits (some call) (before.services id).starting (.stored id ∈ before.accesses) := by
  have fits := sound.fits id
  rw [now] at fits
  exact fits

/-- When a call goes on there is still no call that has not been issued. -/
theorem Sound.issued_update (sound : Sound before) {call next : DiscoveryCall}
    (now : before.calls id = some call) {other : Nat} (late : before.issued ≤ other) :
    Function.update before.calls id (some next) other = none := by
  have earlier := sound.lt_issued now
  have apart : other ≠ id := by omega
  rw [Function.update_of_ne apart]
  exact sound.issued other late

/-- When a call that stops no service goes on, those that do are where they were. -/
theorem stopping_update {call next : DiscoveryCall} {stop service : Nat}
    (now : before.calls id = some call) (idle : call ≠ ⟨.stop, .stopping service⟩)
    (busy : before.calls stop = some ⟨.stop, .stopping service⟩) :
    Function.update before.calls id (some next) stop = some ⟨.stop, .stopping service⟩ := by
  have apart : stop ≠ id := by
    rintro rfl
    exact idle (Option.some.inj (now.symm.trans busy))
  rw [Function.update_of_ne apart]
  exact busy

/-- A call goes on, or is issued, beside the slot. -/
theorem sound_goTo (sound : Sound before) {issued : Nat} {locked : Bool} (grows : before.issued ≤ issued)
    (known : id < issued)
    (fits : Fits (some ⟨command, stage⟩) (before.services id).starting (.stored id ∈ before.accesses))
    (finished : ∀ service, before.calls id = some ⟨.stop, .stopping service⟩ →
      (before.services service).stopping = .returned)
    (next : ∀ service, stage ≠ .stopping service) :
    Sound { before with issued, locked, calls := Function.update before.calls id (some ⟨command, stage⟩) } where
  issued other late := by
    have late : issued ≤ other := late
    have apart : other ≠ id := by omega
    simp only [Function.update_of_ne apart]
    exact sound.issued other (by omega)
  slot := sound.slot
  fits other := by
    by_cases same : other = id
    · subst same
      simp only [Function.update_self]
      exact fits
    · simp only [Function.update_of_ne same]
      exact sound.fits other
  unstored := sound.unstored
  nodup := sound.nodup
  kept := sound.kept
  taken other service now := by
    by_cases same : other = id
    · subst same
      simp only [Function.update_self] at now
      cases now
      exact absurd rfl (next service)
    · simp only [Function.update_of_ne same] at now
      exact sound.taken other service now
  gone other stored lost := by
    rcases sound.gone other stored lost with returned | ⟨stop, now⟩
    · exact .inl returned
    · by_cases same : stop = id
      · subst same
        exact .inl (finished other now)
      · refine .inr ⟨stop, ?_⟩
        simp only [Function.update_of_ne same]
        exact now

/-- A call that has been issued and stops no service goes on. -/
theorem sound_goOn (sound : Sound before) {locked : Bool} {call : DiscoveryCall}
    (now : before.calls id = some call) (idle : ∀ service, call ≠ ⟨.stop, .stopping service⟩)
    (fits : Fits (some ⟨command, stage⟩) (before.services id).starting (.stored id ∈ before.accesses))
    (next : ∀ service, stage ≠ .stopping service) :
    Sound { before with locked, calls := Function.update before.calls id (some ⟨command, stage⟩) } := by
  refine sound_goTo sound (Nat.le_refl _) (sound.lt_issued now) fits (fun service busy => ?_) next
  exact absurd (Option.some.inj (now.symm.trans busy)) (idle service)

/-- A service goes on. -/
theorem sound_setService (sound : Sound before) {service : DiscoveryService}
    (fits : Fits (before.calls id) service.starting (.stored id ∈ before.accesses))
    (stop : service.stopping = (before.services id).stopping ∨
      ∃ other, before.calls other = some ⟨.stop, .stopping id⟩) :
    Sound (before.setService id service) where
  issued := sound.issued
  slot := sound.slot
  fits := by
    apply (Function.forall_update_iff before.services fun other service =>
      Fits (before.calls other) service.starting (.stored other ∈ before.accesses)).mpr
    exact ⟨fits, fun other _ => sound.fits other⟩
  unstored := by
    apply (Function.forall_update_iff before.services fun other service =>
      .stored other ∉ before.accesses → service.stopping = .uncalled).mpr
    refine ⟨fun absent => ?_, fun other _ => sound.unstored other⟩
    rcases stop with still | ⟨stop, now⟩
    · rw [still]
      exact sound.unstored id absent
    · exact absurd (sound.taken stop id now).1 absent
  nodup := sound.nodup
  kept := by
    apply (Function.forall_update_iff before.services fun other service =>
      other ∈ Slot.kept before.accesses → service.stopping = .uncalled).mpr
    refine ⟨fun held => ?_, fun other _ => sound.kept other⟩
    rcases stop with still | ⟨stop, now⟩
    · rw [still]
      exact sound.kept id held
    · exact absurd held (sound.taken stop id now).2
  taken := sound.taken
  gone := by
    apply (Function.forall_update_iff before.services fun other service =>
      .stored other ∈ before.accesses → other ∉ Slot.kept before.accesses →
        service.stopping = .returned ∨ ∃ stop, before.calls stop = some ⟨.stop, .stopping other⟩).mpr
    refine ⟨fun stored lost => ?_, fun other _ => sound.gone other⟩
    rcases stop with still | busy
    · rw [still]
      exact sound.gone id stored lost
    · exact .inr busy

/-- A start stores its service. -/
theorem sound_store (sound : Sound before) {selfDevice : DiscoveredDevice}
    (now : before.calls id = some ⟨.start selfDevice, .storing⟩) :
    Sound { before with
      calls := Function.update before.calls id (some ⟨.start selfDevice, .spawning⟩)
      discovery := some id, accesses := .stored id :: before.accesses } := by
  obtain ⟨absent, started⟩ := sound.fits_now now
  have others {other : Nat} (apart : other ≠ id) :
      .stored other ∈ (.stored id :: before.accesses : List (Access Nat)) ↔
        .stored other ∈ before.accesses := by
    simp [apart]
  constructor
  case issued => exact fun other late => sound.issued_update now late
  case slot => rfl
  case fits =>
    intro other
    by_cases same : other = id
    · subst same
      simp only [Function.update_self]
      exact ⟨List.mem_cons_self, started⟩
    · simp only [Function.update_of_ne same, others same]
      exact sound.fits other
  case unstored =>
    intro other lacks
    have apart : .stored other ∉ before.accesses := fun old => lacks (List.mem_cons_of_mem _ old)
    exact sound.unstored other apart
  case nodup =>
    have new : id ∉ Slot.kept before.accesses := fun held => absent (stored_of_kept held)
    exact List.nodup_cons.mpr ⟨new, sound.nodup⟩
  case kept =>
    intro other held
    rcases List.mem_cons.mp held with rfl | old
    · exact sound.unstored other absent
    · exact sound.kept other old
  case taken =>
    intro stop service busy
    by_cases same : stop = id
    · subst same
      simp only [Function.update_self] at busy
      cases busy
    · simp only [Function.update_of_ne same] at busy
      obtain ⟨stored, lost⟩ := sound.taken stop service busy
      have apart : service ≠ id := by
        rintro rfl
        exact absent stored
      exact ⟨List.mem_cons_of_mem _ stored, fun held => lost ((List.mem_cons.mp held).resolve_left apart)⟩
  case gone =>
    intro other stored lost
    have apart : other ≠ id := by
      rintro rfl
      exact lost List.mem_cons_self
    have earlier := sound.gone other ((others apart).mp stored) fun held => lost (List.mem_cons_of_mem _ held)
    rcases earlier with returned | ⟨stop, busy⟩
    · exact .inl returned
    · exact .inr ⟨stop, stopping_update now nofun busy⟩

/-- A stop finds the slot empty. -/
theorem sound_takeNone (sound : Sound before) (empty : before.discovery = none) :
    Sound { before with accesses := .taken :: before.accesses } := by
  have same : kept (.taken :: before.accesses) = kept before.accesses :=
    kept_taken_empty (sound.slot.symm.trans empty)
  have still (other : Nat) : .stored other ∈ (.taken :: before.accesses : List (Access Nat)) ↔
      .stored other ∈ before.accesses := by
    simp
  constructor
  case issued => exact sound.issued
  case slot => exact empty
  case fits =>
    intro other
    simp only [still]
    exact sound.fits other
  case unstored => exact fun other absent => sound.unstored other fun old => absent ((still other).mpr old)
  case nodup =>
    rw [same]
    exact sound.nodup
  case kept =>
    rw [same]
    exact sound.kept
  case taken =>
    intro stop service busy
    rw [same, still]
    exact sound.taken stop service busy
  case gone =>
    intro other
    rw [same, still]
    exact sound.gone other

/-- A stop takes a service. -/
theorem sound_take (sound : Sound before) {service : Nat} {locked : Bool}
    (now : before.calls id = some ⟨.stop, .taking⟩) (there : before.discovery = some service) :
    Sound { before with
      calls := Function.update before.calls id (some ⟨.stop, .stopping service⟩)
      discovery := none, locked, accesses := .taken :: before.accesses } := by
  have content : content before.accesses = some service := sound.slot.symm.trans there
  have split : kept before.accesses = service :: kept (.taken :: before.accesses) := kept_taken content
  have distinct := sound.nodup
  rw [split] at distinct
  obtain ⟨lost, distinct⟩ := List.nodup_cons.mp distinct
  have still (other : Nat) : .stored other ∈ (.taken :: before.accesses : List (Access Nat)) ↔
      .stored other ∈ before.accesses := by
    simp
  constructor
  case issued => exact fun other late => sound.issued_update now late
  case slot => rfl
  case fits =>
    intro other
    simp only [still]
    by_cases same : other = id
    · subst same
      have fits := sound.fits_now now
      simp only [Function.update_self]
      exact fits
    · simp only [Function.update_of_ne same]
      exact sound.fits other
  case unstored => exact fun other absent => sound.unstored other fun old => absent ((still other).mpr old)
  case nodup => exact distinct
  case kept => exact fun other held => sound.kept other (split ▸ List.mem_cons_of_mem _ held)
  case taken =>
    intro stop other busy
    rw [still]
    by_cases same : stop = id
    · subst same
      simp only [Function.update_self] at busy
      cases busy
      exact ⟨stored_of_kept (kept_of_content content), lost⟩
    · simp only [Function.update_of_ne same] at busy
      obtain ⟨stored, absent⟩ := sound.taken stop other busy
      exact ⟨stored, fun held => absent (split ▸ List.mem_cons_of_mem _ held)⟩
  case gone =>
    intro other stored absent
    by_cases mine : other = service
    · subst mine
      exact .inr ⟨id, Function.update_self ..⟩
    · have earlier : other ∉ Slot.kept before.accesses := by
        rw [split]
        exact fun held => absent ((List.mem_cons.mp held).resolve_left mine)
      rcases sound.gone other ((still other).mp stored) earlier with returned | ⟨stop, busy⟩
      · exact .inl returned
      · exact .inr ⟨stop, stopping_update now nofun busy⟩

/-- Every step keeps it. -/
theorem sound_step {host : DiscoveryHost} {after : FfiDiscovery} {move : FfiDiscoveryMove}
    (sound : Sound before) (stepped : step host before move = some after) : Sound after := by
  cases step_cases stepped with
  | issue command =>
    have fresh : before.calls before.issued = none := sound.issued before.issued (Nat.le_refl _)
    have fits := sound.fits before.issued
    rw [fresh] at fits
    refine sound_goTo sound (Nat.le_succ _) (Nat.lt_succ_self _) ?_ (fun service busy => ?_) ?_
    · cases command with
      | start => exact fits.1
      | stop => exact fits
    · rw [fresh] at busy
      cases busy
    · cases command with
      | start | stop => exact nofun
  | start id selfDevice stage next now kind =>
    have fits := sound.fits_now now
    rcases kind with ⟨rfl, rfl | ⟨text, rfl⟩⟩ | ⟨rfl, ⟨rfl, started⟩ | ⟨text, rfl⟩⟩
    · exact sound_goOn sound now nofun fits nofun
    · exact sound_goOn sound now nofun fits nofun
    · exact sound_goOn sound now nofun ⟨fits, started⟩ nofun
    · exact sound_goOn sound now nofun fits nofun
  | store id selfDevice now free => exact sound_store sound now
  | spawn id selfDevice now =>
    have fits := sound.fits_now now
    exact sound_goOn sound now nofun fits nofun
  | takeNone id now free empty =>
    have fits := sound.fits_now now
    have returned : Sound { before with
        calls := Function.update before.calls id (some ⟨.stop, .returned (.ok ())⟩) } :=
      sound_goOn sound now nofun fits nofun
    exact sound_takeNone returned empty
  | take id service now free there => exact sound_take sound now there
  | release id service now finished =>
    have fits := sound.fits_now now
    refine sound_goTo sound (Nat.le_refl _) (sound.lt_issued now) fits (fun other busy => ?_) nofun
    rw [now] at busy
    cases busy
    exact finished
  | serviceStart id selfDevice service now same =>
    have fits := sound.fits_now now
    refine sound_setService sound ?_ (.inl same)
    rw [now]
    exact fits
  | serviceStop id stopped service now same =>
    refine sound_setService sound ?_ (.inr ⟨id, now⟩)
    rw [same]
    exact sound.fits stopped
  | task id service start stop =>
    refine sound_setService sound ?_ (.inl stop)
    rw [start]
    exact sound.fits id

/-- At first nothing has been called. -/
theorem sound_new : Sound .new where
  issued _ _ := rfl
  slot := rfl
  fits _ := ⟨List.not_mem_nil, rfl⟩
  unstored _ _ := rfl
  nodup := List.nodup_nil
  kept _ held := absurd held List.not_mem_nil
  taken _ _ busy := absurd busy.symm (Option.some_ne_none _)
  gone _ stored := absurd stored List.not_mem_nil

/-! ## What runs in the end -/

variable {host : DiscoveryHost} {world : FfiDiscovery}

/-- The two calls are sound in every run. -/
theorem sound_reached (path : Machine.Reaches (step host) (fun _ _ => True) .new world) : Sound world :=
  path.invariant sound_new fun _ _ _ sound _ stepped => sound_step sound stepped

/-- A service has started, and has not been stopped. -/
def Running (service : DiscoveryService) : Prop :=
  service.starting = .returned (.ok ()) ∧ service.stopping ≠ .returned

/-- Every call has returned, and none has failed. -/
def Settled (world : FfiDiscovery) : Prop :=
  ∀ id < world.issued, ∃ command, world.calls id = some ⟨command, .returned (.ok ())⟩

/-- When every call has returned, the services that run are those that no stop has taken. -/
theorem running_iff (sound : Sound world) (settled : Settled world) (id : Nat) :
    Running (world.services id) ↔ id ∈ kept world.accesses := by
  constructor
  · rintro ⟨started, unstopped⟩
    have stored : .stored id ∈ world.accesses := by
      have fits := sound.fits id
      cases now : world.calls id with
      | none =>
        rw [now, started] at fits
        exact absurd fits.2 nofun
      | some call =>
        obtain ⟨command, returned⟩ := settled id (sound.lt_issued now)
        rw [returned] at fits
        cases command with
        | start selfDevice => exact fits.1
        | stop =>
          rw [started] at fits
          exact absurd fits.2 nofun
    by_contra lost
    rcases sound.gone id stored lost with returned | ⟨stop, busy⟩
    · exact unstopped returned
    · obtain ⟨command, returned⟩ := settled stop (sound.lt_issued busy)
      rw [busy] at returned
      cases returned
  · intro held
    obtain ⟨started, -⟩ := (sound.fits id).started (stored_of_kept held)
    refine ⟨started, ?_⟩
    rw [sound.kept id held]
    exact nofun

/-- The last command that was issued. -/
def lastCommand (world : FfiDiscovery) : Option DiscoveryCommand :=
  (world.calls (world.issued - 1)).map (·.command)

/-- The last command wins. -/
def Wins (world : FfiDiscovery) : Prop :=
  match lastCommand world with
  | none => True
  | some (.start _) => ∃ id, world.discovery = some id ∧ Running (world.services id)
  | some .stop => ∀ id, ¬Running (world.services id)

/-- The calls got to the slot in an order that suits the last command: if it is a start, the latest
access is a store, and if it is a stop, every store is followed by a take. -/
def InOrder (world : FfiDiscovery) : Prop :=
  match lastCommand world with
  | none => True
  | some (.start _) => ∃ id, world.accesses.head? = some (.stored id)
  | some .stop => Answered world.accesses

/-- In every run of any number of calls, in which none of them fails: once all of them have returned, the
last command that was issued wins if and only if the calls got to the slot in an order that suits it. -/
theorem last_command (path : Machine.Reaches (step host) (fun _ _ => True) .new world)
    (settled : Settled world) : Wins world ↔ InOrder world := by
  have sound := sound_reached path
  unfold Wins InOrder
  split
  · exact Iff.rfl
  · refine exists_congr fun id => ?_
    rw [← content_eq_some, ← sound.slot]
    constructor
    · exact And.left
    · intro there
      have held : id ∈ kept world.accesses := kept_of_content (sound.slot.symm.trans there)
      exact ⟨there, (running_iff sound settled id).mpr held⟩
  · rw [← kept_eq_nil_iff, List.eq_nil_iff_forall_not_mem]
    exact forall_congr' fun id => not_congr (running_iff sound settled id)

/-! ## Going back at once -/

/-- The own device of the samples. -/
def sampleDevice : DiscoveredDevice := ⟨⟨7⟩, "Phone", "192.168.1.20", 53317, "android", false⟩

/-- A host that reads neither identifiers nor announcements. -/
def deafHost : DiscoveryHost := ⟨fun _ => none, fun _ => none, fun _ => none⟩

/-- The first call starts discovery, up to its end. -/
def starting : List FfiDiscoveryMove := List.replicate 17 (.call 0 none)

/-- A start, and a stop after it has returned. -/
def oneByOne : List FfiDiscoveryMove :=
  [.issue (.start sampleDevice)] ++ starting ++ [.issue .stop] ++ List.replicate 6 (.call 1 none)

/-- A start, and a stop that is issued and returns before the start stores its service. -/
def overtaken : List FfiDiscoveryMove :=
  [.issue (.start sampleDevice), .issue .stop, .call 1 none] ++ starting

/-- Whether the call at an identifier has returned without an error. -/
def returnedOk (world : FfiDiscovery) (id : Nat) : Bool :=
  match world.calls id with
  | some ⟨_, .returned (.ok ())⟩ => true
  | _ => false

/-- Two calls that have returned are settled. -/
theorem settled_of_two (two : world.issued = 2) (first : returnedOk world 0 = true)
    (second : returnedOk world 1 = true) : Settled world := by
  have known {id : Nat} (returned : returnedOk world id = true) :
      ∃ command, world.calls id = some ⟨command, .returned (.ok ())⟩ := by
    unfold returnedOk at returned
    split at returned
    · rename_i command now
      exact ⟨command, now⟩
    · cases returned
  intro id issued
  have either : id = 0 ∨ id = 1 := by omega
  rcases either with rfl | rfl
  · exact known first
  · exact known second

/-- One by one the two calls get to the slot in order. -/
theorem last_command_settled : ∃ world,
    Machine.run (step deafHost) (fun _ _ => True) oneByOne .new = some world ∧ Settled world ∧
      lastCommand world = some .stop ∧ Wins world := by
  have runs : (Machine.run (step deafHost) (fun _ _ => True) oneByOne .new).map (fun world =>
      decide (world.issued = 2 ∧ returnedOk world 0 = true ∧ returnedOk world 1 = true ∧
        lastCommand world = some .stop ∧ world.accesses = [.taken, .stored 0])) = some true := by
    decide +kernel
  obtain ⟨world, ran, facts⟩ := Option.map_eq_some_iff.mp runs
  obtain ⟨two, first, second, last, accesses⟩ := of_decide_eq_true facts
  have settled := settled_of_two two first second
  refine ⟨world, ran, settled, last, (last_command (Machine.reaches_of_run ran) settled).mpr ?_⟩
  rw [InOrder, last, accesses]
  exact (kept_eq_nil_iff _).mp rfl

/-- A stop that overtakes the start before it leaves the service running. -/
theorem last_command_broken :
    ¬∀ (host : DiscoveryHost) (world : FfiDiscovery),
      Machine.Reaches (step host) (fun _ _ => True) .new world → Settled world → Wins world := by
  intro always
  have runs : (Machine.run (step deafHost) (fun _ _ => True) overtaken .new).map (fun world =>
      decide (world.issued = 2 ∧ returnedOk world 0 = true ∧ returnedOk world 1 = true ∧
        lastCommand world = some .stop ∧ world.accesses = [.stored 0, .taken])) = some true := by
    decide +kernel
  obtain ⟨world, ran, facts⟩ := Option.map_eq_some_iff.mp runs
  obtain ⟨two, first, second, last, accesses⟩ := of_decide_eq_true facts
  have path : Machine.Reaches (step deafHost) (fun _ _ => True) .new world := Machine.reaches_of_run ran
  have settled := settled_of_two two first second
  have wins := always deafHost world path settled
  rw [Wins, last] at wins
  have held : 0 ∈ kept world.accesses := by
    rw [accesses]
    exact List.mem_singleton_self 0
  exact wins 0 ((running_iff (sound_reached path) settled 0).mpr held)

end FileDrop.LastCommand
