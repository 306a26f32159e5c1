import FileDrop.Ffi.Pairing
import FileDrop.Verif.OneServer

/-!
# What a pairing code says

The payload of a pairing code names the default port, whatever port the scan gave the server, and an
expiry that is computed from a later look at the clock than the one of its request. Only its token always
is the one of the request. A server keeps the port that its start chose, and that is the default one if it
was free.
-/
namespace FileDrop.LivePayload
open FileDrop FfiServer PairingStateMachine

/-! ## The port of a server -/

/-- The port that a call asks the network for. -/
def wanted : ServerCall → Option UInt16
  | ⟨.start, .binding port⟩ => some port
  | _ => none

/-- A listener that is bound to a port has that port in its address. -/
def Honest (world : FfiServer) : ServerMove → Prop
  | .call id choice => ∀ port ∈ (world.calls id).bind wanted,
    ∀ localAddr ∈ choice.localAddr.toOption, localAddr.port = port
  | .initEngine | .issue _ => True

instance (world : FfiServer) : (move : ServerMove) → Decidable (Honest world move)
  | .call id choice =>
    @Option.decidableForallMem _ _ (fun _ => Option.decidableForallMem choice.localAddr.toOption)
      ((world.calls id).bind wanted)
  | .initEngine | .issue _ => inferInstanceAs (Decidable True)

/-- The scan gives the first free port: the default one when it is free. -/
theorem pickServerPort_default {free : List UInt16} {port : UInt16}
    (picked : pickServerPort free = .ok port) :
    port ∈ portScanRange ∧ port ∈ free ∧ (port = defaultPort ↔ defaultPort ∈ free) := by
  unfold pickServerPort at picked
  split at picked
  · rename_i found scanned
    obtain rfl := Except.ok.inj picked
    have listed := List.mem_of_find?_eq_some scanned
    have usable : found ∈ free := by simpa using List.find?_some scanned
    refine ⟨listed, usable, fun same => same ▸ usable, fun there => ?_⟩
    have range : portScanRange = defaultPort :: (portScanRange.drop 1) := by decide +kernel
    rw [range, List.find?_cons_of_pos (by simpa using there)] at scanned
    exact (Option.some.inj scanned).symm
  · cases picked

/-- Every port that is chosen or bound is one of the range, and a server that is spawned has one. -/
structure Ranged (world : FfiServer) : Prop where
  fresh : ∀ id, world.issued ≤ id → world.calls id = none
  binding : ∀ id port, world.calls id = some ⟨.start, .binding port⟩ → port ∈ portScanRange
  bound : ∀ id port, world.boundPort id = some port → port ∈ portScanRange
  spawned : ∀ id, world.spawned id = true → (world.boundPort id).isSome

section

variable {before after : FfiServer} {id : Nat}

/-- The port of a server is known from its call. -/
theorem boundPort_eq {call : ServerCall} (now : before.calls id = some call) :
    before.boundPort id = call.boundPort := by
  rw [FfiServer.boundPort, now, Option.bind_some]

/-- A server whose call has no port has not been spawned. -/
theorem Ranged.idle {now : ServerCall} (ranged : Ranged before) (was : before.calls id = some now)
    (portless : now.boundPort = none) : before.spawned id ≠ true := by
  intro spawned
  have has := ranged.spawned id spawned
  rw [boundPort_eq was, portless] at has
  cases has

/-- A call that goes on keeps the ports in the range, if it does itself. -/
theorem Ranged.goesOn {now next : ServerCall} (ranged : Ranged before)
    (was : before.calls id = some now)
    (calls : after.calls = Function.update before.calls id (some next))
    (issued : after.issued = before.issued)
    (binding : ∀ port, next = ⟨.start, .binding port⟩ → port ∈ portScanRange)
    (bound : ∀ port, next.boundPort = some port → port ∈ portScanRange)
    (spawned : ∀ other, other ≠ id → after.spawned other = before.spawned other)
    (has : after.spawned id = true → next.boundPort.isSome) : Ranged after := by
  have own : after.calls id = some next := by rw [calls, Function.update_self]
  have others {other : Nat} (apart : other ≠ id) : after.calls other = before.calls other := by
    rw [calls, Function.update_of_ne apart]
  have ports {other : Nat} (apart : other ≠ id) : after.boundPort other = before.boundPort other := by
    rw [FfiServer.boundPort, others apart, FfiServer.boundPort]
  refine ⟨fun other late => ?_, fun other port there => ?_, fun other port there => ?_,
    fun other there => ?_⟩
  · rw [issued] at late
    have unknown := ranged.fresh other late
    have apart : other ≠ id := by
      rintro rfl
      rw [was] at unknown
      cases unknown
    rw [others apart]
    exact unknown
  · by_cases apart : other = id
    · subst apart
      rw [own] at there
      exact binding port (Option.some.inj there)
    · rw [others apart] at there
      exact ranged.binding other port there
  · by_cases apart : other = id
    · subst apart
      rw [boundPort_eq own] at there
      exact bound port there
    · rw [ports apart] at there
      exact ranged.bound other port there
  · by_cases apart : other = id
    · subst apart
      rw [boundPort_eq own]
      exact has there
    · rw [ports apart]
      rw [spawned other apart] at there
      exact ranged.spawned other there

/-- A call that goes on with the port it has. -/
theorem Ranged.carries {now next : ServerCall} (ranged : Ranged before)
    (was : before.calls id = some now)
    (calls : after.calls = Function.update before.calls id (some next))
    (issued : after.issued = before.issued) (past : ∀ port, next ≠ ⟨.start, .binding port⟩)
    (same : next.boundPort = now.boundPort) (ported : next.boundPort.isSome)
    (spawned : ∀ other, other ≠ id → after.spawned other = before.spawned other) : Ranged after := by
  refine ranged.goesOn was calls issued (fun port here => absurd here (past port)) ?_ spawned
    fun _ => ported
  intro port bound
  have had : before.boundPort id = some port := by rw [boundPort_eq was, ← same, bound]
  exact ranged.bound id port had

/-- A start that fails, before its server is spawned. -/
theorem Ranged.fails {now : ServerCall} (ranged : Ranged before) (was : before.calls id = some now)
    (portless : now.boundPort = none) (error : String) :
    Ranged (before.goTo id .start (.started (.error error))) := by
  refine ranged.goesOn was rfl rfl ?_ ?_ (fun _ _ => rfl) fun spawned => ?_
  · rintro port ⟨⟩
  · rintro port ⟨⟩
  · exact absurd spawned (ranged.idle was portless)

/-- A step of a start keeps the ports in the range. -/
theorem Ranged.start {stage : ServerStage} {choice : ServerChoice} (ranged : Ranged before)
    (was : before.calls id = some ⟨.start, stage⟩) (honest : Honest before (.call id choice))
    (stepped : startServer before id stage choice = some after) : Ranged after := by
  cases stage with
  | choosing =>
    simp only [startServer] at stepped
    split at stepped
    · split at stepped
      · rename_i port picked
        obtain rfl := Option.some.inj stepped
        refine ranged.goesOn was rfl rfl ?_ ?_ (fun _ _ => rfl) fun spawned => ?_
        · rintro other ⟨⟩
          exact (pickServerPort_default picked).1
        · rintro other ⟨⟩
        · exact absurd spawned (ranged.idle was rfl)
      · obtain rfl := Option.some.inj stepped
        exact ranged.fails was rfl _
    · obtain rfl := Option.some.inj stepped
      exact ranged.fails was rfl _
  | binding port =>
    simp only [startServer] at stepped
    split at stepped
    · rename_i localAddr _ given
      obtain rfl := Option.some.inj stepped
      refine ranged.goesOn was rfl rfl ?_ ?_ (fun _ _ => rfl) fun _ => rfl
      · rintro other ⟨⟩
      · rintro other ⟨⟩
        have asked : port ∈ (before.calls id).bind wanted := by rw [was]; rfl
        have answered : localAddr ∈ choice.localAddr.toOption := by rw [given]; rfl
        rw [honest port asked localAddr answered]
        exact ranged.binding id port was
    · obtain rfl := Option.some.inj stepped
      exact ranged.fails was rfl _
    · obtain rfl := Option.some.inj stepped
      exact ranged.fails was rfl _
  | storing localAddr | answering localAddr =>
    obtain rfl := Option.some.inj stepped
    refine ranged.carries was rfl rfl ?_ rfl rfl fun _ _ => rfl
    rintro port ⟨⟩
  | spawning localAddr =>
    obtain rfl := Option.some.inj stepped
    refine ranged.carries was rfl rfl ?_ rfl rfl fun _ apart => Function.update_of_ne apart _ _
    rintro port ⟨⟩
  | taking | started | stopped => cases stepped

/-- A call that is issued has no port yet. -/
theorem Ranged.issue (ranged : Ranged before) (command : ServerCommand) : Ranged { before with
    calls := Function.update before.calls before.issued (some ⟨command, firstStage command⟩)
    issued := before.issued + 1 } := by
  have unknown := ranged.fresh before.issued (Nat.le_refl _)
  have portless : ServerCall.boundPort ⟨command, firstStage command⟩ = none := by
    cases command with
    | start | stop => rfl
  refine ⟨fun id late => ?_, fun id port there => ?_, fun id port there => ?_, fun id there => ?_⟩
  · have later : before.issued + 1 ≤ id := late
    have apart : id ≠ before.issued := by omega
    have earlier := ranged.fresh id (by omega)
    simpa only [Function.update_of_ne apart] using earlier
  · by_cases same : id = before.issued
    · subst same
      simp only [Function.update_self] at there
      cases command with
      | start | stop => cases there
    · simp only [Function.update_of_ne same] at there
      exact ranged.binding id port there
  · by_cases same : id = before.issued
    · subst same
      simp only [FfiServer.boundPort, Function.update_self, Option.bind_some, portless] at there
      cases there
    · simp only [FfiServer.boundPort, Function.update_of_ne same] at there
      exact ranged.bound id port there
  · have ported := ranged.spawned id there
    by_cases same : id = before.issued
    · subst same
      rw [FfiServer.boundPort, unknown] at ported
      cases ported
    · simpa only [FfiServer.boundPort, Function.update_of_ne same] using ported

/-- Every honest step keeps the ports in the range. -/
theorem Ranged.step {move : ServerMove} (ranged : Ranged before) (honest : Honest before move)
    (stepped : FfiServer.step before move = some after) : Ranged after := by
  cases move with
  | initEngine =>
    obtain rfl := Option.some.inj stepped
    exact ⟨ranged.fresh, ranged.binding, ranged.bound, ranged.spawned⟩
  | issue command =>
    obtain rfl := Option.some.inj stepped
    exact ranged.issue command
  | call id choice =>
    simp only [FfiServer.step] at stepped
    split at stepped
    · rename_i stage now
      exact ranged.start now honest stepped
    · rename_i stage now
      cases stage with
      | taking =>
        obtain rfl := Option.some.inj stepped
        refine ranged.goesOn now rfl rfl ?_ ?_ (fun _ _ => rfl) fun spawned => ?_
        · rintro port ⟨⟩
        · rintro port ⟨⟩
        · exact absurd spawned (ranged.idle now rfl)
      | choosing | binding | storing | spawning | answering | started | stopped => cases stepped
    · cases stepped

end

/-- In every run, a server that is spawned has a port of the range. -/
theorem ranged_reached {world : FfiServer} (path : Machine.Reaches step Honest .new world) :
    Ranged world := by
  have start : Ranged .new := by
    refine ⟨fun _ _ => rfl, ?_, ?_, ?_⟩
    · rintro id port ⟨⟩
    · rintro id port ⟨⟩
    · rintro id ⟨⟩
  exact path.invariant start fun _ _ _ ranged honest stepped => ranged.step honest stepped

/-! ## The choice of a port -/

/-- The call is past its choice, and wants and has no other port. -/
structure Keeps (port : UInt16) (call : ServerCall) : Prop where
  command : call.command = .start
  past : call.stage ≠ .choosing
  wanted : ∀ other, wanted call = some other → other = port
  bound : ∀ other, call.boundPort = some other → other = port

/-- A call that neither wants nor has a port keeps to any. -/
theorem keeps_portless (port : UInt16) {stage : ServerStage} (past : stage ≠ .choosing)
    (wants : wanted ⟨.start, stage⟩ = none) (has : ServerCall.boundPort ⟨.start, stage⟩ = none) :
    Keeps port ⟨.start, stage⟩ := by
  refine ⟨rfl, past, fun other same => ?_, fun other same => ?_⟩
  · rw [wants] at same
    cases same
  · rw [has] at same
    cases same

section

variable {before after : FfiServer} {id : Nat} {port : UInt16}

/-- A start that is past its choice keeps to its port. -/
theorem Keeps.start {stage : ServerStage} {choice : ServerChoice} (keeps : Keeps port ⟨.start, stage⟩)
    (was : before.calls id = some ⟨.start, stage⟩) (honest : Honest before (.call id choice))
    (stepped : startServer before id stage choice = some after) :
    ∃ next, after.calls id = some next ∧ Keeps port next := by
  have failed (error : String) : Keeps port ⟨.start, .started (.error error)⟩ :=
    keeps_portless port (fun same => by cases same) rfl rfl
  cases stage with
  | choosing => exact absurd rfl keeps.past
  | binding asked =>
    simp only [startServer] at stepped
    split at stepped
    · rename_i localAddr _ given
      obtain rfl := Option.some.inj stepped
      refine ⟨_, Function.update_self .., rfl, (fun same => by cases same), ?_, ?_⟩
      · rintro other ⟨⟩
      · rintro other ⟨⟩
        have wants : asked ∈ (before.calls id).bind LivePayload.wanted := by rw [was]; rfl
        have answered : localAddr ∈ choice.localAddr.toOption := by rw [given]; rfl
        rw [honest asked wants localAddr answered]
        exact keeps.wanted asked rfl
    · obtain rfl := Option.some.inj stepped
      exact ⟨_, Function.update_self .., failed _⟩
    · obtain rfl := Option.some.inj stepped
      exact ⟨_, Function.update_self .., failed _⟩
  | storing localAddr | spawning localAddr | answering localAddr =>
    obtain rfl := Option.some.inj stepped
    refine ⟨_, Function.update_self .., rfl, (fun same => by cases same), ?_, keeps.bound⟩
    rintro other ⟨⟩
  | taking | started | stopped => cases stepped

/-- A step of a call leaves the others where they are. -/
theorem call_others {choice : ServerChoice} (stepped : step before (.call id choice) = some after)
    {other : Nat} (apart : other ≠ id) : after.calls other = before.calls other := by
  cases step_cases stepped with
  | start | store | spawn | stop => exact Function.update_of_ne apart _ _

/-- The start of a server is past its choice. -/
structure Settled (port : UInt16) (id : Nat) (world : FfiServer) : Prop where
  ranged : Ranged world
  keeps : ∃ call, world.calls id = some call ∧ Keeps port call

/-- Every honest step keeps a server to its port. -/
theorem Settled.move {move : ServerMove} (settled : Settled port id before)
    (honest : Honest before move) (stepped : step before move = some after) : Settled port id after := by
  refine ⟨settled.ranged.step honest stepped, ?_⟩
  obtain ⟨call, now, keeps⟩ := settled.keeps
  cases move with
  | initEngine =>
    obtain rfl := Option.some.inj stepped
    exact ⟨call, now, keeps⟩
  | issue command =>
    obtain rfl := Option.some.inj stepped
    have apart : id ≠ before.issued := by
      rintro rfl
      rw [settled.ranged.fresh before.issued (Nat.le_refl _)] at now
      cases now
    exact ⟨call, (Function.update_of_ne apart ..).trans now, keeps⟩
  | call other choice =>
    by_cases same : id = other
    · subst same
      obtain ⟨command, stage⟩ := call
      obtain rfl : command = .start := keeps.command
      simp only [step, now] at stepped
      exact keeps.start now honest stepped
    · exact ⟨call, (call_others stepped same).trans now, keeps⟩

/-- In every run from there it has that port, if it has any. -/
theorem Settled.bound {world : FfiServer} {other : UInt16} (settled : Settled port id before)
    (path : Machine.Reaches step Honest before world) (bound : world.boundPort id = some other) :
    other = port := by
  have last : Settled port id world :=
    path.invariant settled fun _ _ _ settled honest stepped => settled.move honest stepped
  obtain ⟨call, now, keeps⟩ := last.keeps
  exact keeps.bound other ((boundPort_eq now).symm.trans bound)

/-- A start that chooses a port asks the network for none yet. -/
theorem honest_choosing {network : ServerChoice} (choosing : before.calls id = some ⟨.start, .choosing⟩) :
    Honest before (.call id network) := by
  intro asked wants
  rw [choosing] at wants
  cases wants

/-- The port that a server gets is the one that its start chose. -/
theorem chosen_of_bound {network : ServerChoice} {world : FfiServer} (ranged : Ranged before)
    (choosing : before.calls id = some ⟨.start, .choosing⟩)
    (picks : step before (.call id network) = some after)
    (path : Machine.Reaches step Honest after world) (bound : world.boundPort id = some port) :
    pickServerPort network.free = .ok port := by
  have later : Ranged after := ranged.step (honest_choosing choosing) picks
  -- a start that has failed keeps to any port, so it never gets one
  have failed {error : String} (now : after.calls id = some ⟨.start, .started (.error error)⟩) : False := by
    have keeps (other : UInt16) : Settled other id after :=
      ⟨later, _, now, keeps_portless other (fun same => by cases same) rfl rfl⟩
    have zero := (keeps 0).bound path bound
    have one := (keeps 1).bound path bound
    rw [zero] at one
    exact absurd one (by decide)
  simp only [step, choosing, startServer] at picks
  split at picks
  · split at picks
    · rename_i chosen picked
      obtain rfl := Option.some.inj picks
      have settled : Settled chosen id (before.goTo id .start (.binding chosen)) := by
        refine ⟨later, _, Function.update_self .., rfl, (fun same => by cases same), ?_, ?_⟩
        · rintro other ⟨⟩
          rfl
        · rintro other ⟨⟩
      rw [picked, settled.bound path bound]
    · obtain rfl := Option.some.inj picks
      exact (failed (Function.update_self ..)).elim
  · obtain rfl := Option.some.inj picks
    exact (failed (Function.update_self ..)).elim

end

/-! ## The request of a payload -/

/-- The request of the peer has this token and this expiry. -/
def Waits (peer : Uuid) (token : String) (expiresAt : Int) (pairing : PairingStateMachine) : Prop :=
  ∃ request, pairing.get peer = some request ∧ request.token = token ∧ request.expiresAt = expiresAt

section

variable {peer : Uuid} {token : String} {expiresAt : Int} {pairing : PairingStateMachine}

/-- A call that registers no new request for the peer keeps both. -/
theorem Waits.apply {call : PairingCall} (waits : Waits peer token expiresAt pairing)
    (other : ¬call.creates peer) : Waits peer token expiresAt (pairing.apply call) := by
  obtain ⟨request, found, same, expires⟩ := waits
  have move := pairing.apply_move call peer
  rw [found] at move
  generalize reached : (pairing.apply call).get peer = next at move
  cases move with
  | created _ name token ttl op => exact absurd ⟨name, token, ttl, op⟩ other
  | kept | presented | expired | decided => exact ⟨_, reached, same, expires⟩

/-- So does every sequence of such calls. -/
theorem Waits.after {calls : List PairingCall} (waits : Waits peer token expiresAt pairing)
    (others : ∀ call ∈ calls, ¬call.creates peer) :
    Waits peer token expiresAt (pairing.after calls) := by
  induction calls generalizing pairing with
  | nil => exact waits
  | cons call rest ih =>
    obtain ⟨first, later⟩ := List.forall_mem_cons.mp others
    exact ih (waits.apply first) later

/-- The token of a request is refused exactly when the request is expired. -/
theorem Waits.presentToken (waits : Waits peer token expiresAt pairing) (now : Int) :
    (pairing.presentToken now peer token).1 = .ok () ↔ now < expiresAt := by
  obtain ⟨request, found, rfl, rfl⟩ := waits
  have right : tokensMatch request.token request.token = true := (tokensMatch_eq_true _ _).mpr rfl
  have stored : pairing.requests peer = some request := found
  unfold PairingStateMachine.presentToken PairingRequest.isExpired
  rw [stored]
  by_cases late : request.expiresAt ≤ now
  · simp [late]
  · simp [late, right, Int.not_le.mp late]

end

/-! ## What the payload says and what holds -/

/-- The payload names the port of the server and the token of the peer's request, and whenever its expiry
is still to come the token is accepted, whatever was done to the request in between. -/
structure Describes (world : FfiServer) (server : Nat) (peer : Uuid) (payload : QrPairingPayload)
    (pairing : PairingStateMachine) : Prop where
  port : world.boundPort server = some payload.port
  token : ∃ request, pairing.get peer = some request ∧ request.token = payload.token
  valid : ∀ calls : List PairingCall, (∀ call ∈ calls, ¬call.creates peer) →
    ∀ now, now < payload.expiresAt →
      ((pairing.after calls).presentToken now peer payload.token).1 = .ok ()

/-- What `pair_device` registers. -/
theorem waits_pairDevice (engine : PairingEngine) (choice : PairChoice) (peer : Uuid) (name : String) :
    Waits peer choice.token (i64Add choice.created 300) (engine.pairDevice choice peer name).2.2 :=
  ⟨_, PairingStateMachine.get_insert_self .., rfl, rfl⟩

/-- A payload describes the server exactly when the server got the default port and the second clock
reading gives no later expiry than the first one. -/
theorem describes_iff_bound (world : FfiServer) (server : Nat) (engine : PairingEngine) (choice : PairChoice)
    (peer : Uuid) (name : String) :
    Describes world server peer (engine.pairDevice choice peer name).1
        (engine.pairDevice choice peer name).2.2 ↔
      world.boundPort server = some defaultPort ∧
        i64Add choice.returned 300 ≤ i64Add choice.created 300 := by
  have waits := waits_pairDevice engine choice peer name
  constructor
  · intro describes
    refine ⟨describes.port, ?_⟩
    by_contra later
    -- at the moment the request expires, the payload still promises some time
    have inTime : i64Add choice.created 300 < i64Add choice.returned 300 := Int.not_le.mp later
    have accepted := describes.valid [] nofun (i64Add choice.created 300) inTime
    have soon := (waits.presentToken _).mp accepted
    omega
  · rintro ⟨bound, noLater⟩
    refine ⟨bound, ?_, fun calls others now inTime => ?_⟩
    · obtain ⟨request, found, same, -⟩ := waits
      exact ⟨request, found, same⟩
    · have before : now < i64Add choice.created 300 := Int.lt_of_lt_of_le inTime noLater
      exact ((waits.after others).presentToken now).mpr before

/-- In every run, of any calls beside each other: a payload describes a server that was started exactly when
the default port was free as its start looked for one, and the second clock reading gives no later expiry
than the first one. -/
theorem describes_iff {choosing picked world : FfiServer} {server : Nat} {network : ServerChoice}
    (path : Machine.Reaches step Honest .new choosing)
    (now : choosing.calls server = some ⟨.start, .choosing⟩)
    (picks : step choosing (.call server network) = some picked)
    (more : Machine.Reaches step Honest picked world) (live : world.spawned server = true)
    (engine : PairingEngine) (choice : PairChoice) (peer : Uuid) (name : String) :
    Describes world server peer (engine.pairDevice choice peer name).1
        (engine.pairDevice choice peer name).2.2 ↔
      defaultPort ∈ network.free ∧ i64Add choice.returned 300 ≤ i64Add choice.created 300 := by
  have reached := (path.tail ⟨_, honest_choosing now, picks⟩).trans more
  have ported := (ranged_reached reached).spawned server live
  obtain ⟨port, bound⟩ := Option.isSome_iff_exists.mp ported
  have chosen := chosen_of_bound (ranged_reached path) now picks more bound
  have default := (pickServerPort_default chosen).2.2
  rw [describes_iff_bound, bound, Option.some.injEq, default]

/-! ## A server that is started alone -/

/-- The peer of the sample. -/
def samplePeer : Uuid := ⟨0x6f1c2b9a4d3e4f5a8b7c6d5e4f3a2b1c⟩

/-- An engine without pairing requests. -/
def sampleEngine : PairingEngine := ⟨⟨7⟩, "desk", .new⟩

/-- A call whose two looks at the clock give the same second. -/
def sampleChoice : PairChoice := ⟨"token", 1758150000, ["192.168.1.42"], 1758150000⟩

/-- The network when one port is free. -/
def onlyFree (port : UInt16) : ServerChoice :=
  ⟨[port], .ok (), .ok ⟨"0.0.0.0", port⟩, ["192.168.1.42"]⟩

/-- A server that is started alone is spawned on the port that is free. -/
theorem started_runs {port : UInt16} (either : port = 53317 ∨ port = 53318) :
    ∃ choosing picked world, Machine.Reaches step Honest .new choosing ∧
      choosing.calls 0 = some ⟨.start, .choosing⟩ ∧
      step choosing (.call 0 (onlyFree port)) = some picked ∧
      Machine.Reaches step Honest picked world ∧ world.spawned 0 = true ∧
      world.boundPort 0 = some port := by
  have runs : ((Machine.run step Honest [.initEngine, .issue .start] .new).bind fun choosing =>
      (step choosing (.call 0 (onlyFree port))).bind fun picked =>
        (Machine.run step Honest (List.replicate 4 (.call 0 (onlyFree port))) picked).map fun world =>
          decide (choosing.calls 0 = some ⟨.start, .choosing⟩ ∧ world.spawned 0 = true ∧
            world.boundPort 0 = some port)) = some true := by
    rcases either with rfl | rfl
    · decide +kernel
    · decide +kernel
  obtain ⟨choosing, first, runs⟩ := Option.bind_eq_some_iff.mp runs
  obtain ⟨picked, picks, runs⟩ := Option.bind_eq_some_iff.mp runs
  obtain ⟨world, last, facts⟩ := Option.map_eq_some_iff.mp runs
  obtain ⟨now, spawned, bound⟩ := of_decide_eq_true facts
  exact ⟨choosing, picked, world, Machine.reaches_of_run first, now, picks, Machine.reaches_of_run last,
    spawned, bound⟩

/-- With the default port free, and both looks at the clock in one second, the payload is right. -/
theorem describes_iff_free : ∃ world, Machine.Reaches step Honest .new world ∧ world.spawned 0 = true ∧
    Describes world 0 samplePeer (sampleEngine.pairDevice sampleChoice samplePeer "phone").1
      (sampleEngine.pairDevice sampleChoice samplePeer "phone").2.2 := by
  obtain ⟨choosing, picked, world, path, now, picks, more, spawned, -⟩ := started_runs (.inl rfl)
  have reached := (path.tail ⟨_, honest_choosing now, picks⟩).trans more
  have right := describes_iff path now picks more spawned sampleEngine sampleChoice samplePeer "phone"
  exact ⟨world, reached, spawned, right.mpr ⟨List.mem_singleton_self _, Int.le_refl _⟩⟩

/-- With the next port free only, the server listens there, and the payload names the default one. -/
theorem describes_broken : ¬∀ world server (engine : PairingEngine) (choice : PairChoice) peer name,
    Machine.Reaches step Honest .new world → world.spawned server = true →
      Describes world server peer (engine.pairDevice choice peer name).1
        (engine.pairDevice choice peer name).2.2 := by
  intro always
  obtain ⟨choosing, picked, world, path, now, picks, more, spawned, bound⟩ := started_runs (.inr rfl)
  have reached := (path.tail ⟨_, honest_choosing now, picks⟩).trans more
  have describes := always world 0 sampleEngine sampleChoice samplePeer "phone" reached spawned
  have named := describes.port
  rw [bound] at named
  cases named

end FileDrop.LivePayload
