import FileDrop.Flutter.SendFlow
import FileDrop.Verif.LastCommand

/-!
# Searching while a device is selected

What the screen allows makes the calls of discovery come as starts that each are followed by a stop, with
a start last exactly while the flow is at the selection of a device. So if every call has returned before
the user goes on, no service is ever lost: one is running at that stage, and none at any other. The views
are not the stages: the first view lists devices too, and a transfer that starts hides the view of every
stage.
-/
namespace FileDrop.Flutter.Searching
open FileDrop FfiDiscovery LastCommand Slot

/-! ## The calls that the app makes -/

/-- What a call of discovery does to whether a device is being selected. -/
def Turns (before after : SendApp) : Option DiscoveryCommand → Prop
  | none => after.flow.stage = .deviceSelectSend ↔ before.flow.stage = .deviceSelectSend
  | some (.start _) => before.flow.stage ≠ .deviceSelectSend ∧ after.flow.stage = .deviceSelectSend
  | some .stop => after.flow.stage ≠ .deviceSelectSend

variable {selfDevice : DiscoveredDevice} {before after : SendApp} {command : Option DiscoveryCommand}

/-- Going back makes the call that fits the stages. -/
theorem turns_back (app : SendApp) (shown : app.flow.stage ≠ .idle) :
    Turns app { app with flow := back app.flow } (backCommand selfDevice app.flow) := by
  cases stage : app.flow.stage with
  | idle => exact absurd stage shown
  | receiveMode | filePicker =>
    simp [Turns, back, backCommand, stage, HomeFlowState.initial]
  | deviceSelectSend =>
    simp [Turns, back, backCommand, stage, maybeStopDiscovery, HomeFlowState.copyWith]
  | confirmSend => simp [Turns, back, backCommand, stage, HomeFlowState.copyWith]

/-- So does a call of `sendFiles` that completes. -/
theorem turns_completed {place : Nat} {returned : Bool}
    (completed : before.sendCompleted place returned = some (after, command)) :
    Turns before after command := by
  obtain ⟨call, -, same⟩ := Option.map_eq_some_iff.mp completed
  split at same
  · rename_i mine
    obtain ⟨rfl, rfl⟩ := Prod.mk.inj same
    have confirming := ((before.eq_shown_iff call.view).mp mine.2).2.1
    simp [Turns, maybeStopDiscovery, confirming, reset, HomeFlowState.initial]
  · obtain ⟨rfl, rfl⟩ := Prod.mk.inj same
    exact Iff.rfl

/-- So does every move that the screen allows. -/
theorem turns_step {move : SendMove} (onScreen : before.onScreen move)
    (stepped : before.step selfDevice move = some (after, command)) : Turns before after command := by
  cases move with
  | startSend | startReceive =>
    cases stepped
    have idle := ((before.view_eq_iff .idle).mp onScreen).2
    simp [Turns, startSend, startReceive, HomeFlowState.copyWith, idle]
  | pick filePaths =>
    cases stepped
    have picking := ((before.view_eq_iff .filePicker).mp onScreen.1).2
    simp [Turns, filesPicked, HomeFlowState.copyWith, picking]
  | select device =>
    cases stepped
    simp [Turns, deviceSelected, HomeFlowState.copyWith]
  | back =>
    cases stepped
    exact turns_back before (SendApp.stage_ne_idle onScreen)
  | send =>
    obtain ⟨next, sent, same⟩ := Option.map_eq_some_iff.mp stepped
    obtain ⟨rfl, rfl⟩ := Prod.mk.inj same
    obtain ⟨device, -, rfl⟩ := Option.map_eq_some_iff.mp sent
    exact Iff.rfl
  | complete place returned => exact turns_completed stepped
  | event event =>
    cases stepped
    exact Iff.rfl
  | receive state =>
    cases stepped
    exact Iff.rfl

/-! ## The calls one after the other -/

/-- What the slot holds while the latest call is where it is. -/
def Latest (listed : Prop) (discovery : Option Nat) (id : Nat) : DiscoveryCall → Prop
  | ⟨.start _, .spawning⟩ | ⟨.start _, .returned (.ok ())⟩ => listed ∧ discovery = some id
  | ⟨.start _, _⟩ => listed ∧ discovery = none
  | ⟨.stop, .taking⟩ => ¬listed
  | ⟨.stop, _⟩ => ¬listed ∧ discovery = none

/-- No service is lost, and only the latest call may still be under way. -/
structure Tidy (listed : Prop) (world : FfiDiscovery) : Prop where
  sound : Sound world
  kept : kept world.accesses = world.discovery.toList
  earlier : ∀ id, id + 1 < world.issued → ∃ command, world.calls id = some ⟨command, .returned (.ok ())⟩
  unused : world.issued = 0 → ¬listed ∧ world.discovery = none
  latest : ∀ id, world.issued = id + 1 → ∃ call, world.calls id = some call ∧
    Latest listed world.discovery id call

variable {listed : Prop} {host : DiscoveryHost} {world next : FfiDiscovery}

/-- A call that is under way is the latest. -/
theorem Tidy.is_latest (tidy : Tidy listed world) {id : Nat} {call : DiscoveryCall}
    (now : world.calls id = some call) (busy : call.stage ≠ .returned (.ok ())) :
    world.issued = id + 1 ∧ Latest listed world.discovery id call := by
  have issued := tidy.sound.lt_issued now
  have last : world.issued = id + 1 := by
    by_contra more
    obtain ⟨command, returned⟩ := tidy.earlier id (by omega)
    rw [now, Option.some.injEq] at returned
    subst returned
    exact busy rfl
  obtain ⟨found, there, latest⟩ := tidy.latest id last
  rw [now, Option.some.injEq] at there
  subst there
  exact ⟨last, latest⟩

/-- When every call has returned, the slot holds a service exactly while a device is being selected. -/
theorem Tidy.settled (tidy : Tidy listed world) (settled : Settled world) :
    (listed → ∃ id, world.discovery = some id) ∧ (¬listed → world.discovery = none) := by
  cases issued : world.issued with
  | zero =>
    obtain ⟨hidden, none⟩ := tidy.unused issued
    exact ⟨fun shown => absurd shown hidden, fun _ => none⟩
  | succ id =>
    obtain ⟨command, returned⟩ := settled id (by omega)
    obtain ⟨call, now, latest⟩ := tidy.latest id issued
    rw [now, Option.some.injEq] at returned
    subst returned
    cases command with
    | start selfDevice => exact ⟨fun _ => ⟨id, latest.2⟩, fun hidden => absurd latest.1 hidden⟩
    | stop => exact ⟨fun shown => absurd shown latest.1, fun _ => latest.2⟩

/-- The latest call goes on. -/
theorem Tidy.goesOn (tidy : Tidy listed world) (sound : Sound next) {id : Nat} {call : DiscoveryCall}
    (last : world.issued = id + 1) (calls : next.calls = Function.update world.calls id (some call))
    (issued : next.issued = world.issued) (kept : Slot.kept next.accesses = next.discovery.toList)
    (latest : Latest listed next.discovery id call) : Tidy listed next where
  sound := sound
  kept := kept
  earlier other before := by
    have apart : other ≠ id := by omega
    rw [calls, Function.update_of_ne apart]
    exact tidy.earlier other (by omega)
  unused none := by omega
  latest other same := by
    obtain rfl : other = id := by omega
    exact ⟨call, by rw [calls, Function.update_self], latest⟩

/-- A step inside a service changes nothing here. -/
theorem Tidy.service (tidy : Tidy listed world) {id : Nat} {service : DiscoveryService}
    (sound : Sound (world.setService id service)) : Tidy listed (world.setService id service) :=
  ⟨sound, tidy.kept, tidy.earlier, tidy.unused, tidy.latest⟩

/-- Only the app issues calls. -/
theorem issued_eq {move : FfiDiscoveryMove} (stepped : world.step host move = some next)
    (going : ∀ command, move ≠ .issue command) : next.issued = world.issued := by
  cases step_cases stepped with
  | issue command => exact absurd rfl (going command)
  | start | store | spawn | takeNone | take | release | serviceStart | serviceStop | task => rfl

/-- A step of the FFI keeps the calls tidy. -/
theorem Tidy.step (tidy : Tidy listed world) {move : FfiDiscoveryMove}
    (stepped : world.step host move = some next) (going : ∀ command, move ≠ .issue command) :
    Tidy listed next := by
  have sound : Sound next := sound_step tidy.sound stepped
  have issued := issued_eq stepped going
  cases step_cases stepped with
  | issue command =>
    simp only at issued
    omega
  | start id selfDevice stage after now kind =>
    have busy : stage ≠ .returned (.ok ()) := by
      rintro rfl
      rcases kind with ⟨other, -⟩ | ⟨other, -⟩
      · cases other
      · cases other
    obtain ⟨last, latest⟩ := tidy.is_latest now busy
    refine tidy.goesOn sound last rfl issued tidy.kept ?_
    rcases kind with ⟨rfl, rfl | ⟨text, rfl⟩⟩ | ⟨rfl, ⟨rfl, -⟩ | ⟨text, rfl⟩⟩
    · exact latest
    · exact latest
    · exact latest
    · exact latest
  | store id selfDevice now free =>
    obtain ⟨last, latest⟩ := tidy.is_latest now (by simp)
    obtain ⟨shown, empty⟩ : listed ∧ world.discovery = none := latest
    refine tidy.goesOn sound last rfl issued ?_ ⟨shown, rfl⟩
    have none := tidy.kept
    rw [empty, Option.toList_none] at none
    show Slot.kept (.stored id :: world.accesses) = [id]
    simp only [Slot.kept, none]
  | spawn id selfDevice now =>
    obtain ⟨last, latest⟩ := tidy.is_latest now (by simp)
    exact tidy.goesOn sound last rfl issued tidy.kept latest
  | takeNone id now free empty =>
    obtain ⟨last, latest⟩ := tidy.is_latest now (by simp)
    refine tidy.goesOn sound last rfl issued ?_ ⟨latest, empty⟩
    have nothing : content world.accesses = none := tidy.sound.slot.symm.trans empty
    show Slot.kept (.taken :: world.accesses) = world.discovery.toList
    rw [kept_taken_empty nothing, tidy.kept]
  | take id service now free there =>
    obtain ⟨last, latest⟩ := tidy.is_latest now (by simp)
    refine tidy.goesOn sound last rfl issued ?_ ⟨latest, rfl⟩
    have held : content world.accesses = some service := tidy.sound.slot.symm.trans there
    have only := kept_taken held
    rw [tidy.kept, there, Option.toList_some] at only
    exact (List.cons.inj only).2.symm
  | release id service now finished =>
    obtain ⟨last, latest⟩ := tidy.is_latest now (by simp)
    exact tidy.goesOn sound last rfl issued tidy.kept latest
  | serviceStart id selfDevice service now same => exact tidy.service sound
  | serviceStop id stopped service now same => exact tidy.service sound
  | task id service start stop => exact tidy.service sound

/-- A call that is issued when all others have returned. -/
theorem Tidy.issue {wasListed : Prop} {command : DiscoveryCommand} (tidy : Tidy wasListed world)
    (settled : Settled world) (stepped : world.step host (.issue command) = some next)
    (turns : match command with
      | .start _ => ¬wasListed ∧ listed
      | .stop => ¬listed) : Tidy listed next := by
  have sound : Sound next := sound_step tidy.sound stepped
  obtain rfl := Option.some.inj stepped
  refine ⟨sound, tidy.kept, fun id before => ?_, fun none => ?_, fun id last => ?_⟩
  · have earlier : id < world.issued := Nat.lt_of_succ_lt_succ before
    have apart : id ≠ world.issued := Nat.ne_of_lt earlier
    obtain ⟨command, returned⟩ := settled id earlier
    exact ⟨command, by simp only [Function.update_of_ne apart, returned]⟩
  · exact absurd none (Nat.succ_ne_zero _)
  · obtain rfl : world.issued = id := Nat.succ.inj last
    refine ⟨_, Function.update_self .., ?_⟩
    cases command with
    | start selfDevice => exact ⟨turns.2, (tidy.settled settled).2 turns.1⟩
    | stop => exact turns

/-! ## The system -/

/-- The screen allows it, and a call is only made when all others have returned without an error. Calls
come from the app alone. -/
def Patient (selfDevice : DiscoveredDevice) (system : SendSystem) : SystemMove → Prop
  | .app move => system.app.onScreen move ∧ ∀ app command,
      system.app.step selfDevice move = some (app, some command) → Settled system.world
  | .ffi move => ∀ command, move ≠ .issue command

/-- The calls are tidy, as far as a device is being selected. -/
def TidySystem (system : SendSystem) : Prop :=
  Tidy (system.app.flow.stage = .deviceSelectSend) system.world

/-- A step keeps them so. -/
theorem tidy_step {system after : SendSystem} {move : SystemMove} (tidy : TidySystem system)
    (patient : Patient selfDevice system move) (stepped : system.step host selfDevice move = some after) :
    TidySystem after := by
  cases move with
  | app move =>
    obtain ⟨⟨app, command⟩, moved, issued⟩ := Option.bind_eq_some_iff.mp stepped
    obtain ⟨world, called, rfl⟩ := Option.map_eq_some_iff.mp issued
    have turns := turns_step patient.1 moved
    cases command with
    | none =>
      obtain rfl := Option.some.inj called
      have same : (app.flow.stage = .deviceSelectSend) = (system.app.flow.stage = .deviceSelectSend) :=
        propext turns
      rw [TidySystem, same]
      exact tidy
    | some command =>
      have stepped : system.world.step host (.issue command) = some world := called
      refine Tidy.issue tidy (patient.2 app command moved) stepped ?_
      cases command with
      | start | stop => exact turns
  | ffi move =>
    obtain ⟨world, moved, rfl⟩ := Option.map_eq_some_iff.mp stepped
    exact Tidy.step tidy moved patient

/-- The user picks a file, and the start of discovery returns. -/
def sampleMoves : List SystemMove :=
  [.app .startSend, .app (.pick ["/storage/photo.jpg"])] ++ List.replicate 17 (.ffi (.call 0 none))

end FileDrop.Flutter.Searching
