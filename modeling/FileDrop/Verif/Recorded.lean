import FileDrop.Foundation.Beside
import FileDrop.Storage.History
import FileDrop.Verif.Parallel

/-!
# Records of transfers

Both sides are to record a transfer in the history store when it completes. The store is there, beside
the sends and the uploads, and is read when the history is shown, but nothing adds to it: in every run
it holds what it was loaded with. So the history is complete as long as the transfers that end had
their records before.
-/
namespace FileDrop.Recorded
open FileDrop Effects Effects.Program Unix Sending Parallel

variable {κ χ ρ η Net Choice : Type}

/-! ## An engine and its history -/

/-- The actors of a device, and calls of `get_transfer_history`. -/
abbrev Recording (κ χ ρ η Net : Type) : Type :=
  Pool (Actor κ χ ρ ⊕ η) (deviceSig.sum historySig) (Sending.Tracked κ Net × HistoryWorld)
    (Ended ⊕ List TransferRecord)

/-- Readers of a store. -/
def readers (η : Type) (store : HistoryWorld) :
    Pool η historySig HistoryWorld (List TransferRecord) where
  world := store
  threads _ := HistoryStore.list

/-- A device that has done nothing yet, with its history loaded. -/
def opened (usage : Usage κ χ ρ) (net : Net) (files : FileStore Path) (store : HistoryWorld) :
    Recording κ χ ρ η Net :=
  (start usage net files).beside (readers η store)

/-- The operations of a device and of its store. -/
def recording (network : Meaning netSig Net Choice) : Actor κ χ ρ ⊕ η →
    Meaning (deviceSig.sum historySig) (Sending.Tracked κ Net × HistoryWorld)
      (DeviceChoice Choice × HistoryChoice) :=
  beside (track network) fun _ => historyExec

/-! ## A complete history -/

/-- A record of a transfer. -/
def HasRecord (records : Records) (id : Uuid) (outgoing : Bool) (ends : TransferRecordStatus → Prop) :
    Prop :=
  ∃ record, records.get id = some record ∧ record.outgoing = outgoing ∧ ends record.status

/-- A send that has ended has its record: completed, or else failed or cancelled. -/
def EventRecorded (records : Records) : FileDropEvent → Prop
  | .transferCompleted id _ => HasRecord records id true (· = .completed)
  | .transferFailed id _ => HasRecord records id true (· ≠ .completed)
  | .transferStarted .. | .transferPaused _ => True

/-- An upload that was answered with 200 has its record. -/
def ReplyRecorded (records : Records) (id : Uuid) : Option Response → Prop
  | some response => response.status = 200 → HasRecord records id false (· = .completed)
  | none => True

/-- Every send that has ended and every upload that has completed has its record. A store never has two
records of one id. -/
structure Complete (usage : Usage κ χ ρ) (pool : Recording κ χ ρ η Net) : Prop where
  sent : ∀ event ∈ pool.world.1.device.engine.events, EventRecorded pool.world.2.records event
  received : ∀ n reply, pool.threads (.inl (.upload n)) = .done (.inl (.upload reply)) →
    ReplyRecorded pool.world.2.records (usage.uploads n).transferId reply

/-- The transfer that a step ends, if it ends one, has its record among these. -/
def Foreseen (usage : Usage κ χ ρ) (network : Meaning netSig Net Choice) (loaded : Records)
    (pool : Recording κ χ ρ η Net) (i : Actor κ χ ρ ⊕ η) (choice : DeviceChoice Choice × HistoryChoice) :
    Prop :=
  ∀ actor op next result world, i = .inl actor → pool.threads i = .perform (.inl op) next →
    track network actor pool.world.1 op choice.1 = some (result, world) →
    (∀ event ∈ op.emits, EventRecorded loaded event) ∧
      ∀ n reply, actor = .upload n → next result = .done (.inl (.upload reply)) →
        ReplyRecorded loaded (usage.uploads n).transferId reply

/-! ## Nothing is recorded -/

/-- The operations of a reader. -/
def reads : HistoryOp → Bool
  | .snapshot => true
  | _ => false

/-- A reader changes nothing. -/
theorem read_keeps {store after : HistoryWorld} {op : HistoryOp} {choice : HistoryChoice}
    {result : op.Result} (reader : reads op = true)
    (ran : historyExec store op choice = some (result, after)) : after = store := by
  cases op with
  | snapshot =>
    simp only [historyExec] at ran
    split at ran
    · exact (Prod.mk.inj (Option.some.inj ran)).2.symm
    · cases ran
  | insert | clear | file => cases reader

/-- An upload that is answered at once is refused. -/
theorem refused_recorded {usage : Usage κ χ ρ} {n : ρ} {reply : Option Response} {records : Records}
    (returned : usage.program (.upload n) = .done (.upload reply)) :
    ReplyRecorded records (usage.uploads n).transferId reply := by
  simp only [Usage.program, receiveUpload, receiveTransfer] at returned
  split at returned
  · cases returned
    trivial
  · rename_i response refused
    cases returned
    intro complete
    have bad := acceptRequest_error refused
    omega
  · cases returned

section

variable [DecidableEq η]

/-- Readers leave the store as it is. -/
theorem readers_keep {store : HistoryWorld} {reached : Pool η historySig HistoryWorld (List TransferRecord)}
    (path : Pool.Reaches (fun _ => historyExec) (fun _ _ _ => True) (readers η store) reached) :
    reached.world = store := by
  induction path with
  | refl => rfl
  | @tail middle _ rest last ih =>
    obtain ⟨n, choice, -, stepped⟩ := last
    have only : (middle.threads n).Only reads :=
      Pool.reaches_keeps (fun _ _ result now => now.2 result) rest ⟨rfl, fun _ => trivial⟩
    obtain ⟨op, next, result, world, waiting, ran, rfl⟩ := Pool.step_cases stepped
    rw [waiting] at only
    exact (read_keeps only.1 ran).trans ih

end

section

variable [DecidableEq κ] [DecidableEq χ] [DecidableEq ρ] [DecidableEq η]
variable {usage : Usage κ χ ρ} {network : Meaning netSig Net Choice} {net : Net}
variable {files : FileStore Path} {store : HistoryWorld} {before after : Recording κ χ ρ η Net}
variable {allowed : Recording κ χ ρ η Net → Actor κ χ ρ ⊕ η →
  DeviceChoice Choice × HistoryChoice → Prop}

/-- In every run the history is what was loaded. -/
theorem records_keep
    (path : Pool.Reaches (recording network) allowed (opened usage net files store) after) :
    after.world.2 = store := by
  obtain ⟨device, history, rfl, -, read⟩ := Pool.reaches_beside path
  exact readers_keep read

variable {choice : DeviceChoice Choice × HistoryChoice}

/-- A step on the history ends no transfer. -/
theorem reader_step {n : η} (same : after.world.2.records = before.world.2.records)
    (stepped : before.step (recording network) (.inr n) choice = some after)
    (complete : Complete usage before) : Complete usage after := by
  obtain ⟨op, next, result, world, waiting, ran, rfl⟩ := Pool.step_cases stepped
  have device : world.1 = before.world.1 := by
    cases op with
    | inl op => cases ran
    | inr op =>
      obtain ⟨⟨_, moved⟩, -, rest⟩ := Option.map_eq_some_iff.mp ran
      rw [← (Prod.mk.inj rest).2]
  refine ⟨fun event emitted => ?_, fun m reply returned => ?_⟩
  · rw [same]
    refine complete.sent event ?_
    rw [← device]
    exact emitted
  · rw [same]
    have other : (.inl (.upload m) : Actor κ χ ρ ⊕ η) ≠ .inr n := nofun
    simp only [Function.update_of_ne other] at returned
    exact complete.received m reply returned

/-- A step of the device keeps the history complete exactly if the transfer it ends has its record. -/
theorem device_step {actor : Actor κ χ ρ}
    (stepped : before.step (recording network) (.inl actor) choice = some after)
    (complete : Complete usage before) :
    Complete usage after ↔
      Foreseen usage network before.world.2.records before (.inl actor) choice := by
  obtain ⟨op, next, result, world, waiting, ran, rfl⟩ := Pool.step_cases stepped
  cases op with
  | inr op => cases ran
  | inl op =>
    obtain ⟨⟨_, moved⟩, performed, rest⟩ := Option.map_eq_some_iff.mp ran
    obtain ⟨rfl, rfl⟩ := Prod.mk.inj rest
    have emitted := deviceExec_events (track_device performed)
    constructor
    · rintro whole _ op' next' result' world' ⟨⟩ waits again
      obtain ⟨sameOp, sameNext⟩ := Program.perform.inj (waiting.symm.trans waits)
      obtain rfl := Sum.inl.inj sameOp
      obtain rfl := eq_of_heq sameNext
      obtain ⟨rfl, rfl⟩ := Prod.mk.inj (Option.some.inj (performed.symm.trans again))
      refine ⟨fun event new => ?_, fun n reply mine returned => ?_⟩
      · refine whole.sent event ?_
        show event ∈ moved.device.engine.events
        rw [emitted]
        exact List.mem_append_right _ new
      · subst mine
        exact whole.received n reply (by simpa only [Function.update_self] using returned)
    · intro foreseen
      obtain ⟨events, replies⟩ := foreseen actor op next _ moved rfl waiting performed
      refine ⟨fun event member => ?_, fun n reply returned => ?_⟩
      · have member : event ∈ moved.device.engine.events := member
        rw [emitted] at member
        rcases List.mem_append.mp member with old | new
        · exact complete.sent event old
        · exact events event new
      · by_cases mine : actor = .upload n
        · subst mine
          simp only [Function.update_self] at returned
          exact replies n reply rfl returned
        · have other : (.inl (.upload n) : Actor κ χ ρ ⊕ η) ≠ .inl actor :=
            fun same => mine (Sum.inl.inj same).symm
          simp only [Function.update_of_ne other] at returned
          exact complete.received n reply returned

/-- In every run in which the transfers that end had their records in the history that was loaded, the
history is complete in every state reached. A further step keeps it so exactly if the transfer that the
step ends had its record there. -/
theorem history_complete
    (path : Pool.Reaches (recording network) (Foreseen usage network store.records)
      (opened usage net files store) before) :
    Complete usage before ∧ ∀ i choice after, before.step (recording network) i choice = some after →
      (Complete usage after ↔ Foreseen usage network store.records before i choice) := by
  have exact {pool later : Recording κ χ ρ η Net} {i choice}
      (rest : Pool.Reaches (recording network) (Foreseen usage network store.records)
        (opened usage net files store) pool) (complete : Complete usage pool)
      (stepped : pool.step (recording network) i choice = some later) :
      Complete usage later ↔ Foreseen usage network store.records pool i choice := by
    have loaded := records_keep rest
    cases i with
    | inl actor =>
      rw [← loaded]
      exact device_step stepped complete
    | inr n =>
      have free := Pool.reaches_mono (fun _ _ _ _ => trivial) rest
      have kept := records_keep (free.tail ⟨.inr n, choice, trivial, stepped⟩)
      have same : later.world.2.records = pool.world.2.records := by rw [kept, loaded]
      exact iff_of_true (reader_step same stepped complete) fun _ _ _ _ _ reader => nomatch reader
  have complete : Complete usage before := by
    induction path with
    | refl =>
      refine ⟨fun event emitted => (nomatch emitted), fun n reply returned => ?_⟩
      exact refused_recorded (Program.inl_eq_done.mp returned)
    | tail rest last ih =>
      obtain ⟨i, choice, foreseen, stepped⟩ := last
      exact (exact rest ih stepped).mpr foreseen
  exact ⟨complete, fun i choice after stepped => exact path complete stepped⟩

end

/-! ## A send -/

/-- A schedule of the sample device, beside a reader that waits. -/
def whileReading (schedule : List (Actor Unit Control Unit × DeviceChoice Unit)) :
    List ((Actor Unit Control Unit ⊕ Unit) × (DeviceChoice Unit × HistoryChoice)) :=
  schedule.map fun (i, choice) => (.inl i, (choice, ⟨[], .none⟩))

/-- The record of a send that was completed. -/
def sampleRecord : TransferRecord where
  id := ⟨7⟩
  fileName := "a"
  fileSizeBytes := 2
  peerDeviceId := ⟨1⟩
  peerName := "peer"
  outgoing := true
  status := .completed
  sha256 := none
  startedAt := 100
  completedAt := 200
  savedPath := none

/-- A history that has this record. -/
def sampleStore : HistoryWorld := ⟨.ofList [sampleRecord], .empty⟩

/-- A step that ends no transfer but this one. -/
def foreseenNow (pool : Recording Unit Control Unit Unit Unit) (i : Actor Unit Control Unit ⊕ Unit) : Bool :=
  match i, pool.threads i with
  | .inl (.upload _), _ => false
  | _, .perform (.inl op) _ => op.emits.all fun event =>
    match event with
    | .transferCompleted id _ => decide (id = ⟨7⟩)
    | .transferFailed .. => false
    | .transferStarted .. | .transferPaused _ => true
  | _, _ => true

/-- The transfer that such a step ends has its record. -/
theorem foreseen_now {pool : Recording Unit Control Unit Unit Unit} {i : Actor Unit Control Unit ⊕ Unit}
    {choice : DeviceChoice Unit × HistoryChoice} (now : foreseenNow pool i = true) :
    Foreseen sampleUsage sampleNetwork sampleStore.records pool i choice := by
  have recorded : sampleStore.records.get ⟨7⟩ = some sampleRecord := by decide
  rintro actor op next result world rfl waiting -
  cases actor with
  | upload n => cases now
  | call | task | control =>
    refine ⟨fun event emitted => ?_, nofun⟩
    simp only [foreseenNow, waiting, List.all_eq_true] at now
    have ends := now event emitted
    cases event with
    | transferStarted | transferPaused => trivial
    | transferFailed => cases ends
    | transferCompleted id digest =>
      obtain rfl := of_decide_eq_true ends
      exact ⟨sampleRecord, recorded, rfl, rfl⟩

/-- Whether a send has completed. -/
def hasCompleted (pool : Recording Unit Control Unit Unit Unit) : Bool :=
  pool.world.1.device.engine.events.any fun event =>
    match event with
    | .transferCompleted id _ => decide (id = ⟨7⟩)
    | _ => false

/-- A completed send has an event. -/
theorem completed_event {pool : Recording Unit Control Unit Unit Unit} (completed : hasCompleted pool = true) :
    ∃ digest, .transferCompleted ⟨7⟩ digest ∈ pool.world.1.device.engine.events := by
  obtain ⟨event, member, is⟩ := List.any_eq_true.mp completed
  cases event with
  | transferCompleted id digest =>
    obtain rfl := of_decide_eq_true is
    exact ⟨digest, member⟩
  | transferStarted | transferPaused | transferFailed => cases is

/-- A send that was in the history before completes. -/
theorem history_complete_again : ∃ reached digest,
    Pool.run (recording sampleNetwork) (fun pool i _ => foreseenNow pool i = true)
        (whileReading (callSteps ++ taskSteps ⟨7⟩ 16)) (opened sampleUsage () .empty sampleStore) =
          some reached ∧
      .transferCompleted ⟨7⟩ digest ∈ reached.world.1.device.engine.events ∧
      Complete sampleUsage reached := by
  have runs : (Pool.run (recording sampleNetwork) (fun pool i _ => foreseenNow pool i = true)
      (whileReading (callSteps ++ taskSteps ⟨7⟩ 16)) (opened sampleUsage () .empty sampleStore)).map
        hasCompleted = some true := by
    decide +kernel
  obtain ⟨reached, ran, completed⟩ := Option.map_eq_some_iff.mp runs
  obtain ⟨digest, event⟩ := completed_event completed
  have path : Pool.Reaches (recording sampleNetwork)
      (Foreseen sampleUsage sampleNetwork sampleStore.records)
      (opened sampleUsage () .empty sampleStore) reached :=
    Pool.reaches_mono (fun _ _ _ now => foreseen_now now) (Pool.reaches_of_run ran)
  exact ⟨reached, digest, ran, event, (history_complete path).1⟩

/-- A send completes on a device with no history, and there is no record of it. -/
theorem history_complete_broken :
    ¬∀ (usage : Usage Unit Control Unit) (network : Meaning netSig Unit Unit) (files : FileStore Path)
      (store : HistoryWorld) (reached : Recording Unit Control Unit Unit Unit),
      Pool.Reaches (recording network) (fun _ _ _ => True) (opened usage () files store) reached →
      Complete usage reached := by
  intro always
  have runs : (Pool.run (recording sampleNetwork) (fun _ _ _ => True)
      (whileReading (callSteps ++ taskSteps ⟨7⟩ 16)) (opened sampleUsage () .empty ⟨.empty, .empty⟩)).map
        hasCompleted = some true := by
    decide +kernel
  obtain ⟨reached, ran, completed⟩ := Option.map_eq_some_iff.mp runs
  obtain ⟨digest, event⟩ := completed_event completed
  have path := Pool.reaches_of_run ran
  obtain ⟨record, found, -⟩ := (always _ _ _ _ reached path).sent _ event
  rw [records_keep path] at found
  cases found

end FileDrop.Recorded
