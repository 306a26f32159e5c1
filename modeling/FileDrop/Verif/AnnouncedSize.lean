import FileDrop.Verif.Received
import FileDrop.Verif.Verified

/-!
# The size of a completed file

An upload is answered as complete when its offset and the bytes of its body add up to the announced
size. What is renamed to the final path is the staging file as it is then: one that was longer before is
not cut, and one that an empty body's offset lies outside of is not lengthened. So the file has the
announced size exactly when the staging file that the upload finds fits it.
-/
namespace FileDrop.AnnouncedSize
open FileDrop Effects Effects.Program Unix Resume Isolation Received

/-! ## What fits an upload -/

/-- The size that a request announces. -/
def announcedSize (request : TransferRequest) : Option UInt64 :=
  (request.headers.totalSize.bind HeaderValue.toStr).bind parseU64

/-- The bytes of a request's body. -/
def bodyLength (request : TransferRequest) : Nat := request.body.chunks.flatten.length

/-- A staging file of this length fits a request: the request starts over, or it ends the file with the
last of its bytes, or it has none and finds the file as long as its offset says. And the offset and the
bytes add up to a number of 64 bits. -/
def Fits (length : Nat) (request : TransferRequest) : Prop :=
  offset request + bodyLength request < 2 ^ 64 ∧
    (offset request = 0 ∨ 0 < bodyLength request ∧ length ≤ offset request + bodyLength request ∨
      bodyLength request = 0 ∧ length = offset request)

/-- The file that a request names has the size that it announces. -/
def HasAnnouncedSize (paths : StoragePaths) (request : TransferRequest) (world : ServerWorld) : Prop :=
  ∃ name size bytes, (request.headers.filename.bind HeaderValue.toStr).bind sanitizeFilename = some name ∧
    announcedSize request = some size ∧
    world.files.read (paths.receivedFilesDir ++ [name]) = some bytes ∧ bytes.length = size.toNat

/-- The length of what a complete upload has staged is what its offset and its body add up to exactly
when what was staged before fits. -/
theorem stagedWith_length_iff {upload : Upload} {request : TransferRequest} {before : Option Bytes}
    (resumes : upload.resumeOffset = (parseResumeOffset request.headers).getD 0)
    (counted : upload.resumeOffset + .ofNat request.body.chunks.flatten.length = upload.totalSize) :
    (stagedWith upload before request.body.chunks.flatten).length = upload.totalSize.toNat ↔
      Fits (before.getD []).length request := by
  have start : offset request = upload.resumeOffset.toNat := congrArg UInt64.toNat resumes.symm
  have total : upload.totalSize.toNat = (offset request + bodyLength request) % 2 ^ 64 := by
    rw [← counted, UInt64.toNat_add, UInt64.toNat_ofNat', start, bodyLength]
    omega
  have wraps : (offset request + bodyLength request) % 2 ^ 64 < 2 ^ 64 := Nat.mod_lt _ (by decide)
  by_cases fresh : upload.resumeOffset = 0
  · have zero : offset request = 0 := by
      rw [start, fresh]
      rfl
    have length : (stagedWith upload before request.body.chunks.flatten).length = bodyLength request := by
      rw [stagedWith_fresh fresh, bodyLength]
    rw [length, total, Fits]
    omega
  · have positive : offset request ≠ 0 := by
      intro zero
      exact fresh (UInt64.toNat_inj.mp (start.symm.trans zero))
    unfold stagedWith Fits
    rw [if_neg fresh]
    by_cases empty : request.body.chunks.flatten = []
    · have none : bodyLength request = 0 := by rw [bodyLength, empty, List.length_nil]
      have bound := upload.resumeOffset.toNat_lt
      rw [empty, overlay_nil, total]
      omega
    · have some : 0 < bodyLength request := List.length_pos_iff.mpr empty
      rw [overlay_length_of_ne_nil _ _ empty, ← start, total]
      change max _ (offset request + bodyLength request) = _ ↔ _
      omega

/-! ## Requests one after another -/

/-- A handled request: what it found, how it was answered, and what it left. -/
structure Handled where
  before : ServerWorld
  request : TransferRequest
  reply : Option Response
  after : ServerWorld

/-- A request was answered as complete. -/
def Handled.Complete (handled : Handled) : Prop :=
  ∃ response, handled.reply = some response ∧ response.status = 200

/-- The request was handled with nothing beside it, whichever of its operations failed. -/
def Handled.Ran (sha256 : Sha256) (paths : StoragePaths) (handled : Handled) : Prop :=
  ∃ faults, (receiveTransfer sha256 paths handled.request).solo serverExec faults handled.before =
    some (handled.reply, handled.after)

/-- Requests are handled one after another. -/
def InSequence (sha256 : Sha256) (paths : StoragePaths) : ServerWorld → List Handled → Prop
  | _, [] => True
  | start, handled :: rest =>
    handled.before = start ∧ handled.Ran sha256 paths ∧ InSequence sha256 paths handled.after rest

/-- Each of them was handled. -/
theorem InSequence.ran {sha256 : Sha256} {paths : StoragePaths} {start : ServerWorld}
    {posts : List Handled} (sequence : InSequence sha256 paths start posts) :
    ∀ handled ∈ posts, handled.Ran sha256 paths := by
  induction posts generalizing start with
  | nil => exact fun handled member => absurd member List.not_mem_nil
  | cons first rest ih =>
    obtain ⟨-, ran, later⟩ := sequence
    exact List.forall_mem_cons.mpr ⟨ran, ih later⟩

/-- The staging file that the request finds fits it. -/
def Handled.Fitting (paths : StoragePaths) (handled : Handled) : Prop :=
  Fits (partLength (stagingPath paths handled.request.transferId) handled.before) handled.request

/-- A request that is answered as complete leaves a file of the announced size exactly when the staging
file that it finds fits it. -/
theorem complete_iff {sha256 : Sha256} {paths : StoragePaths} {handled : Handled}
    (ran : handled.Ran sha256 paths) (complete : handled.Complete) :
    HasAnnouncedSize paths handled.request handled.after ↔ handled.Fitting paths := by
  obtain ⟨before, request, reply, after⟩ := handled
  obtain ⟨faults, ran⟩ := ran
  obtain ⟨response, rfl, complete⟩ := complete
  have success : response.status < 300 := by omega
  obtain ⟨upload, accepted, -⟩ := Verified.receive_solo ran success
  obtain ⟨-, staging, final, name, size, -, resumes⟩ := acceptRequest_ok accepted
  obtain ⟨bytes, delivers, reads⟩ := answered_delivered id accepted ran complete
  obtain ⟨-, rfl, whole⟩ := settle_delivered delivers
  have sized := @stagedWith_length_iff upload request (before.files.read upload.stagingPath) resumes
    whole.counted
  have located : stagingPath paths request.transferId = upload.stagingPath := staging.symm
  rw [Handled.Fitting, partLength, located, ← sized, HasAnnouncedSize]
  constructor
  · rintro ⟨other, total, found, named, announced, there, length⟩
    obtain rfl := Option.some.inj (name.symm.trans named)
    obtain rfl := Option.some.inj (size.symm.trans announced)
    rw [← final] at there
    rwa [Option.some.inj (reads.symm.trans there)]
  · intro length
    rw [final] at reads
    exact ⟨_, _, _, name, size, reads, length⟩

/-- Every request of a sequence that is answered as complete leaves a file of the announced size exactly
when every one of them finds a staging file that fits it. -/
theorem announced_size {sha256 : Sha256} {paths : StoragePaths} {start : ServerWorld}
    {posts : List Handled} (sequence : InSequence sha256 paths start posts) :
    (∀ handled ∈ posts, handled.Complete → HasAnnouncedSize paths handled.request handled.after) ↔
      ∀ handled ∈ posts, handled.Complete → handled.Fitting paths := by
  have each := sequence.ran
  constructor
  · intro sized handled member complete
    exact (complete_iff (each handled member) complete).mp (sized handled member complete)
  · intro fitting handled member complete
    exact (complete_iff (each handled member) complete).mpr (fitting handled member complete)

/-! ## Sample sequences -/

/-- Handle a first request of the sample transfer and then one that continues after one byte. -/
def sampleSequence (first second : List Bytes) : Option (Handled × Handled) := do
  let fresh := sampleRequest none first
  let (reply, middle) ← serve (fun _ => []) samplePaths emptyServer fresh
  let resumed := sampleRequest (some "bytes 1-1/2") second
  let (answer, after) ← serve (fun _ => []) samplePaths middle resumed
  some (⟨emptyServer, fresh, reply, middle⟩, ⟨middle, resumed, answer, after⟩)

/-- The two requests are handled one after another. -/
theorem sampleSequence_inSequence {first second : List Bytes} {handled : Handled × Handled}
    (runs : sampleSequence first second = some handled) :
    InSequence (fun _ => []) samplePaths emptyServer [handled.1, handled.2] := by
  have reliable (request : TransferRequest) (world : ServerWorld) :
      serve (fun _ => []) samplePaths world request =
        (receiveTransfer (fun _ => []) samplePaths request).solo serverExec (fun _ => .none) world :=
    (solo_narrow (fun _ : Unit => Fault.none) (fun _ _ _ => rfl) (fun _ => ()) _ _).1
  unfold sampleSequence at runs
  obtain ⟨⟨reply, middle⟩, served, runs⟩ := Option.bind_eq_some_iff.mp runs
  obtain ⟨⟨answer, after⟩, resumed, runs⟩ := Option.bind_eq_some_iff.mp runs
  rw [reliable] at served resumed
  obtain rfl := Option.some.inj runs
  exact ⟨rfl, ⟨_, served⟩, rfl, ⟨_, resumed⟩, trivial⟩

/-- How the second request is answered, and the file it leaves. -/
def delivers (handled : Handled × Handled) : Option Nat × Option Nat × Option Nat :=
  (handled.1.reply.map (·.status), handled.2.reply.map (·.status),
    (handled.2.after.files.read (samplePaths.receivedFilesDir ++ ["a"])).map (·.length))

/-- The first byte in one request and the second in another one make a file of two bytes. -/
theorem announced_size_twoParts : ∃ first second,
    InSequence (fun _ => []) samplePaths emptyServer [first, second] ∧
      ((∀ handled ∈ [first, second], handled.Complete →
        HasAnnouncedSize samplePaths handled.request handled.after) ↔
        ∀ handled ∈ [first, second], handled.Complete → handled.Fitting samplePaths) ∧
      second.reply.map (·.status) = some 200 := by
  have runs : (sampleSequence [[1]] [[2]]).map delivers = some (some 206, some 200, some 2) := by
    decide +kernel
  obtain ⟨⟨first, second⟩, ran, ends⟩ := Option.map_eq_some_iff.mp runs
  have sequence := sampleSequence_inSequence ran
  have complete : second.reply.map (·.status) = some 200 := (Prod.mk.inj (Prod.mk.inj ends).2).1
  exact ⟨first, second, sequence, announced_size sequence, complete⟩

/-- An earlier request may have staged more than the announced size, and all of it is delivered. -/
theorem announced_size_broken :
    ¬∀ (sha256 : Sha256) (paths : StoragePaths) (start : ServerWorld) (posts : List Handled),
      InSequence sha256 paths start posts → ∀ handled ∈ posts, handled.Complete →
        HasAnnouncedSize paths handled.request handled.after := by
  intro always
  have runs : (sampleSequence [[1], [2], [3]] [[2]]).map
      (fun handled => (handled.2.request, delivers handled)) =
        some (sampleRequest (some "bytes 1-1/2") [[2]], some 206, some 200, some 3) := by
    decide +kernel
  obtain ⟨⟨first, second⟩, ran, ends⟩ := Option.map_eq_some_iff.mp runs
  obtain ⟨asked, outcome⟩ := Prod.mk.inj ends
  obtain ⟨-, outcome⟩ := Prod.mk.inj outcome
  obtain ⟨status, length⟩ := Prod.mk.inj outcome
  have complete : second.Complete := Option.map_eq_some_iff.mp status
  obtain ⟨whole, there, three⟩ := Option.map_eq_some_iff.mp length
  obtain ⟨name, size, bytes, named, announced, reads, sized⟩ :=
    always _ _ _ _ (sampleSequence_inSequence ran) second (by simp) complete
  have asks : second.request = sampleRequest (some "bytes 1-1/2") [[2]] := asked
  rw [asks] at named announced
  have name_eq : (some "a").bind sanitizeFilename = some "a" := by decide +kernel
  have size_eq : (some "2").bind parseU64 = some 2 := by decide +kernel
  obtain rfl := Option.some.inj (name_eq.symm.trans named)
  obtain rfl := Option.some.inj (size_eq.symm.trans announced)
  obtain rfl := Option.some.inj (there.symm.trans reads)
  rw [three] at sized
  exact absurd sized (by decide)

end FileDrop.AnnouncedSize
