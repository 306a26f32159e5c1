import FileDrop.Foundation.Interleaving
import FileDrop.Verif.Received

/-!
# Where an upload may write

Whatever name a request carries, its upload opens, renames and removes one staging file and one file
of the received directory, and both names are single components. Writes go through the handle of the
opened file, and no path elsewhere ever leads to it, so other paths keep what they lead to, also when
uploads share an id and rename each other's staging file.
-/
namespace FileDrop.Containment
open FileDrop Effects Effects.Program Unix Isolation Received Resume

/-! ## The operations of an upload -/

/-- The operations of a request but its writes: the paths are its own. -/
def named (paths : StoragePaths) (request : TransferRequest) : serverSig.Op → Bool
  | .file (.createDirAll path) => path = paths.stagingDir
  | .file (.openWrite path _) | .file (.read path) | .file (.remove path) =>
    path = paths.stagingDir ++ [stagingName request.transferId]
  | .file (.rename source target) =>
    source = paths.stagingDir ++ [stagingName request.transferId] ∧
      ((request.headers.filename.bind HeaderValue.toStr).bind sanitizeFilename).map
        (fun name => paths.receivedFilesDir ++ [name]) = some target
  | .file (.seek ..) | .file (.flush _) => true
  | .file (.write ..) | .file (.writeSome ..) | .file (.tryExists _) => false
  | .insertSession .. | .removeSession _ | .nextChunk | .isCancelled _ | .awaitResumed _
  | .addBytes .. => true

/-- A write through a handle. -/
def writes : serverSig.Op → Bool
  | .file (.write ..) => true
  | _ => false

/-- The operations of a request. -/
def touches (paths : StoragePaths) (request : TransferRequest) (op : serverSig.Op) : Bool :=
  named paths request op || writes op

section

variable {sha256 : Sha256} {paths : StoragePaths} {request : TransferRequest} {upload : Upload}

/-- The paths of an accepted upload are those of its request. -/
structure Located (paths : StoragePaths) (request : TransferRequest) (upload : Upload) : Prop where
  staging : upload.stagingPath = paths.stagingDir ++ [stagingName request.transferId]
  final : ((request.headers.filename.bind HeaderValue.toStr).bind sanitizeFilename).map
    (fun name => paths.receivedFilesDir ++ [name]) = some upload.finalPath

/-- An accepted upload is located. -/
theorem located_accepted
    (accepted : acceptRequest paths request.transferId request.headers = some (.ok upload)) :
    Located paths request upload := by
  obtain ⟨-, staging, final, name, -, -, -⟩ := acceptRequest_ok accepted
  exact ⟨staging, by rw [name, final, Option.map_some]⟩

/-- Dropping a session names no path. -/
theorem named_dropSession {next : Handler} (later : next.Only (named paths request)) :
    (dropSession upload next).Only (named paths request) :=
  ⟨rfl, fun _ => later⟩

/-- Removing the staging file. -/
theorem named_discard (located : Located paths request upload) {status : Nat} {text : String} :
    ((serverFile (.remove upload.stagingPath)).bind fun _ =>
      respond status text).Only (named paths request) :=
  ⟨decide_eq_true located.staging, fun _ => trivial⟩

/-- The rename. -/
theorem named_commit (located : Located paths request upload) :
    (commitUpload upload).Only (named paths request) := by
  refine ⟨decide_eq_true ⟨located.staging, located.final⟩, fun result => ?_⟩
  cases result with
  | error error => trivial
  | ok done => exact named_dropSession trivial

/-- The comparison of digests. -/
theorem named_checkDigest (located : Located paths request upload) {expected actual : String} :
    (checkDigest upload expected actual).Only (named paths request) := by
  unfold checkDigest
  split
  · exact named_dropSession (named_discard located)
  · exact named_commit located

/-- What follows the chunk loop. -/
theorem named_finish (located : Located paths request upload) {hasher : Sha256Hasher}
    {written : UInt64} {file : Handle} :
    (finishUpload sha256 upload hasher written file).Only (named paths request) := by
  refine ⟨rfl, fun result => ?_⟩
  cases result with
  | error error => trivial
  | ok done =>
    show (ite _ _ (verifyUpload sha256 upload hasher)).Only (named paths request)
    split
    · exact named_dropSession trivial
    · unfold verifyUpload
      split
      · exact named_commit located
      · split
        · exact named_checkDigest located
        · refine ⟨decide_eq_true located.staging, fun result => ?_⟩
          cases result with
          | error error => trivial
          | ok bytes => exact named_checkDigest located

/-- The end of the body. -/
theorem named_bodyEnd (located : Located paths request upload) {session : TransferSession}
    {failure : Option String} {hasher : Sha256Hasher} {written : UInt64} {file : Handle} :
    (chunkLoop sha256 upload session failure [] hasher written file).Only
      (named paths request) := by
  refine ⟨rfl, fun _ => ?_⟩
  cases failure with
  | some error => exact named_dropSession trivial
  | none => exact named_finish located

/-- The operations by name are a request's. -/
theorem named_touches {handler : Handler} (only : handler.Only (named paths request)) :
    handler.Only (touches paths request) :=
  only.mono fun _ own => Bool.or_eq_true_iff.mpr (.inl own)

/-- The chunk loop. -/
theorem touches_chunkLoop (located : Located paths request upload) {session : TransferSession}
    {failure : Option String} {rest : List Bytes} {hasher : Sha256Hasher} {written : UInt64}
    {file : Handle} : (chunkLoop sha256 upload session failure rest hasher written file).Only
      (touches paths request) := by
  induction rest generalizing hasher written file with
  | nil => exact named_touches (named_bodyEnd located)
  | cons chunk rest ih =>
    refine ⟨rfl, fun _ => ⟨rfl, fun cancelled => ?_⟩⟩
    cases cancelled with
    | true => exact named_touches (named_dropSession (named_discard located))
    | false =>
      refine ⟨rfl, fun _ => ⟨rfl, fun result => ?_⟩⟩
      cases result with
      | error error => exact named_touches (named_dropSession trivial)
      | ok moved => exact ⟨rfl, fun _ => ih⟩

/-- The opening and everything after it. -/
theorem touches_openStaging (located : Located paths request upload) {body : Body} :
    (openStaging sha256 upload body).Only (touches paths request) := by
  have own : touches paths request (.file (.openWrite upload.stagingPath
      (upload.resumeOffset = 0))) := by
    simp [touches, named, located.staging]
  refine ⟨own, fun result => ?_⟩
  cases result with
  | error error => trivial
  | ok file =>
    show (ite _ _ (streamUpload sha256 upload body file)).Only (touches paths request)
    split
    · refine ⟨rfl, fun result => ?_⟩
      cases result with
      | error error => trivial
      | ok positioned => exact ⟨rfl, fun _ => touches_chunkLoop located⟩
    · exact ⟨rfl, fun _ => touches_chunkLoop located⟩

/-- A handler's operations are its request's, whatever they return. -/
theorem touches_receive : (receiveTransfer sha256 paths request).Only (touches paths request) := by
  unfold receiveTransfer
  split
  · trivial
  · trivial
  · rename_i upload accepted
    have located := located_accepted accepted
    have own : touches paths request (.file (.createDirAll upload.stagingPath.dropLast)) := by
      simp [touches, named, located.staging]
    refine ⟨own, fun result => ?_⟩
    cases result with
    | error error => trivial
    | ok created => exact touches_openStaging located

end

/-! ## Whole runs -/

section

variable {ι : Type} (paths : StoragePaths) (requests : ι → TransferRequest)

/-- A path is a request's staging file or the received file of its sanitized name. -/
def OwnPath (path : Path) : Prop :=
  ∃ i, path = paths.stagingDir ++ [stagingName (requests i).transferId] ∨
    (((requests i).headers.filename.bind HeaderValue.toStr).bind sanitizeFilename).map
      (fun name => paths.receivedFilesDir ++ [name]) = some path

/-- Everything but the requests' own files is as it was. -/
def KeptOutside (before after : ServerWorld) : Prop :=
  ∀ path, ¬OwnPath paths requests path →
    after.files.entries path = before.files.entries path ∧
      after.files.read path = before.files.read path

/-- No path but the requests' own leads to an open file. -/
def LeadsInside (file : Handle) (world : ServerWorld) : Prop :=
  ∀ path, ¬OwnPath paths requests path → world.files.entries path ≠ some file.inode

/-- A handler that keeps everything outside while the others do. -/
abbrev Contained : Handler → ServerWorld → Prop :=
  Safe serverExec (fun _ => KeptOutside paths requests)
    (fun _ before _ after => KeptOutside paths requests before after)

variable {paths requests}

/-- Nothing has changed outside at first. -/
theorem KeptOutside.refl (world : ServerWorld) : KeptOutside paths requests world world :=
  fun _ _ => ⟨rfl, rfl⟩

/-- What is kept twice is kept. -/
theorem KeptOutside.trans {first second third : ServerWorld}
    (near : KeptOutside paths requests first second)
    (far : KeptOutside paths requests second third) : KeptOutside paths requests first third := by
  intro path outside
  obtain ⟨nearEntry, nearRead⟩ := near path outside
  obtain ⟨farEntry, farRead⟩ := far path outside
  exact ⟨farEntry.trans nearEntry, farRead.trans nearRead⟩

/-- The same files. -/
theorem KeptOutside.of_files {before after : ServerWorld} (same : after.files = before.files) :
    KeptOutside paths requests before after := by
  intro path _
  rw [same]
  exact ⟨rfl, rfl⟩

/-- A file that was open inside stays inside. -/
theorem LeadsInside.kept {file : Handle} {before after : ServerWorld}
    (leads : LeadsInside paths requests file before)
    (kept : KeptOutside paths requests before after) : LeadsInside paths requests file after := by
  intro path outside
  rw [(kept path outside).1]
  exact leads path outside

/-- An operation by name changes the request's own files only. -/
theorem named_kept {i : ι} {op : ServerOp} (own : named paths (requests i) op)
    {before after : ServerWorld} {fault : Fault} {result : op.Result}
    (ran : serverExec before op fault = some (result, after)) :
    KeptOutside paths requests before after := by
  cases op with
  | file op =>
    have moved := serverExec_file ran
    have notStaged {path : Path} (outside : ¬OwnPath paths requests path) :
        path ≠ paths.stagingDir ++ [stagingName (requests i).transferId] :=
      fun same => outside ⟨i, .inl same⟩
    cases op with
    | createDirAll | seek | flush | read =>
      exact .of_files (serverExec_harmless rfl ran)
    | openWrite path truncate =>
      obtain rfl := of_decide_eq_true own
      intro other outside
      rcases FileOp.exec_openWrite moved with ⟨_, -, -, same⟩ | ⟨-, same⟩
      · rw [same]
        exact ⟨rfl, rfl⟩
      · rw [same]
        exact ⟨FileStore.openWrite_entries_ne _ _ (notStaged outside),
          FileStore.read_openWrite_ne _ _ (notStaged outside)⟩
    | remove path =>
      obtain rfl := of_decide_eq_true own
      intro other outside
      rcases (FileOp.exec_remove moved).1 with same | same
      · rw [same]
        exact ⟨rfl, rfl⟩
      · rw [same]
        exact ⟨FileStore.remove_entries_ne _ (notStaged outside),
          FileStore.read_remove_ne _ (notStaged outside)⟩
    | rename source target =>
      obtain ⟨rfl, final⟩ := of_decide_eq_true own
      intro other outside
      have notFinal : other ≠ target := by
        rintro rfl
        exact outside ⟨i, .inr final⟩
      rcases FileOp.exec_rename moved with ⟨_, -, same⟩ | ⟨-, renamed⟩
      · rw [same]
        exact ⟨rfl, rfl⟩
      · exact ⟨FileStore.rename_entries_ne (notStaged outside) notFinal renamed,
          FileStore.read_rename_ne (notStaged outside) notFinal renamed⟩
    | write | writeSome | tryExists => cases own
  | insertSession | removeSession | nextChunk | isCancelled | awaitResumed | addBytes =>
    exact .of_files (serverExec_files (by simp) ran)

/-- A handler that only works by name. -/
theorem contained_named {i : ι} {handler : Handler} (only : handler.Only (named paths (requests i)))
    (world : ServerWorld) : Contained paths requests handler world := by
  induction handler generalizing world with
  | done reply => trivial
  | perform op next ih =>
    intro seen _ fault result after ran
    exact ⟨named_kept only.1 ran, ih result (only.2 result) after⟩

/-- A step of a handler that has its file open inside. -/
theorem contained_step {op : ServerOp} {next : op.Result → Handler} {file : Handle}
    {world : ServerWorld} (leads : LeadsInside paths requests file world)
    (sound : ∀ seen fault result after, LeadsInside paths requests file seen →
      serverExec seen op fault = some (result, after) →
        KeptOutside paths requests seen after ∧ Contained paths requests (next result) after) :
    Contained paths requests (.perform op next) world :=
  Safe.of_assertion (fun _ _ holds kept => holds.kept kept)
    (fun seen fault result after holds ran => sound seen fault result after holds ran) leads

/-- A step by name of a handler that has its file open inside. -/
theorem contained_perform {i : ι} {op : ServerOp} {next : op.Result → Handler} {file : Handle}
    {world : ServerWorld} (own : named paths (requests i) op)
    (leads : LeadsInside paths requests file world)
    (later : ∀ result after, LeadsInside paths requests file after →
      Contained paths requests (next result) after) :
    Contained paths requests (.perform op next) world := by
  refine contained_step leads fun seen fault result after leads ran => ?_
  have kept := named_kept own ran
  exact ⟨kept, later result after (leads.kept kept)⟩

/-- A write through a handle shows inside only. -/
theorem write_kept {file : Handle} {part : Bytes} {before after : ServerWorld}
    (leads : LeadsInside paths requests file before)
    (same : after.files = (before.files.write file part).2) :
    KeptOutside paths requests before after := by
  intro path outside
  rw [same]
  exact ⟨rfl, FileStore.read_write_ne _ _ (leads path outside)⟩

variable {sha256 : Sha256} {upload : Upload} {i : ι}

/-- The chunk loop stays inside. -/
theorem contained_chunkLoop (located : Located paths (requests i) upload)
    {session : TransferSession} {failure : Option String} {rest : List Bytes}
    {hasher : Sha256Hasher} {written : UInt64} {file : Handle} {world : ServerWorld}
    (leads : LeadsInside paths requests file world) :
    Contained paths requests (chunkLoop sha256 upload session failure rest hasher written file)
      world := by
  induction rest generalizing hasher written file world with
  | nil => exact contained_named (named_bodyEnd located) world
  | cons chunk rest ih =>
    refine contained_perform (i := i) rfl leads fun _ _ leads => ?_
    refine contained_perform (i := i) rfl leads fun cancelled asked leads => ?_
    cases cancelled with
    | true => exact contained_named (named_dropSession (named_discard located)) asked
    | false =>
      refine contained_perform (i := i) rfl leads fun _ _ leads => ?_
      refine contained_step leads fun seen fault result after leads ran => ?_
      rcases FileOp.exec_write_part (serverExec_file ran) with
        ⟨error, _, -, rfl, -, same⟩ | ⟨rfl, same⟩
      · have answers : (dropSession upload (serverError error)).Only (named paths (requests i)) :=
          named_dropSession trivial
        exact ⟨write_kept leads same, contained_named answers after⟩
      · have kept := write_kept leads same
        have still : LeadsInside paths requests (seen.files.write file chunk).1 after :=
          leads.kept kept
        exact ⟨kept, contained_perform (i := i) rfl still fun _ _ leads => ih leads⟩

/-- A session over a file that is open inside. -/
theorem contained_stream (located : Located paths (requests i) upload) {body : Body} {file : Handle}
    {world : ServerWorld} (leads : LeadsInside paths requests file world) :
    Contained paths requests (streamUpload sha256 upload body file) world :=
  contained_perform (i := i) rfl leads fun _ _ leads => contained_chunkLoop located leads

/-- The opened file is the staging file, and no other path leads to it. -/
theorem contained_openStaging (located : Located paths (requests i) upload) (body : Body)
    (world : ServerWorld) : Contained paths requests (openStaging sha256 upload body) world := by
  have own : named paths (requests i)
      (.file (.openWrite upload.stagingPath (upload.resumeOffset = 0))) :=
    decide_eq_true located.staging
  intro seen _ fault result after ran
  refine ⟨named_kept own ran, ?_⟩
  rcases FileOp.exec_openWrite (serverExec_file ran) with ⟨error, rfl, -, -⟩ | ⟨rfl, same⟩
  · exact trivial
  have leads : LeadsInside paths requests
      (seen.files.openWrite upload.stagingPath (upload.resumeOffset = 0)).1 after := by
    intro path outside found
    rw [same] at found
    have staged := FileStore.openWrite_entries seen.files upload.stagingPath
      (upload.resumeOffset = 0)
    have atStaging := FileStore.single _ _ _ _ found staged
    exact outside ⟨i, .inl (atStaging.trans located.staging)⟩
  show Contained paths requests (ite _ _ (streamUpload sha256 upload body _)) after
  split
  · refine contained_step leads fun positioned fault result moved leads ran => ?_
    have kept : KeptOutside paths requests positioned moved :=
      .of_files (serverExec_harmless rfl ran)
    refine ⟨kept, ?_⟩
    rcases FileOp.exec_seek (serverExec_file ran) with ⟨error, rfl, -⟩ | ⟨rfl, -⟩
    · exact trivial
    · exact contained_stream located (leads.kept kept)
  · exact contained_stream located leads

end

section

variable {ι : Type} {sha256 : Sha256} {paths : StoragePaths} {requests : ι → TransferRequest}

/-- A handler stays inside from the start. -/
theorem contained_receive (i : ι) (world : ServerWorld) :
    Contained paths requests (receiveTransfer sha256 paths (requests i)) world := by
  unfold receiveTransfer
  split
  · trivial
  · trivial
  · rename_i upload accepted
    have located := located_accepted accepted
    intro seen _ fault result after ran
    have kept : KeptOutside paths requests seen after := .of_files (serverExec_harmless rfl ran)
    refine ⟨kept, ?_⟩
    cases result with
    | error error => exact trivial
    | ok created => exact contained_openStaging located (requests i).body after

/-- Every run of uploads changes the requests' own files only. -/
theorem reached_inside [DecidableEq ι] {world : ServerWorld}
    {reached : Pool ι serverSig ServerWorld (Option Response)}
    (path : Pool.Reaches (fun _ => serverExec) (fun _ _ _ => True)
      (receiving sha256 paths requests world) reached) :
    KeptOutside paths requests world reached.world := by
  have safeStart : ∀ i, Contained paths requests ((receiving sha256 paths requests world).threads i)
      (receiving sha256 paths requests world).world :=
    fun i => contained_receive i world
  have composed := @Pool.reachable_safe serverSig ι ServerWorld Fault (Option Response) _
    (fun _ => serverExec) (fun _ _ => KeptOutside paths requests)
    (fun _ _ before _ after => KeptOutside paths requests before after) (fun _ _ _ => True)
    (fun pool => KeptOutside paths requests world pool.world)
    (fun pool _ _ => .refl pool.world) (fun _ _ _ _ _ near far => near.trans far)
    (fun before after i fault kept _ _ done => ⟨kept.trans done, fun _ _ => done⟩)
    (receiving sha256 paths requests world) (.refl world) safeStart reached path
  exact composed.1

end

/-! ## Containment -/

/-- Whatever a request's id and headers are: the sanitized name and the staging name join as one
component, a request is refused for a missing header only, every operation it comes to is on its own
two files, and no run of any requests changes another file. -/
theorem paths_contained (sha256 : Sha256) (paths : StoragePaths) :
    (∀ id untrusted name, sanitizeFilename untrusted = some name →
      components name.toList = [.normal name] ∧
      safeJoin paths.receivedFilesDir name = .ok (paths.receivedFilesDir ++ [name]) ∧
      components (stagingName id).toList = [.normal (stagingName id)] ∧
      safeJoin paths.stagingDir (stagingName id) = .ok (paths.stagingDir ++ [stagingName id])) ∧
    (∀ request, (receiveTransfer sha256 paths request).Only (touches paths request) ∧
      ∀ response, acceptRequest paths request.transferId request.headers = some (.error response) →
        response = ⟨400, "missing X-FileDrop-Filename"⟩ ∨
          response = ⟨400, "missing X-FileDrop-Total-Size"⟩) ∧
    ∀ (ι : Type) [DecidableEq ι] (requests : ι → TransferRequest) (world : ServerWorld)
      (reached : Pool ι serverSig ServerWorld (Option Response)),
      Pool.Reaches (fun _ => serverExec) (fun _ _ _ => True)
        (receiving sha256 paths requests world) reached →
      KeptOutside paths requests world reached.world := by
  refine ⟨fun id untrusted name done => ?_, fun request => ⟨touches_receive, fun response => ?_⟩, ?_⟩
  · obtain ⟨clean, kept⟩ := sanitizeFilename_clean done
    obtain ⟨stagedClean, stagedKept⟩ := stagingName_clean id
    exact ⟨components_clean clean kept, safeJoin_sanitized _ done,
      components_clean stagedClean stagedKept, safeJoin_staging _ id⟩
  · exact acceptRequest_refused
  · intro ι _ requests world reached path
    exact reached_inside path

/-- An upload under the name of the history file in the directory above. -/
def sampleHostile (_ : Unit) : TransferRequest where
  transferId := sampleId
  headers := {
    filename := some ⟨some "../history.json"⟩
    totalSize := some ⟨some "1"⟩
    sha256 := none
    contentRange := none }
  body := ⟨[[1]], none⟩

/-- The upload is complete, and the history file is as it was. -/
theorem paths_contained_sample : ∃ reached,
    Pool.run (fun _ => serverExec) (fun _ _ _ => True) (List.replicate 12 ((), .none))
        (receiving sampleSha256 samplePaths sampleHostile emptyServer) = some reached ∧
      receivedFile samplePaths reached.world "history.json" = some [1] ∧
      reached.world.files.read samplePaths.historyFile =
        emptyServer.files.read samplePaths.historyFile := by
  have runs : (Pool.run (fun _ => serverExec) (fun _ _ _ => True) (List.replicate 12 ((), .none))
      (receiving sampleSha256 samplePaths sampleHostile emptyServer)).map
        (fun reached => receivedFile samplePaths reached.world "history.json") =
      some (some [1]) := by
    decide +kernel
  obtain ⟨reached, ran, received⟩ := Option.map_eq_some_iff.mp runs
  have outside : ¬OwnPath samplePaths sampleHostile samplePaths.historyFile := by
    rintro ⟨i, staged | final⟩
    · exact absurd (congrArg List.length staged) (show 2 ≠ 3 by decide)
    · obtain ⟨name, -, same⟩ := Option.map_eq_some_iff.mp final
      exact absurd (congrArg List.length same) (show 3 ≠ 2 by decide)
  have kept := (paths_contained sampleSha256 samplePaths).2.2 Unit sampleHostile emptyServer reached
    (Pool.reaches_of_run ran)
  exact ⟨reached, ran, received, (kept _ outside).2⟩

end FileDrop.Containment
