import FileDrop.Verif.Retry

/-!
# Which names can be sent

A name crosses four alphabets: the sender's header takes any text without control characters, but
the receiver reads a header as text only when it is ASCII. So a name beyond ASCII is refused as
missing. Every other name gets through: the blanks that the transport strips are blanks that the
sanitizer trims anyway, and a fresh upload whose body, read from the beginning of the file, arrives whole
has the announced digest.
-/
namespace FileDrop.Nameable
open FileDrop Effects Effects.Program Unix Resume Completeness Isolation Retry

/-- A send with the default options, whose response arrives. -/
def whole (answers : List FilePoll) (transport : Transport) : Attempt :=
  ⟨SendOptions.default.resumeFrom, answers, transport, none⟩

/-- The send returned `Ok`, and the file is in the received directory under its sanitized name. -/
def Sent (transfer : Transfer) (result : SendResult) (receiver : Receiver) : Prop :=
  result = .ok () ∧ ∃ name, sanitizeFilename transfer.fileName = some name ∧
    receiver.server.files.read (finalPath transfer name) = some transfer.source.content

/-- The beginning of a file is a file offset. -/
theorem zero_valid : (0 : UInt64).toNat < offsetLimit := by decide

section

variable {transfer : Transfer} {before : Receiver} {answers : List FilePoll} {transport : Transport}

/-- A name that arrives is sent. -/
theorem sent_printable (printable : Printable transfer.fileName.toList)
    (arrived : (transfer.body (whole answers transport)).failure = none) :
    ∃ result after, transfer.attempt before (whole answers transport) = some (result, after) ∧
      Sent transfer result after := by
  set body := transfer.body (whole answers transport) with sends
  have content : body.chunks.flatten = transfer.source.content :=
    (transfer.body_steady (whole answers transport)).2 arrived
  have hex := sha256Hex_announced transfer.sha256 transfer.source.content
  obtain ⟨headers, upload, arrives, accepted, sanitized⟩ := @printable_accepted transfer.http
    transfer.paths transfer.transferId _ (.ofNat transfer.source.content.length) _ 0 printable hex
  obtain ⟨size, digest, fresh⟩ := accepted_announced hex arrives accepted
  have final : upload.finalPath = finalPath transfer upload.safeName := (acceptRequest_ok accepted).2.2.1
  obtain ⟨reply, server, result, after, served, attempted, rfl, -, read⟩ :=
    @attempt_serves transfer before (whole answers transport) headers zero_valid arrives
  obtain ⟨answered, -, delivers⟩ := serve_settled accepted served
  -- a fresh upload stages its body, whatever was there before
  have comes : settle transfer.sha256 upload body (before.server.files.read upload.stagingPath) =
      settleDigest transfer.sha256 (sha256Hex transfer.sha256 transfer.source.content)
        transfer.source.content := by
    have counted : upload.resumeOffset + .ofNat body.chunks.flatten.length = upload.totalSize := by
      rw [fresh, size, content, UInt64.zero_add]
    have staged (old : Option Bytes) :
        stagedWith upload old body.chunks.flatten = transfer.source.content := by
      rw [stagedWith_fresh fresh, content]
    have valid : Valid upload := by
      rw [Valid, fresh]
      exact zero_valid
    rw [settle, if_pos valid]
    simp only [settleStream, arrived, settleFinish, counted, ne_eq, not_true_eq_false, if_false,
      settleVerify, digest, staged]
  have answered : reply = some (settle transfer.sha256 upload body
      (before.server.files.read upload.stagingPath)).reply := answered
  rw [comes] at answered
  have delivers : ∀ bytes, (settle transfer.sha256 upload body
      (before.server.files.read upload.stagingPath)).delivered = some bytes →
        after.server.files.read upload.finalPath = some bytes := delivers
  rw [comes] at delivers
  obtain ⟨⟨response, rfl, ok⟩, there⟩ := (digest_delivers answered delivers).mpr rfl
  have ended : result = .ok () := by
    rw [read]
    simp only [whole, responseReceived, readResponse, ok, isSuccess]
    rfl
  refine ⟨result, after, attempted, ended, upload.safeName, ?_, ?_⟩
  · rw [← sanitizeFilename_received]
    exact sanitized
  · rw [← final]
    exact there

/-- A name beyond ASCII is refused as missing. -/
theorem refused_wide (plain : ∀ c ∈ transfer.fileName.toList, isControl c = false) {c : Char}
    (member : c ∈ transfer.fileName.toList) (wide : 128 ≤ c.toNat) :
    ∃ after, transfer.attempt before (whole answers transport) = some (.error (.network
      "receiver rejected transfer (400 Bad Request): missing X-FileDrop-Filename"), after) := by
  obtain ⟨named, legal⟩ := transfer.http.legal transfer.fileName plain
  obtain ⟨headers, arrives⟩ := @legal_arrives transfer.http _ _ (.ofNat transfer.source.content.length) _ 0
    legal (sha256Hex_announced transfer.sha256 transfer.source.content)
  have missing : headers.filename.bind HeaderValue.toStr = none :=
    (SendHeaders.arriving_reads arrives).1.trans (Http.reads_beyond member wide)
  have refused : acceptRequest transfer.paths transfer.transferId headers =
      some (.error ⟨400, "missing X-FileDrop-Filename"⟩) := by
    simp only [acceptRequest, missing]
  have handler : receiveTransfer transfer.sha256 transfer.paths
      ⟨transfer.transferId, headers, transfer.body (whole answers transport)⟩ =
        .done (some ⟨400, "missing X-FileDrop-Filename"⟩) := by
    simp only [receiveTransfer, refused]
  obtain ⟨reply, server, result, after, served, attempted, -, -, read⟩ :=
    @attempt_serves transfer before (whole answers transport) headers zero_valid arrives
  have served : (receiveTransfer transfer.sha256 transfer.paths
      ⟨transfer.transferId, headers, transfer.body (whole answers transport)⟩).solo
        reliableExec (fun _ => ()) before.server = some (reply, server) := served
  rw [handler] at served
  obtain ⟨rfl, -⟩ := solo_done served
  refine ⟨after, ?_⟩
  rw [attempted, read]
  rfl

/-- A name without control characters, whatever the content and however its body is read and arrives in
chunks: the send returns `Ok` and leaves the content under the sanitized name exactly when the name is
ASCII. -/
theorem sent_iff (plain : ∀ c ∈ transfer.fileName.toList, isControl c = false)
    (arrived : (transfer.body (whole answers transport)).failure = none) :
    ∃ result after, transfer.attempt before (whole answers transport) = some (result, after) ∧
      (Sent transfer result after ↔ ∀ c ∈ transfer.fileName.toList, c.toNat < 128) := by
  by_cases ascii : ∀ c ∈ transfer.fileName.toList, c.toNat < 128
  · have printable : Printable transfer.fileName.toList := by
      intro c member
      have code := plain c member
      have small := ascii c member
      simp only [isControl, Bool.or_eq_false_iff, Bool.and_eq_false_iff, decide_eq_false_iff_not] at code
      omega
    obtain ⟨result, after, attempted, sent⟩ :=
      @sent_printable transfer before answers transport printable arrived
    exact ⟨result, after, attempted, iff_of_true sent ascii⟩
  · obtain ⟨c, member, wide⟩ : ∃ c ∈ transfer.fileName.toList, 128 ≤ c.toNat := by
      simpa only [not_forall, not_lt, exists_prop] using ascii
    obtain ⟨after, attempted⟩ := @refused_wide transfer before answers transport plain c member wide
    refine ⟨_, after, attempted, iff_of_false ?_ ascii⟩
    rintro ⟨returned, -⟩
    cases returned

end

/-- The sample file, read byte by byte, arrives in one chunk. -/
def sampleWhole : Attempt := whole [.ready 1, .pending, .ready 1, .ready 1] ⟨[], none, ""⟩

/-- The sample file is called `a`. -/
theorem sent_iff_ascii : ∃ result after,
    sampleTransfer.attempt emptyReceiver sampleWhole = some (result, after) ∧
      Sent sampleTransfer result after := by
  have named : sampleTransfer.fileName = "a" := by decide +kernel
  have ascii : ∀ c ∈ sampleTransfer.fileName.toList, isControl c = false ∧ c.toNat < 128 := by
    rw [named]
    exact forall_chars (by decide)
  obtain ⟨result, after, attempted, sent⟩ := @sent_iff sampleTransfer emptyReceiver _ _
    (fun c member => (ascii c member).1) (show (sampleTransfer.body sampleWhole).failure = none by decide)
  exact ⟨result, after, attempted, sent.mpr fun c member => (ascii c member).2⟩

/-- The sample file, called `é`. -/
def wideTransfer : Transfer := { sampleTransfer with filePath := "é" }

/-- A file called `é` is refused. -/
theorem sent_broken :
    ¬∀ (transfer : Transfer) (before : Receiver) (answers : List FilePoll) (transport : Transport),
      (∀ c ∈ transfer.fileName.toList, isControl c = false) →
      (transfer.body (whole answers transport)).failure = none →
      ∃ result after, transfer.attempt before (whole answers transport) = some (result, after) ∧
        Sent transfer result after := by
  intro always
  have named : wideTransfer.fileName = "é" := by decide +kernel
  have plain : ∀ c ∈ wideTransfer.fileName.toList, isControl c = false := by
    rw [named]
    exact forall_chars (by decide)
  have arrived : (wideTransfer.body sampleWhole).failure = none := by decide
  obtain ⟨result, after, attempted, sent⟩ := always wideTransfer emptyReceiver _ _ plain arrived
  obtain ⟨other, later, same, exact_⟩ := @sent_iff wideTransfer emptyReceiver _ _ plain arrived
  obtain ⟨rfl, rfl⟩ := Prod.mk.inj (Option.some.inj (same.symm.trans attempted))
  have ascii := exact_.mp sent 'é' (by rw [named]; decide)
  exact absurd ascii (by decide)

end FileDrop.Nameable
