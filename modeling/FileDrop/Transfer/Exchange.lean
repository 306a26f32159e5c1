import FileDrop.Transfer.Outgoing

/-!
# A send and its upload

The network between the two ends: the headers arrive as the HTTP crates carry them, the body that the
sender streams from its source arrives in whatever chunks the transport makes, whole or cut
short, and the response may get lost. The source file may be another one at each read. Whatever the file's
name is, an accepted upload is the one the sender announced, and one with a printable name is accepted.
-/
namespace FileDrop

open Effects Effects.Program Unix

/-- What arrives of a header that may be set. -/
def Http.optional (http : Http) : Option String → Option (Option HeaderValue)
  | none => some none
  | some text => (http.header text).map some

/-- The headers as they arrive. A request with a value that is not legal in a header is not sent. -/
def SendHeaders.arriving (http : Http) (headers : SendHeaders) : Option TransferHeaders := do
  let filename ← http.header headers.filename
  let totalSize ← http.header headers.totalSize
  let sha256 ← http.optional headers.sha256
  let contentRange ← http.optional headers.contentRange
  some ⟨some filename, some totalSize, sha256, contentRange⟩

/-- Bytes in pieces of these sizes, and what is left in one more. -/
def pieces : List Nat → Bytes → List Bytes
  | [], bytes => if bytes = [] then [] else [bytes]
  | size :: sizes, bytes => bytes.take size :: pieces sizes (bytes.drop size)

/-- No byte is lost between the pieces. -/
@[simp] theorem pieces_flatten (sizes : List Nat) (bytes : Bytes) :
    (pieces sizes bytes).flatten = bytes := by
  induction sizes generalizing bytes with
  | nil =>
    rw [pieces]
    split
    · rename_i nothing
      rw [nothing, List.flatten_nil]
    · rw [List.flatten_singleton]
  | cons size sizes ih => rw [pieces, List.flatten_cons, ih, List.take_append_drop]

/-- Any chunks are pieces of what they make together. -/
theorem pieces_lengths (chunks : List Bytes) :
    pieces (chunks.map List.length) chunks.flatten = chunks := by
  induction chunks with
  | nil => rfl
  | cons chunk chunks ih =>
    rw [List.map_cons, List.flatten_cons, pieces, List.take_left, List.drop_left, ih]

/-- What the network does to a body: the sizes of the pieces it arrives in, after how many bytes the
connection is cut, if it is, and the error that the receiver's stream has when the body is not whole. -/
structure Transport where
  sizes : List Nat
  cut : Option Nat
  error : String

/-- What comes through of a body. -/
def Transport.through (transport : Transport) (sent : Bytes) : Bytes :=
  match transport.cut with
  | some count => sent.take count
  | none => sent

/-- The body that the receiver's stream yields, of the chunks that the sender's stream has given and
whether it has come to its end. -/
def Transport.carry (transport : Transport) (sent : List Bytes × Bool) : Body where
  chunks := pieces transport.sizes (transport.through sent.1.flatten)
  failure := if transport.cut = none ∧ sent.2 then none else some transport.error

/-- A beginning of what was sent arrives. -/
theorem Transport.carry_prefix (transport : Transport) (sent : List Bytes × Bool) :
    (transport.carry sent).chunks.flatten <+: sent.1.flatten := by
  rw [carry, pieces_flatten, through]
  split
  · exact List.take_prefix _ _
  · exact List.prefix_rfl

/-- A body without an error is all that was sent, and that is all there was. -/
theorem Transport.carry_whole {transport : Transport} {sent : List Bytes × Bool}
    (whole : (transport.carry sent).failure = none) :
    (transport.carry sent).chunks.flatten = sent.1.flatten ∧ sent.2 := by
  have both : transport.cut = none ∧ sent.2 := by
    by_contra less
    rw [carry, if_neg less] at whole
    cases whole
  exact ⟨by rw [carry, pieces_flatten, through, both.1], both.2⟩

/-- What becomes of a request on its way: how the source file answers the polls of the body, what the
network does to it, the faults of the receiver's operations, and the sender's error when no response comes
back. -/
structure Delivery where
  polls : List SourcePoll
  transport : Transport
  faults : Nat → Fault
  lost : Option String

/-- The body the receiver gets of a request that reads this file. -/
def Delivery.body (delivery : Delivery) (file : SourceHandle) : Body :=
  delivery.transport.carry (file.stream delivery.polls)

/-- A file that stays as it is: a part of what it has from the position on arrives, and all of it when
nothing fails. -/
theorem Delivery.body_steady {delivery : Delivery} {content : Bytes} {answers : List FilePoll}
    (steady : delivery.polls = answers.map (⟨content, ·⟩)) (file : SourceHandle) :
    (delivery.body file).chunks.flatten <+: content.drop file.position ∧
      ((delivery.body file).failure = none →
        (delivery.body file).chunks.flatten = content.drop file.position) := by
  obtain ⟨part, all⟩ := file.stream_steady content answers
  rw [← steady] at part all
  refine ⟨(delivery.transport.carry_prefix _).trans part, fun whole => ?_⟩
  obtain ⟨sent, ended⟩ := Transport.carry_whole whole
  exact sent.trans (all ended)

/-- A file that changes while it is read can give any bytes. -/
theorem SourceHandle.stream_any (file : SourceHandle) (bytes : Bytes) :
    ∃ polls, (file.stream polls).1.flatten = bytes ∧ (file.stream polls).2 := by
  let content := List.replicate file.position 0 ++ bytes
  have starts : content.drop file.position = bytes := List.drop_left' List.length_replicate
  have first : (file.read content bytes.length).1 = bytes := by
    simp only [SourceHandle.read, starts]
    exact List.take_of_length_le (by omega)
  have rest := file.read_left content bytes.length
  rw [first, starts] at rest
  have second : ((file.read content bytes.length).2.read content 1).1 = [] := by
    rw [SourceHandle.read, List.append_right_eq_self.mp rest, List.take_nil]
  refine ⟨[⟨content, .ready bytes.length⟩, ⟨content, .ready 1⟩], ?_⟩
  by_cases nothing : bytes = []
  · have empty := first.trans nothing
    simp only [stream, empty, if_true, List.flatten_nil]
    exact ⟨nothing.symm, trivial⟩
  · simp only [stream, first, nothing, second, if_true, if_false, List.flatten_cons, List.flatten_nil,
      List.append_nil, and_self]

/-- So any body can arrive. -/
theorem Delivery.body_any (file : SourceHandle) (body : Body) (faults : Nat → Fault)
    (lost : Option String) :
    ∃ polls transport, Delivery.body ⟨polls, transport, faults, lost⟩ file = body := by
  obtain ⟨polls, all, ended⟩ := file.stream_any body.chunks.flatten
  let transport : Transport :=
    ⟨body.chunks.map List.length, body.failure.map fun _ => body.chunks.flatten.length,
      body.failure.getD ""⟩
  have through : transport.through body.chunks.flatten = body.chunks.flatten := by
    cases failed : body.failure <;> simp [transport, Transport.through, failed]
  have chunks : (transport.carry (file.stream polls)).chunks = body.chunks := by
    rw [Transport.carry, all, through]
    exact pieces_lengths body.chunks
  have failure : (transport.carry (file.stream polls)).failure = body.failure := by
    cases failed : body.failure <;> simp [transport, Transport.carry, ended, failed]
  exact ⟨polls, transport, congrArg₂ Body.mk chunks failure⟩

/-- The receiving end of a run. -/
structure Receiver where
  server : ServerWorld
  /-- Every state the server has been in, in order. -/
  passed : List ServerWorld
  /-- How the server has answered, newest first; no answer is a panic. -/
  answers : List (Option Response)

/-- The request as the server gets it, if it does. -/
def SendRequest.arriving (http : Http) (request : SendRequest) (body : Body) : Option TransferRequest :=
  (request.headers.arriving http).map fun headers => ⟨request.transferId, headers, body⟩

/-- What the sender gets: the response, unless it is lost or there is none. -/
def responseReceived (lost : Option String) (reply : Option Response) : Except String Response :=
  match lost, reply with
  | some text, _ => .error text
  | none, some response => .ok response
  | none, none => .error "connection closed before message completed"

/-- Hand a request to the server, with nothing beside it there. -/
def Receiver.deliver (http : Http) (sha256 : Sha256) (paths : StoragePaths) (receiver : Receiver)
    (request : SendRequest) (delivery : Delivery) :
    Option (Except String Response × Receiver) :=
  match request.arriving http (delivery.body request.file) with
  | none => some (.error "builder error", receiver)
  | some arriving =>
    let handler := receiveTransfer sha256 paths arriving
    (handler.solo serverExec delivery.faults receiver.server).map fun (reply, server) =>
      (responseReceived delivery.lost reply, {
        server
        passed := receiver.passed ++ handler.visited serverExec delivery.faults receiver.server
        answers := reply :: receiver.answers })

/-- A request that arrives is handled. -/
theorem Receiver.deliver_arriving {http : Http} {sha256 : Sha256} {paths : StoragePaths}
    {receiver : Receiver} {request : SendRequest} {delivery : Delivery} {arriving : TransferRequest}
    (arrives : request.arriving http (delivery.body request.file) = some arriving) :
    receiver.deliver http sha256 paths request delivery =
      ((receiveTransfer sha256 paths arriving).solo serverExec delivery.faults receiver.server).map
        fun (reply, server) => (responseReceived delivery.lost reply, {
          server
          passed := receiver.passed ++
            (receiveTransfer sha256 paths arriving).visited serverExec delivery.faults receiver.server
          answers := reply :: receiver.answers }) := by
  simp only [deliver, arrives]

/-- What the environment decides about one operation of a send: what the source file is then, if it
can be read, and what becomes of a request. -/
structure SendChoice where
  source : Except IoError SourceFile
  delivery : Delivery

/-- Carry out one operation of a send. -/
def clientExec (http : Http) (sha256 : Sha256) (paths : StoragePaths) :
    Meaning clientSig Receiver SendChoice
  | receiver, .metadata _, choice =>
    some (choice.source.map fun file => .ofNat file.content.length, receiver)
  | receiver, .readFile _, choice => some (choice.source.map (·.content), receiver)
  | receiver, .openFile path, choice => some (choice.source.map fun _ => .opened path, receiver)
  | receiver, .seek file position, choice =>
    some (choice.source.bind fun _ => file.seek position, receiver)
  | receiver, .send request, choice => receiver.deliver http sha256 paths request choice.delivery

/-! ## The receiver reads what the sender wrote -/

/-- A hexadecimal digit is printable and no blank. -/
theorem hexDigits_printable : ∀ c ∈ hexDigits, (32 ≤ c.toNat ∧ c.toNat < 127) ∧ c ≠ ' ' :=
  forall_chars (by decide)

section

variable {http : Http}

/-- A printable text without blanks arrives as it is. -/
theorem reads_solid {text : String} (printable : Printable text.toList)
    (solid : ∀ c ∈ text.toList, c ≠ ' ') : http.reads text = some text := by
  have first : ∀ c ∈ text.toList.head?, c ≠ ' ' := fun c found =>
    solid c (List.mem_of_mem_head? found)
  have last : ∀ c ∈ text.toList.getLast?, c ≠ ' ' := fun c found =>
    solid c (List.mem_of_getLast? found)
  rw [Http.reads_printable printable, received_of_ends first last]

/-- A decimal number is printable. -/
theorem decimal_printable (value : UInt64) : Printable (decimal value).toList := fun c member =>
  (digit_printable ((decimal_digits value).2 c member)).1

/-- The size arrives. -/
theorem reads_decimal (value : UInt64) : (http.reads (decimal value)).bind parseU64 = some value := by
  rw [reads_solid (decimal_printable value) fun c member =>
    (digit_printable ((decimal_digits value).2 c member)).2.1, Option.bind_some, parseU64_decimal]

/-- A digest is printable. -/
theorem hex_printable {hash : String} (hex : ∀ c ∈ hash.toList, c ∈ hexDigits) : Printable hash.toList :=
  fun c member => (hexDigits_printable c (hex c member)).1

/-- A digest arrives. -/
theorem reads_hex {hash : String} (hex : ∀ c ∈ hash.toList, c ∈ hexDigits) :
    http.reads hash = some hash :=
  reads_solid (hex_printable hex) fun c member => (hexDigits_printable c (hex c member)).2

/-- The `Content-Range` text is printable. -/
theorem contentRangeText_printable (resumeFrom totalSize : UInt64) :
    Printable (contentRangeText resumeFrom totalSize).toList := by
  intro c member
  have signs : ∀ d ∈ "bytes ".toList ++ "-".toList ++ "/".toList, 32 ≤ d.toNat ∧ d.toNat < 127 :=
    forall_chars (by decide)
  simp only [contentRangeText, String.toList_append, List.mem_append] at member
  rcases member with ((((label | number) | dash) | number) | slash) | number
  · exact signs c (by simp only [List.mem_append, label, true_or])
  · exact decimal_printable _ c number
  · exact signs c (by simp only [List.mem_append, dash, or_true, true_or])
  · exact decimal_printable _ c number
  · exact signs c (by simp only [List.mem_append, slash, or_true])
  · exact decimal_printable _ c number

/-- The `Content-Range` text arrives as it is. -/
theorem reads_contentRangeText (resumeFrom totalSize : UInt64) :
    http.reads (contentRangeText resumeFrom totalSize) = some (contentRangeText resumeFrom totalSize) := by
  have first : ∀ c ∈ (contentRangeText resumeFrom totalSize).toList.head?, c ≠ ' ' := by
    have label : "bytes ".toList = 'b' :: "ytes ".toList := rfl
    simp only [contentRangeText, String.toList_append, label, List.cons_append, List.head?_cons]
    rintro c ⟨rfl⟩
    decide
  have last : ∀ c ∈ (contentRangeText resumeFrom totalSize).toList.getLast?, c ≠ ' ' := by
    intro c found
    obtain ⟨some, digits⟩ := decimal_digits totalSize
    rw [contentRangeText, String.toList_append, List.getLast?_append_of_ne_nil _ some] at found
    exact (digit_printable (digits c (List.mem_of_getLast? found))).2.1
  rw [Http.reads_printable (contentRangeText_printable _ _), received_of_ends first last]

/-- The offset arrives. -/
theorem parseResumeOffset_arrives {headers : TransferHeaders} {resumeFrom totalSize : UInt64}
    (range : headers.contentRange.bind HeaderValue.toStr = some (contentRangeText resumeFrom totalSize)) :
    parseResumeOffset headers = some resumeFrom := by
  have split : (contentRangeText resumeFrom totalSize).toList = "bytes ".toList ++
      ((decimal resumeFrom).toList ++ '-' ::
        ((decimal (.ofNat (totalSize.toNat - 1))).toList ++ '/' :: (decimal totalSize).toList)) := by
    simp [contentRangeText, String.toList_append]
  rw [← String.ofList_toList (s := contentRangeText resumeFrom totalSize), split] at range
  have plain : ∀ c ∈ (decimal resumeFrom).toList, c ≠ '-' := fun c member =>
    (digit_printable ((decimal_digits resumeFrom).2 c member)).2.2
  obtain ⟨value, given, reads⟩ := Option.bind_eq_some_iff.mp range
  rw [parseResumeOffset_range given reads plain, String.ofList_toList, parseU64_decimal]

/-- What is read of a header that may be set. -/
theorem optional_reads {text : Option String} {value : Option HeaderValue}
    (arrives : http.optional text = some value) :
    value.bind HeaderValue.toStr = text.bind http.reads := by
  cases text with
  | none =>
    obtain rfl := Option.some.inj arrives
    rfl
  | some text =>
    obtain ⟨inner, header, rfl⟩ := Option.map_eq_some_iff.mp arrives
    rw [Option.bind_some, Option.bind_some, Http.reads, header, Option.bind_some]

/-- What the receiver reads of the headers of a send. -/
theorem SendHeaders.arriving_reads {headers : SendHeaders} {arrived : TransferHeaders}
    (arrives : headers.arriving http = some arrived) :
    arrived.filename.bind HeaderValue.toStr = http.reads headers.filename ∧
      arrived.totalSize.bind HeaderValue.toStr = http.reads headers.totalSize ∧
      arrived.sha256.bind HeaderValue.toStr = headers.sha256.bind http.reads ∧
      arrived.contentRange.bind HeaderValue.toStr = headers.contentRange.bind http.reads := by
  simp only [arriving, Option.bind_eq_bind, Option.bind_eq_some_iff] at arrives
  obtain ⟨filename, name, totalSize, size, sha256, digest, contentRange, range, same⟩ := arrives
  obtain rfl := Option.some.inj same
  refine ⟨?_, ?_, optional_reads digest, optional_reads range⟩
  · rw [Option.bind_some, Http.reads, name, Option.bind_some]
  · rw [Option.bind_some, Http.reads, size, Option.bind_some]

/-- The name of a send that arrives is legal in a header. -/
theorem SendHeaders.arriving_legal {headers : SendHeaders} {arrived : TransferHeaders}
    (arrives : headers.arriving http = some arrived) : ∃ value, http.header headers.filename = some value := by
  obtain ⟨filename, name, -⟩ := Option.bind_eq_some_iff.mp arrives
  exact ⟨filename, name⟩

/-- An upload the receiver accepts is the one the sender announced. -/
theorem accepted_announced {paths : StoragePaths} {transferId : Uuid} {fileName : String}
    {totalSize : UInt64} {checksum : Option String} {resumeFrom : UInt64}
    {headers : TransferHeaders} {upload : Upload}
    (hex : ∀ hash ∈ checksum, ∀ c ∈ hash.toList, c ∈ hexDigits)
    (arrives : (sendHeaders fileName totalSize checksum resumeFrom).arriving http = some headers)
    (accepted : acceptRequest paths transferId headers = some (.ok upload)) :
    upload.totalSize = totalSize ∧ upload.expectedSha256 = checksum ∧
      upload.resumeOffset = resumeFrom := by
  obtain ⟨-, -, -, -, size, digest, resume⟩ := acceptRequest_ok accepted
  obtain ⟨-, total, hashed, range⟩ := SendHeaders.arriving_reads arrives
  refine ⟨?_, ?_, ?_⟩
  · rw [total, sendHeaders, reads_decimal] at size
    exact (Option.some.inj size).symm
  · rw [digest, hashed]
    cases checksum with
    | none => rfl
    | some hash => exact reads_hex (hex hash rfl)
  · by_cases resumed : resumeFrom > 0
    · simp only [sendHeaders, if_pos resumed, Option.bind_some] at range
      rw [reads_contentRangeText] at range
      rw [resume, parseResumeOffset_arrives range, Option.getD_some]
    · have zero : resumeFrom = 0 := by
        have le := UInt64.not_lt.mp resumed
        exact UInt64.le_antisymm le (UInt64.zero_le)
      simp only [sendHeaders, if_neg resumed, Option.bind_none] at range
      have unread : parseResumeOffset headers = none := by
        simp only [parseResumeOffset, Option.bind_eq_bind, ← Option.bind_assoc, range, Option.bind_none]
      rw [resume, unread, zero]
      rfl

/-- A send of a name that is legal in a header arrives. -/
theorem legal_arrives {fileName : String} {named : HeaderValue} (totalSize : UInt64)
    {checksum : Option String} (resumeFrom : UInt64) (legal : http.header fileName = some named)
    (hex : ∀ hash ∈ checksum, ∀ c ∈ hash.toList, c ∈ hexDigits) :
    ∃ headers, (sendHeaders fileName totalSize checksum resumeFrom).arriving http = some headers := by
  obtain ⟨total, size, -⟩ := @Http.header_printable http _ (decimal_printable totalSize)
  obtain ⟨digest, hashed⟩ : ∃ digest, http.optional checksum = some digest := by
    cases checksum with
    | none => exact ⟨none, rfl⟩
    | some hash =>
      obtain ⟨value, header, -⟩ := @Http.header_printable http _ (hex_printable (hex hash rfl))
      exact ⟨some value, Option.map_eq_some_iff.mpr ⟨value, header, rfl⟩⟩
  obtain ⟨range, ranged⟩ : ∃ range, http.optional
      (if resumeFrom > 0 then some (contentRangeText resumeFrom totalSize) else none) = some range := by
    split
    · obtain ⟨value, header, -⟩ := @Http.header_printable http _ (contentRangeText_printable _ _)
      exact ⟨some value, Option.map_eq_some_iff.mpr ⟨value, header, rfl⟩⟩
    · exact ⟨none, rfl⟩
  refine ⟨⟨some named, some total, digest, range⟩, ?_⟩
  simp only [SendHeaders.arriving, sendHeaders, legal, size, hashed, ranged, Option.bind_eq_bind,
    Option.bind_some]

/-- The receiver accepts it when what it reads of the name sanitizes. -/
theorem legal_accepted (paths : StoragePaths) (transferId : Uuid) {fileName safeName : String}
    {named : HeaderValue} (totalSize : UInt64) {checksum : Option String} (resumeFrom : UInt64)
    (legal : http.header fileName = some named)
    (sanitizes : (http.reads fileName).bind sanitizeFilename = some safeName)
    (hex : ∀ hash ∈ checksum, ∀ c ∈ hash.toList, c ∈ hexDigits) :
    ∃ headers upload, (sendHeaders fileName totalSize checksum resumeFrom).arriving http = some headers ∧
      acceptRequest paths transferId headers = some (.ok upload) ∧ upload.safeName = safeName := by
  obtain ⟨headers, arrives⟩ := legal_arrives totalSize resumeFrom legal hex
  obtain ⟨name, counted, -, -⟩ := SendHeaders.arriving_reads arrives
  obtain ⟨rawFilename, read, sanitized⟩ := Option.bind_eq_some_iff.mp sanitizes
  have size : (headers.totalSize.bind HeaderValue.toStr).bind parseU64 = some totalSize := by
    rw [counted]
    exact reads_decimal totalSize
  exact ⟨headers, _, arrives, acceptRequest_of (name.trans read) size sanitized, rfl⟩

/-- A send of a printable name arrives, and the receiver accepts it. -/
theorem printable_accepted (paths : StoragePaths) (transferId : Uuid) {fileName : String}
    (totalSize : UInt64) {checksum : Option String} (resumeFrom : UInt64)
    (printable : Printable fileName.toList)
    (hex : ∀ hash ∈ checksum, ∀ c ∈ hash.toList, c ∈ hexDigits) :
    ∃ headers upload, (sendHeaders fileName totalSize checksum resumeFrom).arriving http = some headers ∧
      acceptRequest paths transferId headers = some (.ok upload) ∧
      sanitizeFilename (received fileName) = some upload.safeName := by
  have trimmed : Printable (received fileName).toList := fun c member => by
    rw [received, String.toList_ofList] at member
    exact printable c (trimMatches_subset _ _ member)
  obtain ⟨safeName, sanitized⟩ := sanitizeFilename_printable trimmed
  obtain ⟨named, legal, -⟩ := @Http.header_printable http _ printable
  have sanitizes : (http.reads fileName).bind sanitizeFilename = some safeName := by
    rw [Http.reads_printable printable, Option.bind_some, sanitized]
  obtain ⟨headers, upload, arrives, accepted, same⟩ := legal_accepted paths transferId totalSize
    resumeFrom legal sanitizes hex
  exact ⟨headers, upload, arrives, accepted, same ▸ sanitized⟩

end

end FileDrop
