import FileDrop.Ffi.CAbi
import FileDrop.Foundation.JsonNesting

/-!
# Through the C ABI

Which calls of the API can be made through the ABI, and what its answers tell. Texts that are arguments of
their own cannot hold a NUL; those inside of a JSON argument can. An answer is the text of a value whatever
the API returns, and tells apart everything that it may return.
-/
namespace FileDrop.AbiCalls
open FileDrop

variable {write : Float → Option Json.Literal}

/-! ## What is answered -/

/-- The value that an answer is the text of. -/
def envelope (write : Float → Option Json.Literal) (call : ApiCall) :
    Except String call.Reply → Json.Value
  | .error e => .object [("ok", .bool false), ("error", .string e)]
  | .ok reply =>
    match call, reply with
    | .initEngine .., (deviceId : Uuid) => .object [("ok", .bool true), ("device_id", .string deviceId.toText)]
    | .startServer, (endpoint : ResolvedEndpoint) =>
      .object [("ok", .bool true), ("endpoint", endpoint.toJson)]
    | .getNearbyDevices, (devices : List DiscoveredDevice) =>
      .array (devices.map DiscoveredDevice.toJson)
    | .pairDevice .., (payload : QrPairingPayload) =>
      .object [("ok", .bool true), ("payload", payload.toJson)]
    | .sendFiles .., (ids : List Uuid) =>
      .object [("ok", .bool true), ("transfer_ids", .array (ids.map fun id => .string id.toText))]
    | .getTransferStatus _, (progress : TransferProgress × Float) =>
      .object [("ok", .bool true), ("progress", progress.1.toJson write progress.2)]
    | .getTransferHistory, (history : List TransferRecordDto) =>
      .array (history.map TransferRecordDto.toJson)
    | .stopServer, () | .startDiscovery _, () | .stopDiscovery, () | .transfer .., () =>
      .object [("ok", .bool true)]

/-- What comes before an error's text. -/
theorem opening_err : "\x7b\"ok\":false,\"error\":".toList = '{' :: (Json.quote "ok" ++
    ':' :: (Json.print (.bool false) ++ ',' :: (Json.quote "error" ++ [':']))) := by
  decide +kernel

/-- What comes before the name of a good value. -/
theorem opening_ok : "\x7b\"ok\":true,\"".toList = '{' :: (Json.quote "ok" ++
    ':' :: (Json.print (.bool true) ++ [',', '"'])) := by
  decide +kernel

/-- The text of an error stands for its envelope. -/
theorem parse_jsonErr (serde : Json.Writer) (msg : String) :
    Json.parse (jsonErr serde msg) = some (.object [("ok", .bool false), ("error", .string msg)]) := by
  obtain ⟨text, written, parsed⟩ := serde.writes (.string msg)
  have members : jsonErr serde msg = '{' :: (Json.quote "ok" ++
      ':' :: (Json.print (.bool false) ++ ',' :: (Json.quote "error" ++ ':' :: (text ++ ['}'])))) := by
    have shown : (serde.write (.string msg)).toOption.getD [] = text := by rw [written]; rfl
    unfold jsonErr
    rw [shown, opening_err]
    -- the names stay as they are: they are not to be spelled out
    generalize Json.quote "ok" = ok
    generalize Json.quote "error" = error
    generalize Json.print (.bool false) = false
    simp only [List.cons_append, List.append_assoc, List.nil_append]
  rw [members]
  exact Json.parse_two (Json.parse_print (.bool false)) parsed

/-- A text under a name that is written as it is, after what says that all is well. -/
theorem parse_good {name : String} (plain : name.toList.flatMap Json.escape = name.toList) {body : List Char}
    {value : Json.Value} (parsed : Json.parse body = some value) :
    Json.parse ("\x7b\"ok\":true,\"".toList ++ name.toList ++ ['"', ':'] ++ body ++ ['}']) =
      some (.object [("ok", .bool true), (name, value)]) := by
  have quoted : Json.quote name = '"' :: (name.toList ++ ['"']) := by rw [Json.quote, plain]
  have members : "\x7b\"ok\":true,\"".toList ++ name.toList ++ ['"', ':'] ++ body ++ ['}'] =
      '{' :: (Json.quote "ok" ++
        ':' :: (Json.print (.bool true) ++ ',' :: (Json.quote name ++ ':' :: (body ++ ['}'])))) := by
    rw [quoted, opening_ok]
    generalize Json.quote "ok" = ok
    generalize Json.print (.bool true) = true
    simp only [List.cons_append, List.append_assoc, List.nil_append]
  rw [members]
  exact Json.parse_two (Json.parse_print (.bool true)) parsed

/-- So does that of a value under a name. -/
theorem parse_okWith (serde : Json.Writer) {name : String}
    (plain : name.toList.flatMap Json.escape = name.toList) (value : Json.Value) :
    Json.parse (okWith serde name value) = some (.object [("ok", .bool true), (name, value)]) := by
  obtain ⟨body, written, parsed⟩ := serde.writes value
  simp only [okWith, written]
  exact parse_good plain parsed

/-- So does that of a list. -/
theorem parse_listed (serde : Json.Writer) (items : List Json.Value) :
    Json.parse (listed serde items) = some (.array items) := by
  obtain ⟨text, written, parsed⟩ := serde.writes (.array items)
  rw [listed, written]
  exact parsed

/-- An identifier is written as it is. -/
theorem plain_toText (id : Uuid) : id.toText.toList.flatMap Json.escape = id.toText.toList := by
  have digits : ∀ c ∈ '-' :: hexDigits, Json.escape c = [c] := Json.forall_of_all (by decide)
  have plain : ∀ c ∈ id.toText.toList, Json.escape c = [c] := by
    intro c member
    rcases Uuid.toText_chars member with rfl | digit
    · exact digits _ List.mem_cons_self
    · exact digits c (List.mem_cons_of_mem _ digit)
  rw [List.flatMap_congr plain, List.flatMap_singleton']

/-- What comes before an engine's identifier. -/
theorem opening_device : "\x7b\"ok\":true,\"device_id\":\"".toList =
    "\x7b\"ok\":true,\"".toList ++ "device_id".toList ++ ['"', ':'] ++ ['"'] := by
  decide +kernel

/-- The identifier of an engine stands in its answer as a text would. -/
theorem parse_deviceId (id : Uuid) :
    Json.parse ("\x7b\"ok\":true,\"device_id\":\"".toList ++ id.toText.toList ++ ['"', '}']) =
      some (.object [("ok", .bool true), ("device_id", .string id.toText)]) := by
  have text : Json.print (.string id.toText) = '"' :: (id.toText.toList ++ ['"']) := by
    rw [Json.print, Json.quote, plain_toText]
  have plain : "device_id".toList.flatMap Json.escape = "device_id".toList := by decide +kernel
  have members : "\x7b\"ok\":true,\"device_id\":\"".toList ++ id.toText.toList ++ ['"', '}'] =
      "\x7b\"ok\":true,\"".toList ++ "device_id".toList ++ ['"', ':'] ++ Json.print (.string id.toText) ++
        ['}'] := by
    rw [text, opening_device]
    generalize "\x7b\"ok\":true,\"".toList = opening
    generalize "device_id".toList = name
    simp only [List.append_assoc, List.cons_append, List.nil_append]
  rw [members]
  exact parse_good plain (Json.parse_print (.string id.toText))

/-- So does an answer without a value. -/
theorem parse_done : Json.parse "\x7b\"ok\":true\x7d".toList = some (.object [("ok", .bool true)]) := by
  have text : "\x7b\"ok\":true\x7d".toList = Json.print (.object [("ok", .bool true)]) := by decide +kernel
  rw [text, Json.parse_print]

/-- Every answer stands for its envelope. -/
theorem parse_answer (serde : Json.Writer) (call : ApiCall) (result : Except String call.Reply) :
    Json.parse (call.answer serde write result) = some (envelope write call result) := by
  cases result with
  | error e => exact parse_jsonErr serde e
  | ok reply =>
    cases call with
    | initEngine => exact parse_deviceId reply
    | startServer => exact parse_okWith serde (by decide +kernel) _
    | pairDevice => exact parse_okWith serde (by decide +kernel) _
    | sendFiles => exact parse_okWith serde (by decide +kernel) _
    | getTransferStatus => exact parse_okWith serde (by decide +kernel) _
    | getNearbyDevices | getTransferHistory => exact parse_listed serde _
    | stopServer | startDiscovery | stopDiscovery | transfer =>
      exact parse_done

/-! ## What an answer tells -/

/-- A rate that is returned has a text. -/
def Finite (write : Float → Option Json.Literal) {call : ApiCall} : Except String call.Reply → Prop :=
  match call with
  | .getTransferStatus _ => fun (result : Except String (TransferProgress × Float)) =>
    ∀ progress, result = .ok progress → (write progress.2).isSome
  | .initEngine .. | .startServer | .stopServer | .startDiscovery _ | .stopDiscovery | .getNearbyDevices
  | .pairDevice .. | .sendFiles .. | .transfer .. | .getTransferHistory => fun _ => True

theorem device_injective : Function.Injective DiscoveredDevice.toJson := fun left right same =>
  Option.some.inj <| by
    rw [← DiscoveredDevice.ofJson_toJson left, same, DiscoveredDevice.ofJson_toJson]

theorem endpoint_injective : Function.Injective ResolvedEndpoint.toJson := by
  intro ⟨address, port⟩ ⟨address', port'⟩ same
  have fields := (Json.record_inj rfl rfl).mp same
  simp only [List.cons.injEq, Json.Value.string.injEq, Json.Value.ofNat_inj, UInt16.toNat_inj,
    and_true] at fields
  obtain ⟨rfl, rfl⟩ := fields
  rfl

theorem payload_injective : Function.Injective QrPairingPayload.toJson := by
  intro ⟨version, deviceId, deviceName, address, port, token, expiresAt⟩
    ⟨version', deviceId', deviceName', address', port', token', expiresAt'⟩ same
  have fields := (Json.record_inj rfl rfl).mp same
  simp only [List.cons.injEq, Json.Value.string.injEq, Json.Value.ofNat_inj, Json.Value.ofInt_inj,
    UInt8.toNat_inj, UInt16.toNat_inj, Uuid.toText_injective.eq_iff, and_true] at fields
  obtain ⟨rfl, rfl, rfl, rfl, rfl, rfl, rfl⟩ := fields
  rfl

theorem recordStatus_injective : Function.Injective TransferRecordStatus.name := fun left right same =>
  Option.some.inj <| by
    rw [← TransferRecordStatus.ofName_name left, same, TransferRecordStatus.ofName_name]

theorem record_injective : Function.Injective TransferRecordDto.toJson := by
  intro ⟨id, fileName, fileSizeBytes, peerDeviceId, peerName, outgoing, status, sha256, startedAt,
      completedAt, savedPath⟩
    ⟨id', fileName', fileSizeBytes', peerDeviceId', peerName', outgoing', status', sha256', startedAt',
      completedAt', savedPath'⟩ same
  have fields := (Json.record_inj rfl rfl).mp same
  simp only [List.cons.injEq, Json.Value.string.injEq, Json.Value.bool.injEq, Json.Value.ofNat_inj,
    Json.Value.ofInt_inj, Json.Value.ofNullable_inj, UInt64.toNat_inj, Uuid.toText_injective.eq_iff,
    recordStatus_injective.eq_iff, and_true] at fields
  obtain ⟨rfl, rfl, rfl, rfl, rfl, rfl, rfl, rfl, rfl, rfl, rfl⟩ := fields
  rfl

theorem status_injective : Function.Injective TransferStatus.name := by
  intro left right same
  cases left <;> cases right <;> simp [TransferStatus.name] at same ⊢

/-- Two progresses that are written alike are the same, if the rate of one has a text. -/
theorem progress_injective
    (distinct : ∀ left right literal, write left = some literal → write right = some literal → left = right)
    {left right : TransferProgress × Float} (finite : (write left.2).isSome)
    (same : left.1.toJson write left.2 = right.1.toJson write right.2) : left = right := by
  obtain ⟨⟨transferId, fileName, bytesTransferred, totalBytes, status, error⟩, rate⟩ := left
  obtain ⟨⟨transferId', fileName', bytesTransferred', totalBytes', status', error'⟩, rate'⟩ := right
  have fields := (Json.record_inj rfl rfl).mp same
  simp only [List.cons.injEq, Json.Value.string.injEq, Json.Value.ofNat_inj, Json.Value.ofNullable_inj,
    UInt64.toNat_inj, Uuid.toText_injective.eq_iff, status_injective.eq_iff, and_true] at fields
  obtain ⟨rfl, rfl, rfl, rfl, rfl, rates, rfl⟩ := fields
  obtain ⟨literal, text⟩ := Option.isSome_iff_exists.mp finite
  simp only [rateToJson, text] at rates
  split at rates
  · rename_i other text'
    obtain rfl := Json.Value.number.inj rates
    rw [distinct rate rate' literal text text']
  · cases rates

/-- An error is no success. -/
theorem error_ne_ok {call : ApiCall} {e : String} {reply : call.Reply} :
    envelope write call (.error e) ≠ envelope write call (.ok reply) := by
  intro same
  cases call with
  | getNearbyDevices | getTransferHistory => cases same
  | initEngine | startServer | pairDevice | sendFiles | getTransferStatus | stopServer | startDiscovery
  | stopDiscovery | transfer => exact absurd (Json.Value.object.inj same) (by simp)

/-- What an envelope holds under the name of its value. -/
theorem value_of_envelope {name : String} {left right : Json.Value}
    (same : Json.Value.object [("ok", .bool true), (name, left)] = .object [("ok", .bool true), (name, right)]) :
    left = right := by
  simpa using same

/-- Different results have different envelopes. -/
theorem envelope_injective
    (distinct : ∀ left right literal, write left = some literal → write right = some literal → left = right)
    {call : ApiCall} {left right : Except String call.Reply} (finite : Finite write left)
    (same : envelope write call left = envelope write call right) : left = right := by
  cases left with
  | error e =>
    cases right with
    | error e' =>
      have texts : e = e' := by simpa [envelope] using same
      rw [texts]
    | ok reply => exact absurd same error_ne_ok
  | ok reply =>
    cases right with
    | error e => exact absurd same.symm error_ne_ok
    | ok reply' =>
      refine congrArg Except.ok ?_
      cases call with
      | initEngine => exact Uuid.toText_injective (Json.Value.string.inj (value_of_envelope same))
      | startServer => exact endpoint_injective (value_of_envelope same)
      | pairDevice => exact payload_injective (value_of_envelope same)
      | sendFiles =>
        have texts : Function.Injective fun id : Uuid => Json.Value.string id.toText := fun _ _ alike =>
          Uuid.toText_injective (Json.Value.string.inj alike)
        exact texts.list_map (Json.Value.array.inj (value_of_envelope same))
      | getTransferStatus => exact progress_injective distinct (finite reply rfl) (value_of_envelope same)
      | getNearbyDevices => exact device_injective.list_map (Json.Value.array.inj same)
      | getTransferHistory => exact record_injective.list_map (Json.Value.array.inj same)
      | stopServer | startDiscovery | stopDiscovery | transfer => rfl

/-- A C string of a text that stands for a value is read as one. -/
theorem parse_toCString {text : List Char} {value : Json.Value} (parsed : Json.parse text = some value) :
    (toCString (.ofList text)).toStr.map (fun text => Json.parse text.toList) = some (some value) := by
  have noNul : '\x00' ∉ (String.ofList text).toList := by
    rw [String.toList_ofList]
    exact Json.noNul_of_parse parsed
  rw [toStr_toCString noNul, Option.map_some, String.toList_ofList, parsed]

/-- Whatever the JSON library writes, as long as it stands for the value, and whatever numbers look like, as
long as no two rates look alike: the answer to a call of the API stands for its envelope, and it is the
answer to no other result of that call. -/
theorem answers_apart
    (distinct : ∀ left right literal, write left = some literal → write right = some literal → left = right)
    {crates : AbiCrates} {request : AbiCall} {call : ApiCall} (received : request.received crates = .ok call)
    (api : Api) :
    (request.invoke crates write api).toStr.map (fun text => Json.parse text.toList) =
        some (some (envelope write call (api call))) ∧
      ∀ other : Api, Finite write (api call) →
        request.invoke crates write api = request.invoke crates write other → api call = other call := by
  have answered (any : Api) : (request.invoke crates write any).toStr.map (fun text => Json.parse text.toList) =
      some (some (envelope write call (any call))) := by
    rw [AbiCall.invoke, received]
    exact parse_toCString (parse_answer crates.writer call (any call))
  refine ⟨answered api, fun other finite same => envelope_injective distinct finite ?_⟩
  have both := (answered api).symm.trans (same ▸ answered other)
  exact Option.some.inj (Option.some.inj both)

/-- Two errors that differ in a quote are told apart. -/
theorem answers_apart_sample : ∃ write : Float → Option Json.Literal,
    AbiCall.stopServer.invoke .compact write (fun _ => .error "a\"b") ≠
      AbiCall.stopServer.invoke .compact write (fun _ => .error "ab") := by
  refine ⟨fun _ => none, fun same => ?_⟩
  have distinct : ∀ (left right : Float) (literal : Json.Literal), none = some literal →
      none = some literal → left = right := by simp
  have received : AbiCall.stopServer.received .compact = .ok .stopServer := rfl
  have apart := (answers_apart distinct received fun _ => .error "a\"b").2 (fun _ => .error "ab") trivial same
  have texts : "a\"b" = "ab" := Except.error.inj apart
  exact absurd texts (by decide)

/-! ## What can be called -/

end FileDrop.AbiCalls
