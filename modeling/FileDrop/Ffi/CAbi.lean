import FileDrop.Core.CString
import FileDrop.Ffi.EventJson
import FileDrop.Ffi.Server
import FileDrop.Pairing.Qr
import FileDrop.Storage.HistoryJson

/-!
# The C ABI

The functions of the hand-written ABI: each reads its arguments from C strings, makes one call of `api`,
and answers with a C string of JSON. What a call of `api` returns is the environment's choice; the JSON
library is a parameter.
-/
namespace FileDrop

/-! ## Calls of the API -/

/-- The functions that `transfer_id_fn!` wraps. -/
inductive TransferFn where
  | acceptTransfer
  | rejectTransfer
  | pauseTransfer
  | resumeTransfer
  | cancelTransfer
  deriving DecidableEq, Repr

/-- A call of `api`. -/
inductive ApiCall where
  | initEngine (deviceName appDataDir : String)
  | startServer
  | stopServer
  | startDiscovery (selfDevice : DiscoveredDevice)
  | stopDiscovery
  | getNearbyDevices
  | pairDevice (peerDeviceId : Uuid) (peerName : String)
  | sendFiles (peerAddress : String) (peerPort : UInt16) (peerDeviceId : Uuid) (filePaths : List String)
  | transfer (function : TransferFn) (transferId : Uuid)
  | getTransferStatus (transferId : Uuid)
  | getTransferHistory
  deriving DecidableEq, Repr

/-- `TransferRecordDto`. -/
structure TransferRecordDto where
  id : Uuid
  fileName : String
  fileSizeBytes : UInt64
  peerDeviceId : Uuid
  peerName : String
  outgoing : Bool
  status : TransferRecordStatus
  sha256 : Option String
  startedAt : Int
  completedAt : Int
  savedPath : Option String
  deriving DecidableEq, Repr

/-- What a call returns when it succeeds. -/
def ApiCall.Reply : ApiCall → Type
  | .initEngine .. => Uuid
  | .startServer => ResolvedEndpoint
  | .getNearbyDevices => List DiscoveredDevice
  | .pairDevice .. => QrPairingPayload
  | .sendFiles .. => List Uuid
  | .getTransferStatus _ => TransferProgress × Float
  | .getTransferHistory => List TransferRecordDto
  | .stopServer | .startDiscovery _ | .stopDiscovery | .transfer .. => Unit

/-- What `api` returns, call by call. -/
abbrev Api : Type := (call : ApiCall) → Except String call.Reply

/-! ## Requests -/

/-- A call of the ABI, with its pointers; none is null. -/
inductive AbiCall where
  | initEngine (deviceName appDataDir : Option CString)
  | startServer
  | stopServer
  | startDiscovery (selfDeviceJson : Option CString)
  | stopDiscovery
  | getNearbyDevices
  | pairDevice (peerDeviceId peerName : Option CString)
  | sendFiles (requestJson : Option CString)
  | transfer (function : TransferFn) (transferId : Option CString)
  | getTransferStatus (transferId : Option CString)
  | getTransferHistory

/-- `from_c_string`. -/
def fromCString (ptr : Option CString) : Option String := ptr.bind CString.toStr

/-- `Req`: what is to be sent. -/
structure Req where
  peerAddress : String
  peerPort : UInt16
  peerDeviceId : Uuid
  filePaths : List String
  deriving DecidableEq, Repr

namespace Req

/-- The names of the fields, in the order of the declaration. -/
def fieldNames : List String := ["peer_address", "peer_port", "peer_device_id", "file_paths"]

/-- The object with these fields. -/
def toJson (req : Req) : Json.Value :=
  Json.record fieldNames [.string req.peerAddress, .ofNat req.peerPort.toNat, .string req.peerDeviceId.toText,
    .array (req.filePaths.map .string)]

/-- A list of texts. -/
def textsOfJson : Json.Value → Option (List String)
  | .array items => items.mapM Json.Value.asString
  | _ => none

/-- A request is read from the fields of an object. -/
def ofJson (value : Json.Value) : Option Req :=
  match Json.fields [] fieldNames value with
  | some [peerAddress, peerPort, peerDeviceId, filePaths] => do
    some {
      peerAddress := ← peerAddress.asString
      peerPort := .ofNat (← peerPort.asNat (2 ^ 16))
      peerDeviceId := ← Uuid.parseStr (← peerDeviceId.asString)
      filePaths := ← textsOfJson filePaths }
  | _ => none

/-- Texts are read from their list. -/
theorem textsOfJson_map (texts : List String) : textsOfJson (.array (texts.map .string)) = some texts := by
  show (texts.map Json.Value.string).mapM Json.Value.asString = some texts
  induction texts with
  | nil => rfl
  | cons text rest ih =>
    rw [List.map_cons, List.mapM_cons, ih]
    rfl

/-- A request is read from its object. -/
theorem ofJson_toJson (req : Req) : ofJson req.toJson = some req := by
  have read : Json.fields [] fieldNames req.toJson =
      some [.string req.peerAddress, .ofNat req.peerPort.toNat, .string req.peerDeviceId.toText,
        .array (req.filePaths.map .string)] :=
    Json.fields_record [] (by decide) rfl
  have port := Json.Value.asNat_ofNat req.peerPort.toNat_lt
  rw [ofJson, read]
  simp only [port, textsOfJson_map, Json.Value.asString_string, Uuid.parseStr_toText, Option.bind_eq_bind,
    Option.bind_some, UInt16.ofNat_toNat]

end Req

/-- `serde_json` and `uuid`, as the ABI uses them. -/
structure AbiCrates where
  writer : Json.Writer
  device : Json.Reader DiscoveredDevice.toJson
  req : Json.Reader Req.toJson
  uuid : Uuid.Parser

/-- Libraries of which one writes compact texts. -/
def AbiCrates.compact : AbiCrates where
  writer := .compact
  device := .ofParser DiscoveredDevice.ofJson DiscoveredDevice.ofJson_toJson
  req := .ofParser Req.ofJson Req.ofJson_toJson
  uuid := .allForms

namespace AbiCall

variable (crates : AbiCrates)

/-- A transfer's identifier, or what is answered instead. -/
def transferId (ptr : Option CString) : Except String Uuid :=
  match fromCString ptr with
  | none => .error "invalid transfer_id"
  | some text =>
    match crates.uuid.parseStr text with
    | none => .error "transfer_id is not a valid UUID"
    | some id => .ok id

/-- The call of `api` that is made, or what is answered instead. -/
def received : AbiCall → Except String ApiCall
  | .initEngine deviceName appDataDir =>
    match fromCString deviceName, fromCString appDataDir with
    | none, _ => .error "invalid device_name"
    | some _, none => .error "invalid app_data_dir"
    | some deviceName, some appDataDir => .ok (.initEngine deviceName appDataDir)
  | .startServer => .ok .startServer
  | .stopServer => .ok .stopServer
  | .startDiscovery selfDeviceJson =>
    match fromCString selfDeviceJson with
    | none => .error "invalid self_device_json"
    | some json =>
      match crates.device.read json.toList with
      | .ok d => .ok (.startDiscovery d)
      | .error e => .error ("bad device json: " ++ e)
  | .stopDiscovery => .ok .stopDiscovery
  | .getNearbyDevices => .ok .getNearbyDevices
  | .pairDevice peerDeviceId peerName =>
    match fromCString peerDeviceId, fromCString peerName with
    | some idStr, some name =>
      match crates.uuid.parseStr idStr with
      | none => .error "invalid peer_device_id"
      | some id => .ok (.pairDevice id name)
    | _, _ => .error "invalid arguments"
  | .sendFiles requestJson =>
    match fromCString requestJson with
    | none => .error "invalid request_json"
    | some json =>
      match crates.req.read json.toList with
      | .ok r => .ok (.sendFiles r.peerAddress r.peerPort r.peerDeviceId r.filePaths)
      | .error e => .error ("bad request json: " ++ e)
  | .transfer function id => (transferId crates id).map (.transfer function)
  | .getTransferStatus id => (transferId crates id).map .getTransferStatus
  | .getTransferHistory => .ok .getTransferHistory

end AbiCall

/-! ## Answers -/

/-- `to_c_string`. -/
def toCString (text : String) : CString :=
  match CString.new text with
  | some cstr => cstr
  | none => ⟨asBytes "\x7b\"error\":\"interior NUL in response\"\x7d", by decide +kernel⟩

/-- A text without NUL has a C string, which is read as it. -/
theorem toStr_toCString {text : String} (noNul : '\x00' ∉ text.toList) : (toCString text).toStr = some text := by
  obtain ⟨cstr, made⟩ := Option.isSome_iff_exists.mp ((CString.new_isSome_iff text).mpr noNul)
  rw [toCString, made]
  exact CString.toStr_new made

section

variable (serde : Json.Writer)

/-- `json_err`. -/
def jsonErr (msg : String) : List Char :=
  "\x7b\"ok\":false,\"error\":".toList ++ (serde.write (.string msg)).toOption.getD [] ++ ['}']

/-- An answer that is good, with a value under a name. -/
def okWith (name : String) (value : Json.Value) : List Char :=
  match serde.write value with
  | .ok body => "\x7b\"ok\":true,\"".toList ++ name.toList ++ ['"', ':'] ++ body ++ ['}']
  | .error _ => jsonErr serde "serialization failure"

/-- A list that stands alone. -/
def listed (items : List Json.Value) : List Char :=
  (serde.write (.array items)).toOption.getD ['[', ']']

/-- `ok_or_err`. -/
def okOrErr : Except String Unit → List Char
  | .ok () => "\x7b\"ok\":true\x7d".toList
  | .error e => jsonErr serde e

end

/-- The names of the fields of `ResolvedEndpointDto`, in the order of the declaration. -/
def ResolvedEndpoint.fieldNames : List String := ["address", "port"]

/-- `Serialize`. -/
def ResolvedEndpoint.toJson (endpoint : ResolvedEndpoint) : Json.Value :=
  Json.record fieldNames [.string endpoint.address, .ofNat endpoint.port.toNat]

/-- `Serialize`, with the names of the fields of the record. -/
def TransferRecordDto.toJson (dto : TransferRecordDto) : Json.Value :=
  Json.record TransferRecord.fieldNames [.string dto.id.toText, .string dto.fileName,
    .ofNat dto.fileSizeBytes.toNat, .string dto.peerDeviceId.toText, .string dto.peerName,
    .bool dto.outgoing, .string dto.status.name, .ofNullable dto.sha256,
    .ofInt dto.startedAt, .ofInt dto.completedAt, .ofNullable dto.savedPath]

/-- What is answered to a call of `api` that has returned. -/
def ApiCall.answer (serde : Json.Writer) (write : Float → Option Json.Literal) (call : ApiCall) :
    Except String call.Reply → List Char
  | .error e => jsonErr serde e
  | .ok reply =>
    match call, reply with
    | .initEngine .., (deviceId : Uuid) =>
      "\x7b\"ok\":true,\"device_id\":\"".toList ++ deviceId.toText.toList ++ ['"', '}']
    | .startServer, (endpoint : ResolvedEndpoint) => okWith serde "endpoint" endpoint.toJson
    | .getNearbyDevices, (devices : List DiscoveredDevice) =>
      listed serde (devices.map DiscoveredDevice.toJson)
    | .pairDevice .., (payload : QrPairingPayload) => okWith serde "payload" payload.toJson
    | .sendFiles .., (ids : List Uuid) =>
      okWith serde "transfer_ids" (.array (ids.map fun id => .string id.toText))
    | .getTransferStatus _, (progress : TransferProgress × Float) =>
      okWith serde "progress" (progress.1.toJson write progress.2)
    | .getTransferHistory, (history : List TransferRecordDto) =>
      listed serde (history.map TransferRecordDto.toJson)
    | .stopServer, () | .startDiscovery _, () | .stopDiscovery, () | .transfer .., () =>
      okOrErr serde (.ok ())

/-- A call of the ABI: nothing is called when its arguments are not read. -/
def AbiCall.invoke (crates : AbiCrates) (write : Float → Option Json.Literal) (api : Api)
    (request : AbiCall) : CString :=
  toCString (.ofList (match request.received crates with
    | .ok call => call.answer crates.writer write (api call)
    | .error msg => jsonErr crates.writer msg))

/-- `filedrop_poll_event`, when its `recv` ended with an event or with none. -/
def filedropPollEvent (serde : Json.Writer) (write : Float → Option Json.Literal)
    (event : Option Events.FileDropEvent) : CString :=
  toCString (match event with
    | some e => e.toJson serde write
    | none => "null")

end FileDrop
