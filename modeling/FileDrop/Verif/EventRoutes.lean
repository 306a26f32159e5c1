import FileDrop.Ffi.CAbi
import FileDrop.Flutter.EventJson
import FileDrop.Foundation.JsonNesting

/-!
# Two routes of an event

An event reaches the app through the stream of the bridge, or as the text that a poll of the C ABI returns.
Either way it arrives as the same event. Only a rate that is not finite cannot be polled: it is written as
null, which the app does not take for a number.
-/
namespace FileDrop.EventRoutes
open FileDrop Flutter

variable {write : Float → Option Json.Literal} {doubles : Doubles}

/-- What is relied on about numbers: the app decodes the text of a rate as the rate, and gets the greatest
integer from a count beyond its integers. -/
structure Numbers (write : Float → Option Json.Literal) (doubles : Doubles) : Prop where
  rates : ∀ rate literal, write rate = some literal → doubles.ofLiteral literal = rate
  counts : ∀ count : Nat, 2 ^ 63 ≤ count → count < 2 ^ 64 →
    doubles.toInt (doubles.ofLiteral (.ofNat count)) = some (2 ^ 63 - 1)

/-- The rate of an event, if it has one, has a text. -/
def Spelled (write : Float → Option Json.Literal) : Events.FileDropEvent → Bool
  | .transferProgress _ bytesPerSec => (write bytesPerSec).isSome
  | .deviceDiscovered _ | .deviceConnected _ | .pairingRequested .. | .transferStarted ..
  | .transferPaused _ | .transferCompleted .. | .transferFailed .. | .deviceDisconnected _ => true

/-- A count arrives as it does over the bridge. -/
theorem numToInt_count (numbers : Numbers write doubles) (count : UInt64) :
    numToInt doubles (.ofNat count.toNat) = some (toInt count) := by
  have read : Json.Literal.toInt (.ofNat count.toNat) = some (count.toNat : Int) :=
    Json.Literal.toInt_ofInt (count.toNat : Int)
  have wide := count.toNat_lt
  by_cases small : count.toNat < 2 ^ 63
  · have fits : Flutter.asInt (.number (.ofNat count.toNat)) = some (count.toNat : Int) := by
      rw [Flutter.asInt, Json.Value.asInt, read, Option.bind_some, if_pos (by omega)]
    have same : toInt count = count.toNat := by
      unfold toInt
      omega
    rw [Json.Value.ofNat, numToInt, fits, same, Option.some_or]
  · have large : Flutter.asInt (.number (.ofNat count.toNat)) = none := by
      rw [Flutter.asInt, Json.Value.asInt, read, Option.bind_some, if_neg (by omega)]
    have same : toInt count = 2 ^ 63 - 1 := by
      unfold toInt
      omega
    rw [Json.Value.ofNat, numToInt, large, same, Option.none_or]
    exact numbers.counts count.toNat (by omega) wide

/-- A device arrives as it does over the bridge. -/
theorem device_fromJson (device : DiscoveredDevice) :
    (asMap device.toJson).bind Device.fromJson = some (deviceFromDto device) := by
  have bound := device.port.toNat_lt
  have port : Flutter.asInt (.ofNat device.port.toNat) = some (device.port.toNat : Int) := by
    have read := @Json.Value.asInt_ofInt 64 device.port.toNat (by omega) (by omega)
    exact read
  simp [asMap, DiscoveredDevice.toJson, DiscoveredDevice.fieldNames, Json.record, Device.fromJson,
    Json.lookup, port, asBoolOrFalse, deviceFromDto]

/-- A status arrives as it is. -/
@[simp] theorem fromWire_name (status : TransferStatus) : fromWire status.name = status := by
  cases status with
  | queued | connecting | inProgress | paused | completed | failed | cancelled => rfl

/-- A progress arrives as it does over the bridge, unless its rate has no text. -/
theorem progress_fromJson (numbers : Numbers write doubles) (progress : FileDrop.TransferProgress)
    (bytesPerSec : Float) :
    (asMap (progress.toJson write bytesPerSec)).bind (TransferProgress.fromJson doubles) =
      if (write bytesPerSec).isSome then some (progressFromDto progress bytesPerSec) else none := by
  have counts := numToInt_count numbers
  cases written : write bytesPerSec with
  | none =>
    simp [asMap, FileDrop.TransferProgress.toJson, FileDrop.TransferProgress.fieldNames, Json.record,
      TransferProgress.fromJson, Json.lookup, counts, rateToJson, written, numToDouble]
  | some literal =>
    have rate := numbers.rates bytesPerSec literal written
    simp [asMap, FileDrop.TransferProgress.toJson, FileDrop.TransferProgress.fieldNames, Json.record,
      TransferProgress.fromJson, Json.lookup, counts, rateToJson, written, numToDouble, rate,
      progressFromDto]

/-- An event arrives as it does over the bridge, unless its rate has no text. -/
theorem event_fromJson (numbers : Numbers write doubles) (event : Events.FileDropEvent) :
    FileDropEvent.fromJson doubles [("type", .string event.type), ("data", .object (event.data write))] =
      if Spelled write event then some (some (ofEvent event)) else none := by
  have type : Json.lookup [("type", .string event.type), ("data", .object (event.data write))] "type" =
      .string event.type := by
    simp [Json.lookup]
  have data : dataOf [("type", .string event.type), ("data", .object (event.data write))] =
      some (event.data write) := by
    simp [dataOf, Json.lookup, asMap]
  rw [FileDropEvent.fromJson, type, data]
  cases event with
  | deviceDiscovered device =>
    have arrives : (asMap device.toJson).bind Device.fromJson = some (deviceFromDto device) :=
      device_fromJson device
    obtain ⟨members, map, read⟩ := Option.bind_eq_some_iff.mp arrives
    simp [Json.Value.asNullable, Events.FileDropEvent.type, Events.FileDropEvent.data, Json.lookup,
      map, read, Spelled, ofEvent]
  | transferProgress progress bytesPerSec =>
    have arrives : (asMap (progress.toJson write bytesPerSec)).bind (TransferProgress.fromJson doubles) =
        if Spelled write (.transferProgress progress bytesPerSec) then
          some (progressFromDto progress bytesPerSec) else none :=
      progress_fromJson numbers progress bytesPerSec
    simp only [Json.Value.asNullable, Events.FileDropEvent.type, Events.FileDropEvent.data, ofEvent,
      Option.bind_eq_bind, Option.bind_some]
    have found : Json.lookup [("progress", progress.toJson write bytesPerSec)] "progress" =
        progress.toJson write bytesPerSec := by
      simp [Json.lookup]
    rw [found, ← Option.bind_assoc, arrives]
    by_cases rate : Spelled write (.transferProgress progress bytesPerSec) = true
    · rw [if_pos rate, if_pos rate]
      rfl
    · rw [if_neg rate, if_neg rate]
      rfl
  | transferStarted transferId fileName totalBytes =>
    simp [Json.Value.asNullable, Events.FileDropEvent.type, Events.FileDropEvent.data, Json.lookup,
      numToInt_count numbers, Spelled, ofEvent]
  | deviceConnected | pairingRequested | transferPaused | transferCompleted | transferFailed
  | deviceDisconnected =>
    simp [Json.Value.asNullable, Events.FileDropEvent.type, Events.FileDropEvent.data, Json.lookup, Spelled,
      ofEvent]

/-- What the app makes of a text that a poll returned: nothing if it is not the text of an object. -/
def received (decoder : Json.Reader (id : Json.Value → Json.Value)) (cstr : CString) : Option JsonMap :=
  (cstr.toStr.bind fun text => (decoder.read text.toList).toOption).bind asMap

/-- A C string of a text that stands for an object is received as the members. -/
theorem received_toCString (decoder : Json.Reader (id : Json.Value → Json.Value)) {text : List Char}
    {value : Json.Value} (parsed : Json.parse text = some value) :
    received decoder (toCString (.ofList text)) = asMap value := by
  have noNul : '\x00' ∉ (String.ofList text).toList := by
    rw [String.toList_ofList]
    exact Json.noNul_of_parse parsed
  rw [received, toStr_toCString noNul, Option.bind_some, String.toList_ofList, decoder.reads value text parsed]
  rfl

/-- Whatever a JSON library writes and another one reads, as long as texts stand for what was written; and
whatever numbers look like, as long as they are read as they were written: an event that a poll returns
is read by the app as the event that the bridge streams, exactly if its rate, where it has one, has a text;
else its reading throws. A poll without an event returns nothing that could be taken for one. -/
theorem polled_as_streamed (serde : Json.Writer) (decoder : Json.Reader (id : Json.Value → Json.Value))
    (numbers : Numbers write doubles) :
    (∀ event, (received decoder (filedropPollEvent serde write (some event))).bind
        (FileDropEvent.fromJson doubles) =
      if Spelled write event then some (some (ofEvent event)) else none) ∧
      received decoder (filedropPollEvent serde write none) = none := by
  refine ⟨fun event => ?_, ?_⟩
  · obtain ⟨text, written, parsed⟩ := serde.writes (event.serialize write)
    have polled : filedropPollEvent serde write (some event) = toCString (.ofList text) := by
      simp only [filedropPollEvent, Events.FileDropEvent.toJson, written, Except.toOption, Option.getD_some]
    rw [polled, received_toCString decoder parsed]
    exact event_fromJson numbers event
  · have null : filedropPollEvent serde write none = toCString (.ofList (Json.print .null)) := rfl
    rw [null, received_toCString decoder (Json.parse_print .null)]
    rfl

/-- The parser, for all values. -/
def anyJson : Json.Reader (id : Json.Value → Json.Value) := .ofParser some fun _ => rfl

/-- A count beyond the integers of the app, and a name with a quote. -/
theorem polled_as_streamed_sample : ∃ write doubles, Numbers write doubles ∧
    (received anyJson (filedropPollEvent .compact write
        (some (.transferStarted ⟨1⟩ "a\"b" 18446744073709551615)))).bind (FileDropEvent.fromJson doubles) =
      some (some (.transferStarted (⟨1⟩ : Uuid).toText "a\"b" 9223372036854775807)) := by
  -- rates do not occur, so none needs a text
  have numbers : Numbers (fun _ => none) ⟨fun _ => 18446744073709551616, fun _ => some (2 ^ 63 - 1)⟩ :=
    ⟨nofun, fun _ _ _ => rfl⟩
  exact ⟨_, _, numbers, (polled_as_streamed .compact anyJson numbers).1 _⟩

end FileDrop.EventRoutes
