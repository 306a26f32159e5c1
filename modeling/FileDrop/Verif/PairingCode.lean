import FileDrop.Pairing.Qr
import FileDrop.Verif.LivePayload

/-!
# From one device's screen to the other's camera

Whatever the JSON library looks like inside: a scanner that got only a part of a code reads nothing from it,
and one that got all of it reads the payload that was shown. So whatever was read carries the token of the
peer's request, which is accepted until the request expires.
-/
namespace FileDrop.PairingCode
open FileDrop QrPairingPayload LivePayload

section

variable {serde : Serde} {payload found : QrPairingPayload} {code : String} {front rest : List Char}

/-- Whatever is read from a part of a code is its payload, and the part is all of it. -/
theorem whole_of_read (printed : payload.toQrString serde = .ok code) (split : code.toList = front ++ rest)
    (read : fromQrString serde (.ofList front) = .ok found) : rest = [] ∧ found = payload := by
  have written := toQrString_ok printed
  have scanned := fromQrString_ok.mp read
  rw [split] at written
  rw [String.toList_ofList] at scanned
  exact serde.whole written scanned

/-- What the front of a code is read as: the payload exactly when nothing is missing, and never another
one. -/
theorem fromQrString_front_iff (serde : Serde) (printed : payload.toQrString serde = .ok code)
    (split : code.toList = front ++ rest) :
    fromQrString serde (.ofList front) = .ok found ↔ rest = [] ∧ found = payload := by
  refine ⟨whole_of_read printed split, ?_⟩
  rintro ⟨rfl, rfl⟩
  have written := toQrString_ok printed
  rw [split, List.append_nil] at written
  rw [fromQrString_ok, String.toList_ofList]
  exact serde.roundTrip found front written

end

/-- A payload with a name that has quotes, a line break and a character beyond the first plane. -/
def samplePayload : QrPairingPayload :=
  ⟨1, ⟨0x6f1c2b9a4d3e4f5a8b7c6d5e4f3a2b1c⟩, "the \"big\"\n💻", "192.168.1.42", 53317, "abc", 1758150000⟩

/-- Its code is read, and not without its last character. -/
theorem fromQrString_front_iff_sample : ∃ code, samplePayload.toQrString compactSerde = .ok code ∧
    fromQrString compactSerde code = .ok samplePayload ∧
      fromQrString compactSerde (.ofList code.toList.dropLast) ≠ .ok samplePayload := by
  have printed : samplePayload.toQrString compactSerde = .ok (.ofList (Json.print samplePayload.toJson)) := rfl
  refine ⟨_, printed, ?_, fun read => ?_⟩
  · have whole := (@fromQrString_front_iff samplePayload samplePayload _ _ [] compactSerde printed
      (List.append_nil _).symm).mpr ⟨rfl, rfl⟩
    rwa [String.ofList_toList] at whole
  · have some : (String.ofList (Json.print samplePayload.toJson)).toList ≠ [] :=
      compactSerde.write_ne_nil (toQrString_ok printed)
    have cut := (List.dropLast_append_getLast some).symm
    cases ((fromQrString_front_iff compactSerde printed cut).mp read).1

/-- Whatever a scanner reads from the code of `pair_device`, or from the front of it, names the device that
shows the code and a token for the peer. After any calls that register no new request for the peer, the
token is accepted exactly until the expiry that the request got. -/
theorem scanned_accepted_iff (serde : Serde) (engine : PairingEngine) (choice : PairChoice) (peer : Uuid)
    (name : String) {code : String} {front rest : List Char} {scanned : QrPairingPayload}
    (shown : (engine.pairDevice choice peer name).1.toQrString serde = .ok code)
    (split : code.toList = front ++ rest) (read : fromQrString serde (.ofList front) = .ok scanned)
    {calls : List PairingCall} (others : ∀ call ∈ calls, ¬call.creates peer) (now : Int) :
    scanned.deviceId = engine.deviceId ∧
      ((((engine.pairDevice choice peer name).2.2.after calls).presentToken now peer scanned.token).1 = .ok () ↔
        now < i64Add choice.created 300) := by
  obtain ⟨-, rfl⟩ := whole_of_read shown split read
  exact ⟨rfl, ((waits_pairDevice engine choice peer name).after others).presentToken now⟩

/-- A code that is scanned, and presented by its peer in time. -/
theorem scanned_accepted_iff_sample : ∃ code scanned,
    (sampleEngine.pairDevice sampleChoice samplePeer "phone").1.toQrString compactSerde = .ok code ∧
    fromQrString compactSerde code = .ok scanned ∧ scanned.deviceId = sampleEngine.deviceId ∧
    ((sampleEngine.pairDevice sampleChoice samplePeer "phone").2.2.presentToken 1758150001 samplePeer
      scanned.token).1 = .ok () := by
  obtain ⟨code, shown⟩ : ∃ code,
      (sampleEngine.pairDevice sampleChoice samplePeer "phone").1.toQrString compactSerde = .ok code := ⟨_, rfl⟩
  have split : code.toList = code.toList ++ [] := (List.append_nil _).symm
  have read : fromQrString compactSerde (.ofList code.toList) =
      .ok (sampleEngine.pairDevice sampleChoice samplePeer "phone").1 :=
    fromQrString_ok.mpr (by
      rw [String.toList_ofList]
      exact compactSerde.roundTrip _ _ (toQrString_ok shown))
  have others : ∀ call ∈ ([] : List PairingCall), ¬call.creates samplePeer := by simp
  obtain ⟨named, accepted⟩ := scanned_accepted_iff compactSerde sampleEngine sampleChoice samplePeer "phone"
    shown split read others 1758150001
  rw [String.ofList_toList] at read
  exact ⟨code, _, shown, read, named, accepted.mpr (by decide)⟩

end FileDrop.PairingCode
