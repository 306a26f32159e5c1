import FileDrop.Core.Utf8
import FileDrop.Foundation.JsonLibrary

/-!
# JSON in bytes

A library that writes and reads characters does so with bytes in UTF-8: no byte of another character looks
like a bracket, a quote or a backslash, so the brackets of the bytes are those of the text.
-/
namespace Json
open FileDrop Unix

/-- A symbol that is nothing to one who looks for brackets may come once or more often. -/
theorem Scan.step_others {scan : Scan} (marks : List Mark) (others : ∀ mark ∈ marks, mark = .other) :
    marks.foldl Scan.step (scan.step .other) = scan.step .other := by
  induction marks with
  | nil => rfl
  | cons mark rest ih =>
    obtain ⟨rfl, later⟩ := List.forall_mem_cons.mp others
    have again : (scan.step .other).step .other = scan.step .other := by
      obtain ⟨depth, part⟩ := scan
      cases part with
      | outside | inside | escaped => rfl
    rw [List.foldl_cons, again, ih later]

/-- The code of what is no ASCII character. -/
theorem Mark.ofCode_wide {code : Nat} (wide : 128 ≤ code) : Mark.ofCode code = .other := by
  unfold Mark.ofCode
  rw [if_neg (by omega), if_neg (by omega), if_neg (by omega), if_neg (by omega)]

/-- The bytes of a character: one that looks like it, or some that look like nothing. -/
theorem marks_char (c : Char) :
    (String.utf8EncodeChar c).map Mark.ofByte = [.ofChar c] ∨
      Mark.ofChar c = .other ∧ ∃ rest, (String.utf8EncodeChar c).map Mark.ofByte = .other :: rest ∧
        ∀ mark ∈ rest, mark = .other := by
  by_cases wide : 128 ≤ c.toNat
  · obtain ⟨some, high⟩ := wide_bytes wide
    obtain ⟨byte, rest, bytes⟩ := List.exists_cons_of_ne_nil some
    rw [bytes] at high ⊢
    obtain ⟨here, later⟩ := List.forall_mem_cons.mp high
    refine .inr ⟨Mark.ofCode_wide wide, rest.map Mark.ofByte, ?_, ?_⟩
    · rw [List.map_cons, Mark.ofByte, Mark.ofCode_wide here]
    · intro mark member
      obtain ⟨byte, listed, rfl⟩ := List.mem_map.mp member
      exact Mark.ofCode_wide (later byte listed)
  · obtain ⟨single, same⟩ := ascii_byte (Nat.lt_of_not_le wide)
    rw [single, List.map_singleton, Mark.ofByte, same]
    exact .inl rfl

/-- The bytes of a text have its brackets. -/
theorem foldl_bytes (scan : Scan) (chars : List Char) :
    ((chars.flatMap String.utf8EncodeChar).map Mark.ofByte).foldl Scan.step scan =
      (chars.map Mark.ofChar).foldl Scan.step scan := by
  induction chars generalizing scan with
  | nil => rfl
  | cons c rest ih =>
    rw [List.flatMap_cons, List.map_append, List.foldl_append, ih, List.map_cons, List.foldl_cons]
    rcases marks_char c with same | ⟨other, more, bytes, others⟩
    · rw [same]
      rfl
    · rw [bytes, List.foldl_cons, Scan.step_others more others, other]

/-- What follows goes on with brackets open. -/
theorem Scan.Open.append {scan : Scan} {first second : List Mark} (all : scan.Open first)
    (later : (first.foldl Scan.step scan).Open second) : scan.Open (first ++ second) := by
  induction first generalizing scan with
  | nil => exact later
  | cons mark rest ih => exact ⟨all.1, ih all.2 later⟩

/-- Where a bracket is open, it stays so through what looks like nothing. -/
theorem Scan.open_others {scan : Scan} (now : 0 < scan.depth) {marks : List Mark}
    (others : ∀ mark ∈ marks, mark = .other) : scan.Open marks := by
  induction marks generalizing scan with
  | nil => exact now
  | cons mark rest ih =>
    obtain ⟨rfl, later⟩ := List.forall_mem_cons.mp others
    refine ⟨now, ih ?_ later⟩
    obtain ⟨depth, part⟩ := scan
    cases part with
    | outside | inside | escaped => exact now

/-- A bracket is open all along the bytes if one is all along the text. -/
theorem Scan.Open.bytes {scan : Scan} {chars : List Char} (all : scan.Open (chars.map Mark.ofChar)) :
    scan.Open ((chars.flatMap String.utf8EncodeChar).map Mark.ofByte) := by
  induction chars generalizing scan with
  | nil => exact all
  | cons c rest ih =>
    have later := ih all.2
    rw [List.flatMap_cons, List.map_append]
    rcases marks_char c with same | ⟨other, more, bytes, others⟩
    · rw [same]
      exact ⟨all.1, later⟩
    · rw [other] at later
      have wide : scan.Open (.other :: more) :=
        scan.open_others all.1 (List.forall_mem_cons.mpr ⟨rfl, others⟩)
      rw [bytes]
      refine wide.append ?_
      rw [List.foldl_cons, Scan.step_others more others]
      exact later

/-- Only the last of a character's bytes can look like something. -/
theorem marks_last (c : Char) : ∃ before final,
    (String.utf8EncodeChar c).map Mark.ofByte = before ++ [final] ∧ ∀ mark ∈ before, mark = .other := by
  rcases marks_char c with same | ⟨-, more, bytes, others⟩
  · exact ⟨[], .ofChar c, same, nofun⟩
  · have all : ∀ mark ∈ Mark.other :: more, mark = .other := List.forall_mem_cons.mpr ⟨rfl, others⟩
    refine ⟨(Mark.other :: more).dropLast, (Mark.other :: more).getLast (List.cons_ne_nil _ _), ?_,
      fun mark member => all mark (List.dropLast_subset _ member)⟩
    rw [bytes, List.dropLast_append_getLast]

/-- A text in brackets is so in bytes. -/
theorem Enclosed.bytes {chars : List Char} (enclosed : Enclosed (chars.map Mark.ofChar)) :
    Enclosed ((chars.flatMap String.utf8EncodeChar).map Mark.ofByte) := by
  obtain ⟨inner, last, split, all⟩ := enclosed
  obtain ⟨first, rest, rfl, opens, ends⟩ := List.map_eq_cons_iff.mp split
  obtain ⟨innerChars, lastChars, rfl, rfl, final⟩ := List.map_eq_append_iff.mp ends
  obtain ⟨lastChar, rfl, -⟩ := List.map_eq_singleton_iff.mp final
  have firstByte : (String.utf8EncodeChar first).map Mark.ofByte = [.opening] := by
    rcases marks_char first with same | ⟨other, -⟩
    · rw [same, opens]
    · rw [opens] at other
      cases other
  obtain ⟨before, final, lastBytes, others⟩ := marks_last lastChar
  refine ⟨(innerChars.flatMap String.utf8EncodeChar).map Mark.ofByte ++ before, final, ?_,
    all.bytes.append (Scan.open_others all.bytes.after others)⟩
  rw [List.flatMap_cons, List.flatMap_append, List.flatMap_singleton, List.map_append, List.map_append, firstByte,
    lastBytes, List.append_assoc, List.singleton_append]

/-- A library for characters, used for bytes in UTF-8. -/
def Codec.inUtf8 {Item : Type} (codec : Codec Mark.ofChar Item) : Codec Mark.ofByte Item where
  write item := (codec.write item).map fun text => asBytes (.ofList text)
  read bytes :=
    match fromUtf8 bytes with
    | some text => codec.read text
    | none => .error "invalid UTF-8"
  roundTrip item bytes written := by
    obtain ⟨text, wrote, rfl⟩ := map_eq_ok written
    simp only [fromUtf8_asBytes, String.toList_ofList]
    exact codec.roundTrip item text wrote
  enclosed item bytes written := by
    obtain ⟨text, wrote, rfl⟩ := map_eq_ok written
    rw [asBytes_ofList]
    exact (codec.enclosed item text wrote).bytes
  closed bytes item read := by
    split at read
    · rename_i text decoded
      have encoded : asBytes (.ofList text) = bytes := by
        rw [asBytes, String.toByteArray_ofList, utf8Encode_of_fromUtf8 decoded]
      obtain ⟨some, even⟩ := codec.closed text item read
      rw [← encoded, asBytes_ofList]
      refine ⟨?_, by rw [foldl_bytes]; exact even⟩
      intro none
      rw [List.map_eq_nil_iff, ← asBytes_ofList] at none
      have empty : String.ofList text = .ofList [] := asBytes_injective none
      exact some (List.map_eq_nil_iff.mpr (String.ofList_injective empty))
    · cases read

end Json
