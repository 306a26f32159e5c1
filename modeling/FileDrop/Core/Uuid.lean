import Mathlib.Data.BitVec

/-!
# Identifiers

A `Uuid` is 128 bits, and its text is the hyphenated lower-case form that the staging names,
the URLs and the error messages use.
-/
namespace FileDrop

/-- The lower-case hexadecimal digits. -/
def hexDigits : List Char :=
  ['0', '1', '2', '3', '4', '5', '6', '7', '8', '9', 'a', 'b', 'c', 'd', 'e', 'f']

/-- The digit of a value below sixteen. -/
def hexDigit (value : Nat) : Char := hexDigits.getD value '0'

/-- A digit is one of the digits. -/
theorem hexDigit_mem (value : Nat) : hexDigit value ∈ hexDigits := by
  unfold hexDigit
  rw [List.getD_eq_getElem?_getD]
  cases found : hexDigits[value]? with
  | none => decide
  | some digit => exact List.mem_of_getElem? found

/-- `uuid::Uuid`. -/
structure Uuid where
  /-- The sixteen bytes, most significant first. -/
  bits : BitVec 128
  deriving DecidableEq, Repr

namespace Uuid

/-- The digit at a position, counted from the most significant. -/
def nibble (id : Uuid) (position : Nat) : Nat :=
  (id.bits >>> (4 * (31 - position))).toNat % 16

/-- The digits of a range of positions. -/
def digits (id : Uuid) (start count : Nat) : List Char :=
  (List.range' start count).map fun position => hexDigit (id.nibble position)

/-- `Display`: five groups of digits with hyphens between them. -/
def toText (id : Uuid) : String :=
  String.ofList (id.digits 0 8 ++ '-' :: id.digits 8 4 ++ '-' :: id.digits 12 4 ++
    '-' :: id.digits 16 4 ++ '-' :: id.digits 20 12)

/-- The text has digits and hyphens only. -/
theorem toText_chars {id : Uuid} {c : Char} (member : c ∈ id.toText.toList) :
    c = '-' ∨ c ∈ hexDigits := by
  have listed {start count : Nat} (digit : c ∈ id.digits start count) : c ∈ hexDigits := by
    obtain ⟨position, -, rfl⟩ := List.mem_map.mp digit
    exact hexDigit_mem _
  rw [toText, String.toList_ofList] at member
  simp only [List.mem_append, List.mem_cons] at member
  rcases member with (((digit | rfl | digit) | rfl | digit) | rfl | digit) | rfl | digit <;>
    first
      | exact .inl rfl
      | exact .inr (listed digit)

/-- Digits of values below sixteen tell the values apart. -/
theorem hexDigit_inj : ∀ left < 16, ∀ right < 16, hexDigit left = hexDigit right → left = right := by
  decide

/-- A bit of an identifier is a bit of one of its digits. -/
theorem getLsbD_nibble (id : Uuid) {bit : Nat} (inside : bit < 128) :
    id.bits.getLsbD bit = (id.nibble (31 - bit / 4)).testBit (bit % 4) := by
  have within : bit % 4 < 4 := Nat.mod_lt _ (by decide)
  have place : 4 * (31 - (31 - bit / 4)) + bit % 4 = bit := by omega
  have sixteen : (16 : Nat) = 2 ^ 4 := rfl
  rw [nibble, sixteen, Nat.testBit_mod_two_pow, decide_eq_true within, Bool.true_and,
    BitVec.testBit_toNat, BitVec.getLsbD_ushiftRight, place]

/-- Different identifiers have different texts. -/
theorem toText_injective : Function.Injective toText := by
  intro left right same
  have lengths (id : Uuid) (start count : Nat) : (id.digits start count).length = count := by
    simp [digits]
  have chars := String.ofList_injective same
  simp only [List.append_assoc, List.cons_append] at chars
  obtain ⟨first, chars⟩ := List.append_inj chars (by simp [lengths])
  obtain ⟨second, chars⟩ := List.append_inj (List.cons.inj chars).2 (by simp [lengths])
  obtain ⟨third, chars⟩ := List.append_inj (List.cons.inj chars).2 (by simp [lengths])
  obtain ⟨fourth, chars⟩ := List.append_inj (List.cons.inj chars).2 (by simp [lengths])
  have fifth := (List.cons.inj chars).2
  have listed {start count position : Nat} (group : left.digits start count = right.digits start count)
      (after : start ≤ position) (before : position < start + count) :
      left.nibble position = right.nibble position := by
    have digit := List.map_inj_left.mp group position (List.mem_range'_1.mpr ⟨after, before⟩)
    exact hexDigit_inj _ (Nat.mod_lt _ (by decide)) _ (Nat.mod_lt _ (by decide)) digit
  have nibbles : ∀ position < 32, left.nibble position = right.nibble position := by
    intro position inside
    rcases Nat.lt_or_ge position 8 with low | high
    · exact listed first (by omega) (by omega)
    rcases Nat.lt_or_ge position 12 with low | high
    · exact listed second (by omega) (by omega)
    rcases Nat.lt_or_ge position 16 with low | high
    · exact listed third (by omega) (by omega)
    rcases Nat.lt_or_ge position 20 with low | high
    · exact listed fourth (by omega) (by omega)
    · exact listed fifth (by omega) (by omega)
  have bits : left.bits = right.bits := by
    refine BitVec.eq_of_getLsbD_eq fun bit inside => ?_
    rw [getLsbD_nibble left inside, getLsbD_nibble right inside, nibbles _ (by omega)]
  cases left
  cases right
  exact congrArg Uuid.mk bits

/-! ## Reading -/

/-- The value of a hexadecimal digit. -/
def hexValue (c : Char) : Nat := hexDigits.idxOf c

/-- The value of hexadecimal digits. -/
def ofHex (digits : List Char) : Nat := digits.foldl (fun value c => 16 * value + hexValue c) 0

/-- A digit has the value it was made of. -/
theorem hexValue_hexDigit : ∀ value < 16, hexValue (hexDigit value) = value := by
  decide

/-- The first digits have the value of the first bits. -/
theorem ofHex_digits (id : Uuid) {count : Nat} (within : count ≤ 32) :
    ofHex (id.digits 0 count) = id.bits.toNat / 16 ^ (32 - count) := by
  induction count with
  | zero =>
    have bounded := id.bits.isLt
    have whole : (16 : Nat) ^ 32 = 2 ^ 128 := by decide
    rw [Nat.sub_zero, whole, Nat.div_eq_of_lt bounded]
    rfl
  | succ count ih =>
    have last : id.digits 0 (count + 1) = id.digits 0 count ++ [hexDigit (id.nibble count)] := by
      simp only [digits, List.range'_concat, List.map_append, List.map_singleton, Nat.zero_add, Nat.one_mul]
    have place : 4 * (31 - count) = 4 * (32 - (count + 1)) := by omega
    have power : 2 ^ (4 * (31 - count)) = 16 ^ (32 - (count + 1)) := by
      rw [place, Nat.pow_mul]
    have nibble : id.nibble count = id.bits.toNat / 16 ^ (32 - (count + 1)) % 16 := by
      rw [Uuid.nibble, BitVec.toNat_ushiftRight, Nat.shiftRight_eq_div_pow, power]
    have split : 16 ^ (32 - count) = 16 ^ (32 - (count + 1)) * 16 := by
      rw [← Nat.pow_succ]
      congr 1
      omega
    have value : hexValue (hexDigit (id.nibble count)) = id.nibble count :=
      hexValue_hexDigit _ (Nat.mod_lt _ (by decide))
    have step : ofHex (id.digits 0 (count + 1)) =
        16 * ofHex (id.digits 0 count) + hexValue (hexDigit (id.nibble count)) := by
      rw [last, ofHex, List.foldl_append]
      rfl
    rw [step, ih (by omega), value, nibble, split, ← Nat.div_div_eq_div_mul]
    omega

/-- The hyphenated form that `Uuid::parse_str` reads, among others. -/
def parseHyphenated (text : String) : Option Uuid :=
  let id : Uuid := ⟨.ofNat 128 (ofHex (text.toList.filter (· ≠ '-')))⟩
  if id.toText = text then some id else none

/-- What is displayed is read back. -/
theorem parseHyphenated_toText (id : Uuid) : parseHyphenated id.toText = some id := by
  have plain (start count : Nat) : (id.digits start count).filter (· ≠ '-') = id.digits start count := by
    refine List.filter_eq_self.mpr fun c member => ?_
    obtain ⟨position, -, rfl⟩ := List.mem_map.mp member
    have apart : ∀ c ∈ hexDigits, c ≠ '-' := by simp [hexDigits]
    exact decide_eq_true (apart _ (hexDigit_mem _))
  have joined (start first second : Nat) :
      id.digits start first ++ id.digits (start + first) second = id.digits start (first + second) := by
    rw [digits, digits, ← List.map_append, List.range'_append_1]
    rfl
  have chars : id.toText.toList.filter (· ≠ '-') = id.digits 0 32 := by
    rw [toText, String.toList_ofList]
    simp only [List.filter_append, List.filter_cons, plain, ne_eq, not_true_eq_false, decide_false,
      Bool.false_eq_true, if_false]
    simp only [joined 0 8 4, joined 0 12 4, joined 0 16 4, joined 0 20 12]
  have bits : ofHex (id.digits 0 32) = id.bits.toNat := by
    rw [ofHex_digits id (Nat.le_refl 32), Nat.sub_self, Nat.pow_zero, Nat.div_one]
  have same : (⟨.ofNat 128 (ofHex (id.toText.toList.filter (· ≠ '-')))⟩ : Uuid) = id := by
    rw [chars, bits, BitVec.ofNat_toNat, BitVec.setWidth_eq]
  simp only [parseHyphenated, same, if_true]
end Uuid

end FileDrop
