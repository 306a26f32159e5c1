import Mathlib.Data.List.Induction
import FileDrop.Core.Text

/-!
# Addresses

The IPv4 addresses of `std::net`, with their display and their parser: four decimal numbers of one to
three digits, none above 255 and none with a leading zero. So an address has one text, and a text that
parses is the text of the address it parses to. The parser of IPv6 addresses is a parameter.
-/
namespace FileDrop

/-! ## Numbers without leading zeros -/

/-- A digit is the digit of its value. -/
theorem digitChar_of_isDigit {c : Char} (digit : c.isDigit = true) :
    (c.toNat - '0'.toNat).digitChar = c ∧ c.toNat - '0'.toNat < 10 := by
  have bounds : 48 ≤ c.toNat ∧ c.toNat ≤ 57 := by
    simpa [Char.isDigit, UInt32.le_iff_toNat_le] using digit
  have zero : '0'.toNat = 48 := rfl
  rw [zero]
  have below : c.toNat - 48 < 10 := by omega
  have value := Nat.toNat_digitChar_of_lt_ten below
  exact ⟨Char.toNat_inj.mp (by omega), below⟩

/-- A number of digits that does not start with zero is not zero. -/
theorem ofDigitChars_pos {first : Char} (rest : List Char) (digit : first.isDigit = true)
    (leading : first ≠ '0') : 0 < Nat.ofDigitChars 10 (first :: rest) 0 := by
  obtain ⟨same, -⟩ := digitChar_of_isDigit digit
  have value : 0 < first.toNat - '0'.toNat := by
    refine Nat.pos_of_ne_zero fun zero => leading ?_
    rw [← same, zero]
    rfl
  rw [Nat.ofDigitChars_cons, Nat.mul_zero, Nat.zero_add, Nat.ofDigitChars_eq_ofDigitChars_zero]
  exact Nat.add_pos_left (Nat.mul_pos (Nat.pow_pos (by decide)) value) _

/-- A number without leading zeros is printed as it was read. -/
theorem toDigits_ofDigitChars {digits : List Char} (some : digits ≠ [])
    (all : ∀ c ∈ digits, c.isDigit) (leading : digits.head? = .some '0' → digits.length = 1) :
    Nat.toDigits 10 (Nat.ofDigitChars 10 digits 0) = digits := by
  induction digits using List.reverseRecOn with
  | nil => exact absurd rfl some
  | append_singleton front last ih =>
    obtain ⟨same, below⟩ := digitChar_of_isDigit (all last (by simp))
    have value : Nat.ofDigitChars 10 (front ++ [last]) 0 =
        10 * Nat.ofDigitChars 10 front 0 + (last.toNat - '0'.toNat) := by
      rw [Nat.ofDigitChars_append, Nat.ofDigitChars_cons, Nat.ofDigitChars_nil]
    rw [value]
    cases front with
    | nil =>
      rw [Nat.ofDigitChars_nil, Nat.mul_zero, Nat.zero_add, Nat.toDigits_of_lt_base below, same]
      rfl
    | cons first rest =>
      have plain : first ≠ '0' := by
        rintro rfl
        have single := leading rfl
        simp at single
      have digits : ∀ c ∈ first :: rest, c.isDigit := fun c member =>
        all c (List.mem_append_left _ member)
      have positive := ofDigitChars_pos rest (digits first List.mem_cons_self) plain
      rw [← Nat.toDigits_append_toDigits (by decide) positive below, Nat.toDigits_of_lt_base below, same,
        ih (List.cons_ne_nil _ _) digits fun zero => absurd (Option.some.inj zero) plain]

/-! ## IPv4 -/

/-- `std::net::Ipv4Addr`. -/
structure Ipv4 where
  a : UInt8
  b : UInt8
  c : UInt8
  d : UInt8
  deriving DecidableEq, Repr

/-- The digits of a part of an address. -/
def octetDigits (octet : UInt8) : List Char := Nat.toDigits 10 octet.toNat

/-- A part of an address: one to three digits, up to 255, without a leading zero. -/
def parseOctet (digits : List Char) : Option UInt8 :=
  if digits ≠ [] ∧ digits.all Char.isDigit ∧ digits.length ≤ 3 ∧
      (digits.head? = some '0' → digits.length = 1) then
    let value := Nat.ofDigitChars 10 digits 0
    if value < 256 then some (.ofNat value) else none
  else none

namespace Ipv4

/-- `Display`. -/
def toText (address : Ipv4) : String :=
  .ofList (['.'].intercalate
    [octetDigits address.a, octetDigits address.b, octetDigits address.c, octetDigits address.d])

/-- `FromStr`. -/
def parse (text : String) : Option Ipv4 :=
  match text.toList.splitOn '.' with
  | [a, b, c, d] => do
    let a ← parseOctet a
    let b ← parseOctet b
    let c ← parseOctet c
    let d ← parseOctet d
    return ⟨a, b, c, d⟩
  | _ => none

end Ipv4

/-- A part that parses is printed as it was. -/
theorem octetDigits_parse {digits : List Char} {octet : UInt8}
    (parsed : parseOctet digits = some octet) : octetDigits octet = digits := by
  unfold parseOctet at parsed
  split at parsed
  · rename_i shape
    obtain ⟨some, all, -, leading⟩ := shape
    simp only at parsed
    split at parsed
    · rename_i below
      rw [← Option.some.inj parsed, octetDigits, UInt8.toNat_ofNat_of_lt' below]
      exact toDigits_ofDigitChars some (List.all_eq_true.mp all) leading
    · cases parsed
  · cases parsed

/-- An address that parses is displayed as it was. -/
theorem Ipv4.toText_parse {text : String} {address : Ipv4} (parsed : parse text = some address) :
    address.toText = text := by
  unfold parse at parsed
  split at parsed
  · rename_i a b c d parts
    simp only [Option.bind_eq_bind, Option.bind_eq_some_iff, Option.pure_def, Option.some.injEq]
      at parsed
    obtain ⟨a', first, b', second, c', third, d', fourth, rfl⟩ := parsed
    rw [toText, octetDigits_parse first, octetDigits_parse second, octetDigits_parse third,
      octetDigits_parse fourth, ← parts, List.intercalate_splitOn, String.ofList_toList]
  · cases parsed

example : Ipv4.parse "192.168.1.20" = some ⟨192, 168, 1, 20⟩ ∧ Ipv4.parse "192.168.01.20" = none := by
  decide +kernel

/-! ## Either kind -/

/-- `std::net::Ipv6Addr`. -/
structure Ipv6 where
  bits : BitVec 128
  deriving DecidableEq, Repr

/-- `std::net::IpAddr`. -/
inductive IpAddr where
  | v4 (address : Ipv4)
  | v6 (address : Ipv6)
  deriving DecidableEq, Repr

/-- `FromStr` of `IpAddr`, with the parser of IPv6 addresses. -/
def IpAddr.parse (parseIpv6 : String → Option Ipv6) (text : String) : Option IpAddr :=
  match Ipv4.parse text with
  | some address => some (.v4 address)
  | none => (parseIpv6 text).map .v6

end FileDrop
