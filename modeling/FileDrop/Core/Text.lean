import Mathlib.Algebra.GroupWithZero.Nat
import Mathlib.Data.List.Basic
import Mathlib.Data.List.TakeWhile
import FileDrop.Foundation.FileStore

/-!
# Texts

The parts of `str` and `char` that names, offsets and headers go through. A text is a `String`; where the
code works on characters its list of characters is used, and where it works on bytes their UTF-8 encoding.
A decimal number that the sender writes into a header is the number the receiver reads from it.
-/
namespace FileDrop

open Unix (Bytes)

/-! ## Bytes and characters -/

/-- `str::as_bytes`. -/
def asBytes (text : String) : Bytes := text.toByteArray.data.toList

/-- Two texts with the same bytes are the same text. -/
theorem asBytes_injective {left right : String} (same : asBytes left = asBytes right) :
    left = right := by
  have arrays : left.toByteArray = right.toByteArray := ByteArray.ext (Array.toList_inj.mp same)
  exact String.toByteArray_inj.mp arrays

/-- The bytes of a text are those of its characters in order. -/
theorem asBytes_ofList (chars : List Char) :
    asBytes (String.ofList chars) = chars.flatMap String.utf8EncodeChar := by
  simp [asBytes, List.utf8Encode]

/-- A property of the characters of a closed text is evaluated along the text. -/
theorem forall_chars {text : List Char} {property : Char → Prop} [DecidablePred property]
    (all : text.all (fun c => property c) = true) : ∀ c ∈ text, property c := by
  simpa using all

/-- `char::is_whitespace`: the characters with the Unicode property `White_Space`. -/
def isWhitespace (c : Char) : Bool :=
  let code := c.toNat
  (9 ≤ code && code ≤ 13) || code == 0x20 || code == 0x85 || code == 0xA0 || code == 0x1680 ||
    (0x2000 ≤ code && code ≤ 0x200A) || code == 0x2028 || code == 0x2029 || code == 0x202F ||
    code == 0x205F || code == 0x3000

/-- `char::is_control`: the characters of the general category `Cc`. -/
def isControl (c : Char) : Bool := c.toNat < 32 || (127 ≤ c.toNat && c.toNat < 160)

/-- `str::trim_matches`. -/
def trimMatches (p : Char → Bool) (text : List Char) : List Char :=
  ((text.dropWhile p).reverse.dropWhile p).reverse

/-- What is left has no match at its start. -/
theorem head_trimMatches (p : Char → Bool) (text : List Char) (c : Char) (rest : List Char)
    (trimmed : trimMatches p text = c :: rest) : p c = false := by
  have ending : (trimMatches p text) <+: text.dropWhile p := by
    have suffix := List.dropWhile_suffix p (l := (text.dropWhile p).reverse)
    have reversed := List.reverse_prefix.mpr suffix
    rwa [List.reverse_reverse] at reversed
  obtain ⟨after, joined⟩ := ending
  have head := List.head?_dropWhile_not p text
  rw [← joined, trimmed] at head
  simpa using head

/-- What is left has no match at its end. -/
theorem last_trimMatches (p : Char → Bool) (text : List Char) (c : Char) (rest : List Char)
    (trimmed : (trimMatches p text).reverse = c :: rest) : p c = false := by
  rw [trimMatches, List.reverse_reverse] at trimmed
  have head := List.head?_dropWhile_not p (text.dropWhile p).reverse
  rw [trimmed] at head
  simpa using head

/-- Trimming only takes characters away. -/
theorem trimMatches_subset (p : Char → Bool) (text : List Char) : trimMatches p text ⊆ text := by
  intro c member
  have inner := (List.dropWhile_suffix p).mem (List.mem_reverse.mp member)
  exact (List.dropWhile_suffix p).mem (List.mem_reverse.mp inner)

/-- A text without a match at either end is left as it is. -/
theorem trimMatches_of_ends {p : Char → Bool} {text : List Char}
    (first : ∀ c ∈ text.head?, p c = false) (last : ∀ c ∈ text.getLast?, p c = false) :
    trimMatches p text = text := by
  have keeps (chars : List Char) (ends : ∀ c ∈ chars.head?, p c = false) :
      chars.dropWhile p = chars := by
    cases chars with
    | nil => rfl
    | cons c rest => simp [ends c rfl]
  rw [trimMatches, keeps text first, keeps text.reverse (by simpa using last), List.reverse_reverse]

/-- Matches around a text are trimmed with the matches at its ends. -/
theorem trimMatches_pad {p : Char → Bool} {before after : List Char} (text : List Char)
    (front : ∀ c ∈ before, p c) (back : ∀ c ∈ after, p c) :
    trimMatches p (before ++ text ++ after) = trimMatches p text := by
  unfold trimMatches
  rw [List.append_assoc, List.dropWhile_append_of_pos front, List.dropWhile_append]
  split
  · rename_i empty
    have nothing : text.dropWhile p = [] := List.isEmpty_iff.mp empty
    have all : after.dropWhile p = [] := List.dropWhile_eq_nil_iff.mpr back
    rw [nothing, all]
  · rw [List.reverse_append, List.dropWhile_append_of_pos fun c member =>
      back c (List.mem_reverse.mp member)]

/-- A text is what trimming leaves of it, between matches. -/
theorem trimMatches_split (p : Char → Bool) (text : List Char) :
    ∃ before after, text = before ++ trimMatches p text ++ after ∧ (∀ c ∈ before, p c) ∧
      ∀ c ∈ after, p c := by
  refine ⟨text.takeWhile p, ((text.dropWhile p).reverse.takeWhile p).reverse, ?_,
    fun c member => List.mem_takeWhile_imp member,
    fun c member => List.mem_takeWhile_imp (List.mem_reverse.mp member)⟩
  rw [trimMatches, List.append_assoc, ← List.reverse_append, List.takeWhile_append_dropWhile,
    List.reverse_reverse, List.takeWhile_append_dropWhile]

/-- Something is left exactly when a character does not match. -/
theorem trimMatches_ne_nil (p : Char → Bool) (text : List Char) :
    trimMatches p text ≠ [] ↔ ∃ c ∈ text, p c = false := by
  constructor
  · intro some
    obtain ⟨c, rest, trimmed⟩ := List.exists_cons_of_ne_nil some
    have member : c ∈ trimMatches p text := trimmed ▸ List.mem_cons_self
    exact ⟨c, trimMatches_subset p text member, head_trimMatches p text c rest trimmed⟩
  · rintro ⟨c, member, kept⟩ none
    obtain ⟨before, after, split, front, back⟩ := trimMatches_split p text
    rw [split, none, List.append_nil] at member
    have matched : p c = true := by
      rcases List.mem_append.mp member with early | late
      · exact front c early
      · exact back c late
    rw [kept] at matched
    cases matched

/-! ## Decimal numbers -/

/-- `u64::to_string`. -/
def decimal (value : UInt64) : String := String.ofList (Nat.toDigits 10 value.toNat)

/-- `str::parse::<u64>`: an optional plus sign and decimal digits that do not overflow. -/
def parseU64 (text : String) : Option UInt64 :=
  let digits := match text.toList with
    | '+' :: rest => rest
    | whole => whole
  if digits ≠ [] ∧ digits.all Char.isDigit then
    let value := Nat.ofDigitChars 10 digits 0
    if value < 2 ^ 64 then some (.ofNat value) else none
  else none

/-- The characters of a decimal number are digits, and there is one at least. -/
theorem decimal_digits (value : UInt64) :
    (decimal value).toList ≠ [] ∧ ∀ c ∈ (decimal value).toList, c.isDigit := by
  rw [decimal, String.toList_ofList]
  exact ⟨Nat.toDigits_ne_nil, fun c member =>
    Nat.isDigit_of_mem_toDigits (by decide) (by decide) member⟩

/-- A text of digits is parsed to the number they stand for, when it is one of 64 bits. -/
theorem parseU64_digits {digits : List Char} (some : digits ≠ []) (all : ∀ c ∈ digits, c.isDigit) :
    parseU64 (.ofList digits) = if Nat.ofDigitChars 10 digits 0 < 2 ^ 64 then
      Option.some (.ofNat (Nat.ofDigitChars 10 digits 0)) else none := by
  obtain ⟨c, rest, rfl⟩ := List.exists_cons_of_ne_nil some
  have unsigned : (match c :: rest with
      | '+' :: rest => rest
      | whole => whole) = c :: rest := by
    split
    · rename_i signed
      obtain ⟨rfl, -⟩ := List.cons.inj signed
      have sign := all '+' List.mem_cons_self
      exact absurd sign (by decide)
    · rfl
  unfold parseU64
  rw [String.toList_ofList, unsigned]
  simp only [some, ne_eq, not_false_eq_true, true_and, List.all_eq_true]
  rw [if_pos all]

/-- What is printed is parsed back. -/
theorem parseU64_decimal (value : UInt64) : parseU64 (decimal value) = some value := by
  obtain ⟨some, digits⟩ := decimal_digits value
  rw [decimal, String.toList_ofList] at some digits
  rw [decimal, parseU64_digits some digits, Nat.ofDigitChars_ten_toDigits, if_pos value.toNat_lt,
    UInt64.ofNat_toNat]

/-- A digit is printable, no blank and no dash. -/
theorem digit_printable {c : Char} (digit : c.isDigit) :
    (32 ≤ c.toNat ∧ c.toNat < 127) ∧ c ≠ ' ' ∧ c ≠ '-' := by
  simp only [Char.isDigit, Bool.and_eq_true, decide_eq_true_eq, UInt32.le_iff_toNat_le] at digit
  have low : 48 ≤ c.toNat := digit.1
  have high : c.toNat ≤ 57 := digit.2
  refine ⟨by omega, ?_, ?_⟩ <;> rintro rfl <;> revert low <;> decide

/-! ## Printable texts -/

/-- A printable ASCII text. -/
def Printable (text : List Char) : Prop := ∀ c ∈ text, 32 ≤ c.toNat ∧ c.toNat < 127

/-- An ASCII character is one byte, and the byte gives it back. -/
theorem ascii_byte {c : Char} (ascii : c.toNat < 128) :
    String.utf8EncodeChar c = [.ofNat c.toNat] ∧ (UInt8.ofNat c.toNat).toNat = c.toNat := by
  have small : c.val ≤ 127 := UInt32.le_iff_toNat_le.mpr (by show c.toNat ≤ 127; omega)
  refine ⟨?_, by simp only [UInt8.toNat_ofNat']; omega⟩
  have single : c.utf8Size = 1 := by simp [Char.utf8Size, small]
  rw [String.utf8EncodeChar_eq_singleton single]
  rfl

/-- The bytes of a printable text are its character codes. -/
theorem asBytes_printable {text : List Char} (printable : Printable text) :
    asBytes (.ofList text) = text.map fun c => .ofNat c.toNat := by
  rw [asBytes_ofList]
  induction text with
  | nil => rfl
  | cons c rest ih =>
    obtain ⟨⟨low, high⟩, tail⟩ := List.forall_mem_cons.mp printable
    rw [List.flatMap_cons, (ascii_byte (Nat.lt_succ_of_lt high)).1, ih tail]
    rfl

/-! ## Texts beyond ASCII -/

/-- A character beyond ASCII has only bytes beyond ASCII, and one at least. -/
theorem wide_bytes {c : Char} (wide : 128 ≤ c.toNat) :
    String.utf8EncodeChar c ≠ [] ∧ ∀ byte ∈ String.utf8EncodeChar c, 128 ≤ byte.toNat := by
  have above : ¬c.val.toNat ≤ 0x7f := by
    show ¬c.toNat ≤ 127
    omega
  have reduced (n m : Nat) (base : 128 ≤ n) (fits : n + m < 256) : 128 ≤ (UInt8.ofNat (m + n)).toNat := by
    rw [UInt8.toNat_ofNat', Nat.mod_eq_of_lt (by omega)]
    omega
  unfold String.utf8EncodeChar
  simp only [above, if_false]
  split
  · refine ⟨List.cons_ne_nil _ _, ?_⟩
    simp only [List.forall_mem_cons, List.not_mem_nil, false_imp_iff, implies_true, and_true]
    exact ⟨reduced 0xc0 _ (by decide) (by omega), reduced 0x80 _ (by decide) (by omega)⟩
  · split
    · refine ⟨List.cons_ne_nil _ _, ?_⟩
      simp only [List.forall_mem_cons, List.not_mem_nil, false_imp_iff, implies_true, and_true]
      exact ⟨reduced 0xe0 _ (by decide) (by omega), reduced 0x80 _ (by decide) (by omega),
        reduced 0x80 _ (by decide) (by omega)⟩
    · refine ⟨List.cons_ne_nil _ _, ?_⟩
      simp only [List.forall_mem_cons, List.not_mem_nil, false_imp_iff, implies_true, and_true]
      exact ⟨reduced 0xf0 _ (by decide) (by omega), reduced 0x80 _ (by decide) (by omega),
        reduced 0x80 _ (by decide) (by omega), reduced 0x80 _ (by decide) (by omega)⟩

/-- The bytes of a text are those of its characters. -/
theorem mem_asBytes {text : String} {byte : UInt8} :
    byte ∈ asBytes text ↔ ∃ c ∈ text.toList, byte ∈ String.utf8EncodeChar c := by
  rw [← String.ofList_toList (s := text), asBytes_ofList, List.mem_flatMap, String.toList_ofList]

end FileDrop
