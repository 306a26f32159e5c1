import FileDrop.Core.Uuid

/-!
# Reading identifiers

The texts that `Uuid::parse_str` reads: thirty-two hexadecimal digits in either case, with hyphens or
without, and with hyphens also in braces or as a URN.
-/
namespace FileDrop.Uuid

/-- The value of a hexadecimal digit in either case. -/
def digitValue (c : Char) : Option Nat := hexDigits.idxOf? c.toLower

/-- The identifier of thirty-two digits. -/
def parseSimple (chars : List Char) : Option Uuid :=
  if chars.length = 32 then
    (chars.mapM digitValue).map fun digits =>
      ⟨.ofNat 128 (digits.foldl (fun value digit => 16 * value + digit) 0)⟩
  else none

/-- The hyphenated form. -/
def parseHyphens (chars : List Char) : Option Uuid :=
  if chars.length = 36 ∧ chars[8]? = some '-' ∧ chars[13]? = some '-' ∧ chars[18]? = some '-' ∧
      chars[23]? = some '-' then
    parseSimple (chars.take 8 ++ (chars.drop 9).take 4 ++ (chars.drop 14).take 4 ++
      (chars.drop 19).take 4 ++ chars.drop 24)
  else none

/-- `Uuid::parse_str`. -/
def parseStr (text : String) : Option Uuid :=
  let chars := text.toList
  if chars.length = 32 then parseSimple chars
  else if chars.length = 36 then parseHyphens chars
  else if chars.length = 38 ∧ chars.head? = some '{' ∧ chars.getLast? = some '}' then
    parseHyphens chars.tail.dropLast
  else if chars.length = 45 ∧ chars.take 9 = ['u', 'r', 'n', ':', 'u', 'u', 'i', 'd', ':'] then
    parseHyphens (chars.drop 9)
  else none

/-- A digit is read as its value. -/
theorem digitValue_hexDigit : ∀ value < 16, digitValue (hexDigit value) = some value := by decide

/-- The digits of an identifier are read as their values. -/
theorem mapM_digits (id : Uuid) (positions : List Nat) :
    (positions.map fun position => hexDigit (id.nibble position)).mapM digitValue =
      some (positions.map id.nibble) := by
  induction positions with
  | nil => rfl
  | cons position rest ih =>
    have digit := digitValue_hexDigit (id.nibble position) (Nat.mod_lt _ (by decide))
    rw [List.map_cons, List.mapM_cons, digit, ih]
    rfl

/-- An identifier is read from its digits. -/
theorem parseSimple_digits (id : Uuid) : parseSimple (id.digits 0 32) = some id := by
  have values : ((List.range' 0 32).map id.nibble).foldl (fun value digit => 16 * value + digit) 0 =
      ofHex (id.digits 0 32) := by
    rw [ofHex, digits, List.foldl_map, List.foldl_map]
    refine congrArg (List.foldl · 0 _) (funext fun value => funext fun position => ?_)
    rw [hexValue_hexDigit (id.nibble position) (Nat.mod_lt _ (by decide))]
  have number : ofHex (id.digits 0 32) = id.bits.toNat := by
    rw [ofHex_digits id (Nat.le_refl 32), Nat.sub_self, Nat.pow_zero, Nat.div_one]
  have same : (⟨.ofNat 128 id.bits.toNat⟩ : Uuid) = id := by
    rw [BitVec.ofNat_toNat, BitVec.setWidth_eq]
  have count : (id.digits 0 32).length = 32 := by
    rw [digits, List.length_map, List.length_range']
  rw [parseSimple, if_pos count, digits, mapM_digits, Option.map_some, values, number, same]

/-- Five groups of digits with hyphens between them. -/
theorem parseHyphens_groups {first second third fourth last : List Char} (one : first.length = 8)
    (two : second.length = 4) (three : third.length = 4) (four : fourth.length = 4)
    (five : last.length = 12) :
    parseHyphens (first ++ '-' :: (second ++ '-' :: (third ++ '-' :: (fourth ++ '-' :: last)))) =
      parseSimple (first ++ (second ++ (third ++ (fourth ++ last)))) := by
  have gone (chars : List Char) (count : Nat) (short : chars.length ≤ count) : chars.drop count = [] :=
    List.drop_of_length_le short
  simp [parseHyphens, List.drop_append, one, two, three, four, five,
    gone first 9 (by omega), gone first 14 (by omega), gone first 19 (by omega), gone first 24 (by omega),
    gone second 5 (by omega), gone second 10 (by omega), gone second 15 (by omega),
    gone third 5 (by omega), gone third 10 (by omega), gone fourth 5 (by omega)]

/-- What is displayed is read back. -/
theorem parseStr_toText (id : Uuid) : parseStr id.toText = some id := by
  have count {start number : Nat} : (id.digits start number).length = number := by
    rw [digits, List.length_map, List.length_range']
  have joined (start first second : Nat) :
      id.digits start first ++ id.digits (start + first) second = id.digits start (first + second) := by
    rw [digits, digits, ← List.map_append, List.range'_append_1]
    rfl
  have whole : id.digits 0 8 ++ (id.digits 8 4 ++ (id.digits 12 4 ++ (id.digits 16 4 ++ id.digits 20 12))) =
      id.digits 0 32 := by
    rw [joined 16 4 12, joined 12 4 16, joined 8 4 20, joined 0 8 24]
  have chars : id.toText.toList = id.digits 0 8 ++ '-' :: (id.digits 8 4 ++ '-' :: (id.digits 12 4 ++
      '-' :: (id.digits 16 4 ++ '-' :: id.digits 20 12))) := by
    simp only [toText, String.toList_ofList, List.append_assoc, List.cons_append]
  have length : id.toText.toList.length = 36 := by
    simp only [chars, List.length_append, List.length_cons, count]
  have read : parseStr id.toText = parseHyphens id.toText.toList := by
    simp only [parseStr, length, Nat.reduceEqDiff, if_false, if_true]
  rw [read, chars, parseHyphens_groups count count count count count, whole, parseSimple_digits]

/-- What is relied on of a parser: it reads what is displayed. -/
structure Parser where
  parseStr : String → Option Uuid
  reads : ∀ id, parseStr id.toText = some id

/-- The parser of all these forms. -/
def Parser.allForms : Parser := ⟨Uuid.parseStr, parseStr_toText⟩

end FileDrop.Uuid
