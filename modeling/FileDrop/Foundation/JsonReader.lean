import Mathlib.Algebra.Group.Int.Defs
import Mathlib.Data.List.Nodup
import FileDrop.Foundation.Json

/-!
# Reading JSON values

What a typed reader makes of a value: integers that a number stands for, texts, truth values, and records.
A record is read from an object in which each field occurs once, in any order and beside other members, and
optional ones may be left out, or from an array with one item for each field. What is written is read back.
-/
namespace Json

/-! ## Integers -/

/-- The digits of a positive number do not begin with a zero. -/
theorem toDigits_head {value : Nat} (positive : 0 < value) :
    ∃ c rest, Nat.toDigits 10 value = c :: rest ∧ c ≠ '0' := by
  induction value using Nat.strongRecOn with
  | ind value ih =>
    by_cases small : value < 10
    · have apart : ∀ digit < 10, 0 < digit → digit.digitChar ≠ '0' := by decide
      exact ⟨value.digitChar, [], Nat.toDigits_of_lt_base small, apart value small positive⟩
    · obtain ⟨c, rest, digits, apart⟩ := ih (value / 10) (by omega) (by omega)
      refine ⟨c, rest ++ Nat.toDigits 10 (value % 10), ?_, apart⟩
      have joined := Nat.toDigits_append_toDigits (b := 10) (by decide) (show 0 < value / 10 by omega)
        (Nat.mod_lt value (by decide))
      rw [Nat.div_add_mod] at joined
      rw [← joined, digits, List.cons_append]

/-- Digits go on with digits. -/
theorem numberFrom_digits {chars : List Char} (digits : ∀ c ∈ chars, c.isDigit = true) :
    numberFrom .digits chars = true := by
  induction chars with
  | nil => rfl
  | cons c rest ih =>
    obtain ⟨here, later⟩ := List.forall_mem_cons.mp digits
    simp only [numberFrom, NumberPart.step, here, if_true]
    exact ih later

/-- The digits of a number are one, alone or after a sign. -/
theorem numberFrom_toDigits (value : Nat) {part : NumberPart} (starts : part = .start ∨ part = .minus) :
    numberFrom part (Nat.toDigits 10 value) = true := by
  have all : ∀ c ∈ Nat.toDigits 10 value, c.isDigit = true := fun c member =>
    Nat.isDigit_of_mem_toDigits (by decide) (by decide) member
  by_cases zero : value = 0
  · subst zero
    rcases starts with rfl | rfl
    · decide
    · decide
  · obtain ⟨c, rest, digits, apart⟩ := toDigits_head (Nat.pos_of_ne_zero zero)
    rw [digits] at all ⊢
    obtain ⟨here, later⟩ := List.forall_mem_cons.mp all
    have noSign : c ≠ '-' := by
      rintro rfl
      cases here
    rcases starts with rfl | rfl
    · simp only [numberFrom, NumberPart.step, noSign, apart, here, if_false, if_true]
      exact numberFrom_digits later
    · simp only [numberFrom, NumberPart.step, apart, here, if_false, if_true]
      exact numberFrom_digits later

namespace Literal

/-- The digits of a natural number. -/
def ofNat (value : Nat) : Literal := ⟨Nat.toDigits 10 value, numberFrom_toDigits value (.inl rfl)⟩

/-- The text of an integer. -/
def ofInt : Int → Literal
  | .ofNat value => ofNat value
  | .negSucc value => ⟨'-' :: Nat.toDigits 10 (value + 1), numberFrom_toDigits (value + 1) (.inr rfl)⟩

/-- The natural number that digits stand for. A fraction or an exponent makes it none. -/
def toNat (literal : Literal) : Option Nat :=
  if literal.chars.all Char.isDigit then some (Nat.ofDigitChars 10 literal.chars 0) else none

/-- The integer. A negative zero is none. -/
def toInt (literal : Literal) : Option Int :=
  match literal.chars with
  | '-' :: digits =>
    if digits.all Char.isDigit ∧ digits ≠ ['0'] then some (-(Nat.ofDigitChars 10 digits 0 : Int)) else none
  | _ => literal.toNat.map Int.ofNat

/-- The digits of a number are digits. -/
theorem all_toDigits (value : Nat) : (Nat.toDigits 10 value).all Char.isDigit = true :=
  List.all_eq_true.mpr fun _ member => Nat.isDigit_of_mem_toDigits (by decide) (by decide) member

@[simp] theorem toNat_ofNat (value : Nat) : (ofNat value).toNat = some value := by
  rw [toNat, ofNat, if_pos (all_toDigits value), Nat.ofDigitChars_ten_toDigits]

/-- An integer is read from its text. -/
@[simp] theorem toInt_ofInt (value : Int) : (ofInt value).toInt = some value := by
  cases value with
  | ofNat value =>
    have noSign : ∀ digits, Nat.toDigits 10 value ≠ '-' :: digits := by
      intro digits same
      have digit := List.all_eq_true.mp (all_toDigits value) '-' (by rw [same]; exact List.mem_cons_self)
      cases digit
    have same : (ofNat value).toInt = (ofNat value).toNat.map Int.ofNat := by
      unfold toInt
      split
      · rename_i digits split
        exact absurd split (noSign digits)
      · rfl
    rw [ofInt, same, toNat_ofNat]
    rfl
  | negSucc value =>
    obtain ⟨c, rest, digits, apart⟩ := toDigits_head (Nat.succ_pos value)
    have notZero : Nat.toDigits 10 (value + 1) ≠ ['0'] := by
      rw [digits]
      rintro same
      exact apart (List.cons.inj same).1
    show (if _ then _ else _) = _
    rw [if_pos ⟨all_toDigits (value + 1), notZero⟩, Nat.ofDigitChars_ten_toDigits]
    rfl

end Literal

/-! ## Values -/

namespace Value

/-- A natural number. -/
def ofNat (value : Nat) : Value := .number (.ofNat value)

/-- An integer. -/
def ofInt (value : Int) : Value := .number (.ofInt value)

/-- A text. -/
def asString : Value → Option String
  | .string text => some text
  | _ => none

/-- A text, or null. -/
def ofNullable : Option String → Value
  | none => .null
  | some text => .string text

/-- A text, or null. -/
def asNullable : Value → Option (Option String)
  | .null => some none
  | .string text => some (some text)
  | _ => none

/-- A truth value. -/
def asBool : Value → Option Bool
  | .bool value => some value
  | _ => none

/-- A natural number below a bound. -/
def asNat (bound : Nat) : Value → Option Nat
  | .number literal => literal.toNat.bind fun value => if value < bound then some value else none
  | _ => none

/-- An integer of so many bits, with its sign. -/
def asInt (bits : Nat) : Value → Option Int
  | .number literal => literal.toInt.bind fun value =>
    if -(2 ^ (bits - 1)) ≤ value ∧ value < 2 ^ (bits - 1) then some value else none
  | _ => none

@[simp] theorem asString_string (text : String) : asString (.string text) = some text := rfl

@[simp] theorem asNullable_ofNullable (text : Option String) : asNullable (ofNullable text) = some text := by
  cases text with
  | none | some => rfl

@[simp] theorem asBool_bool (value : Bool) : asBool (.bool value) = some value := rfl

/-- Different numbers and texts are written differently. -/
@[simp] theorem ofNat_inj {left right : Nat} : ofNat left = ofNat right ↔ left = right := by
  refine ⟨fun same => ?_, fun same => same ▸ rfl⟩
  have read := congrArg Literal.toNat (Value.number.inj same)
  rwa [Literal.toNat_ofNat, Literal.toNat_ofNat, Option.some_inj] at read

@[simp] theorem ofInt_inj {left right : Int} : ofInt left = ofInt right ↔ left = right := by
  refine ⟨fun same => ?_, fun same => same ▸ rfl⟩
  have read := congrArg Literal.toInt (Value.number.inj same)
  rwa [Literal.toInt_ofInt, Literal.toInt_ofInt, Option.some_inj] at read

@[simp] theorem ofNullable_inj {left right : Option String} :
    ofNullable left = ofNullable right ↔ left = right := by
  refine ⟨fun same => ?_, fun same => same ▸ rfl⟩
  have read := congrArg asNullable same
  rwa [asNullable_ofNullable, asNullable_ofNullable, Option.some_inj] at read

theorem asNat_ofNat {bound value : Nat} (below : value < bound) : asNat bound (ofNat value) = some value := by
  simp only [asNat, ofNat, Literal.toNat_ofNat, Option.bind_some, if_pos below]

theorem asInt_ofInt {bits : Nat} {value : Int} (low : -(2 ^ (bits - 1)) ≤ value)
    (high : value < 2 ^ (bits - 1)) : asInt bits (ofInt value) = some value := by
  simp only [asInt, ofInt, Literal.toInt_ofInt, Option.bind_some, if_pos (And.intro low high)]

end Value

/-! ## Records -/

/-- A member of an object, if its name occurs once; null for an optional one that does not occur. -/
def field (optional : List String) (members : List (String × Value)) (name : String) : Option Value :=
  match members.filter (·.1 = name) with
  | [member] => some member.2
  | [] => if name ∈ optional then some .null else none
  | _ => none

/-- The last member of a name, as in a map that later members write over; null if there is none. -/
def lookup (members : List (String × Value)) (name : String) : Value :=
  ((members.filter (·.1 = name)).getLast?.map Prod.snd).getD .null

/-- The values of a record's fields, in the order of the fields. -/
def fields (optional names : List String) : Value → Option (List Value)
  | .object members => names.mapM (field optional members)
  | .array items => if items.length = names.length then some items else none
  | .null | .bool _ | .number _ | .string _ => none

/-- A record. -/
def record (names : List String) (values : List Value) : Value := .object (names.zip values)

/-- Records of the same names are the same if their fields are. -/
theorem record_inj {names : List String} {left right : List Value} (first : names.length = left.length)
    (second : names.length = right.length) : record names left = record names right ↔ left = right := by
  refine ⟨fun same => ?_, fun same => same ▸ rfl⟩
  have fields := congrArg (List.map Prod.snd) (Value.object.inj same)
  rwa [List.map_snd_zip (by omega), List.map_snd_zip (by omega)] at fields

/-- A field of a record is there once. -/
theorem field_zip (optional : List String) {names : List String} (distinct : names.Nodup)
    {values : List Value} (same : names.length = values.length) {index : Nat} (inside : index < names.length)
    (there : index < values.length) :
    field optional (names.zip values) names[index] = some values[index] := by
  induction names generalizing values index with
  | nil => cases inside
  | cons name names ih =>
    cases values with
    | nil => cases same
    | cons value values =>
      obtain ⟨absent, distinct⟩ := List.nodup_cons.mp distinct
      have same : names.length = values.length := Nat.succ.inj same
      cases index with
      | zero =>
        have others : (names.zip values).filter (·.1 = name) = [] := by
          refine List.filter_eq_nil_iff.mpr fun member listed here => ?_
          simp only [decide_eq_true_eq] at here
          exact absent (here ▸ (List.of_mem_zip listed).1)
        simp only [field, List.zip_cons_cons, List.getElem_cons_zero, List.filter_cons, decide_true, if_true,
          others]
      | succ index =>
        have inside : index < names.length := Nat.lt_of_succ_lt_succ inside
        have there : index < values.length := Nat.lt_of_succ_lt_succ there
        have apart : ¬name = names[index] := fun here => absent (here ▸ List.getElem_mem inside)
        simp only [field, List.zip_cons_cons, List.getElem_cons_succ, List.filter_cons, apart, decide_false,
          Bool.false_eq_true, if_false]
        exact ih distinct same inside there

/-- Values that are read one by one are read together. -/
theorem mapM_of_getElem {names : List String} {read : String → Option Value} {values : List Value}
    (same : names.length = values.length)
    (each : ∀ (index : Nat) (_ : index < names.length) (_ : index < values.length),
      read names[index] = some values[index]) : names.mapM read = some values := by
  induction names generalizing values with
  | nil =>
    cases values with
    | nil => rfl
    | cons => cases same
  | cons name names ih =>
    cases values with
    | nil => cases same
    | cons value values =>
      have first : read name = some value := each 0 (Nat.zero_lt_succ _) (Nat.zero_lt_succ _)
      have rest : names.mapM read = some values :=
        ih (Nat.succ.inj same) fun index inside there =>
          each (index + 1) (Nat.succ_lt_succ inside) (Nat.succ_lt_succ there)
      rw [List.mapM_cons, first, rest]
      rfl

/-- A record is read back. -/
theorem fields_record (optional : List String) {names : List String} (distinct : names.Nodup)
    {values : List Value} (same : names.length = values.length) :
    fields optional names (record names values) = some values :=
  mapM_of_getElem same fun _ inside there => field_zip optional distinct same inside there

end Json
