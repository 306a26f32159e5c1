import Mathlib.Data.List.Basic

/-!
# JSON texts

Values, the compact text of a value, and a parser. A number is kept as its text, because what number it
stands for is up to its reader. The parser is a pushdown machine that takes the text character by
character, so that it is known after every prefix of a text what may still follow. A value is read back
from its text.
-/
namespace Json

/-! ## Numbers -/

/-- Where in a number its text is. -/
inductive NumberPart where
  | start
  | minus
  | zero
  | digits
  | point
  | fraction
  | exponent
  | sign
  | power
  deriving DecidableEq

/-- The next character of a number. -/
def NumberPart.step : NumberPart → Char → Option NumberPart
  | .start, c => if c = '-' then some .minus else if c = '0' then some .zero
    else if c.isDigit then some .digits else none
  | .minus, c => if c = '0' then some .zero else if c.isDigit then some .digits else none
  | .zero, c => if c = '.' then some .point else if c = 'e' ∨ c = 'E' then some .exponent else none
  | .digits, c => if c.isDigit then some .digits else if c = '.' then some .point
    else if c = 'e' ∨ c = 'E' then some .exponent else none
  | .point, c => if c.isDigit then some .fraction else none
  | .fraction, c => if c.isDigit then some .fraction else if c = 'e' ∨ c = 'E' then some .exponent else none
  | .exponent, c => if c = '+' ∨ c = '-' then some .sign else if c.isDigit then some .power else none
  | .sign, c | .power, c => if c.isDigit then some .power else none

/-- A number may end there. -/
def NumberPart.ends : NumberPart → Bool
  | .zero | .digits | .fraction | .power => true
  | .start | .minus | .point | .exponent | .sign => false

/-- The characters are a number, from a part of it on. -/
def numberFrom : NumberPart → List Char → Bool
  | part, [] => part.ends
  | part, c :: rest => match part.step c with
    | some next => numberFrom next rest
    | none => false

/-- The text of a number. -/
structure Literal where
  chars : List Char
  /-- It is one. -/
  valid : numberFrom .start chars = true
  deriving DecidableEq

/-! ## Values -/

/-- A JSON value; the members of an object are in the order of the text. -/
inductive Value where
  | null
  | bool (value : Bool)
  | number (literal : Literal)
  | string (text : String)
  | array (items : List Value)
  | object (members : List (String × Value))

/-- The digit at a place, in lower case. -/
def hexDigit (value : Nat) : Char := Nat.digitChar value

/-- The characters of a string that stand for one character: quotes, backslashes and controls are
escaped, the latter by a name where there is one. -/
def escape (c : Char) : List Char :=
  if c = '"' then ['\\', '"']
  else if c = '\\' then ['\\', '\\']
  else if c = '\x08' then ['\\', 'b']
  else if c = '\t' then ['\\', 't']
  else if c = '\n' then ['\\', 'n']
  else if c = '\x0c' then ['\\', 'f']
  else if c = '\r' then ['\\', 'r']
  else if c.toNat < 0x20 then
    ['\\', 'u', '0', '0', hexDigit (c.toNat / 16), hexDigit (c.toNat % 16)]
  else [c]

/-- A string between quotes. -/
def quote (text : String) : List Char := '"' :: (text.toList.flatMap escape ++ ['"'])

mutual

/-- The compact text of a value. -/
def print : Value → List Char
  | .null => ['n', 'u', 'l', 'l']
  | .bool true => ['t', 'r', 'u', 'e']
  | .bool false => ['f', 'a', 'l', 's', 'e']
  | .number literal => literal.chars
  | .string text => quote text
  | .array [] => ['[', ']']
  | .array (item :: rest) => '[' :: (print item ++ printItems rest)
  | .object [] => ['{', '}']
  | .object ((key, value) :: rest) => '{' :: (quote key ++ ':' :: (print value ++ printMembers rest))

/-- The further items of an array, up to its end. -/
def printItems : List Value → List Char
  | [] => [']']
  | item :: rest => ',' :: (print item ++ printItems rest)

/-- The further members of an object, up to its end. -/
def printMembers : List (String × Value) → List Char
  | [] => ['}']
  | (key, value) :: rest => ',' :: (quote key ++ ':' :: (print value ++ printMembers rest))

end

/-! ## The machine -/

/-- The space between tokens. -/
def isSpace (c : Char) : Bool := c = ' ' || c = '\t' || c = '\n' || c = '\r'

/-- A character that no bare token has. -/
def isDelimiter (c : Char) : Bool :=
  isSpace c || c = ',' || c = ':' || c = '[' || c = ']' || c = '{' || c = '}' || c = '"'

/-- Where in a string its text is. -/
inductive StringPart where
  | plain
  | escaped
  /-- After `\u`; the code units before it, if it is the second of two, and its digits so far. -/
  | unit (high : Option Nat) (digits : List Nat)
  /-- The second of two units has to follow. -/
  | pair (high : Nat)
  | pairEscaped (high : Nat)
  deriving DecidableEq

/-- What an escaped character stands for. -/
def unescape (c : Char) : Option Char :=
  if c = '"' ∨ c = '\\' ∨ c = '/' then some c
  else if c = 'b' then some '\x08'
  else if c = 't' then some '\t'
  else if c = 'n' then some '\n'
  else if c = 'f' then some '\x0c'
  else if c = 'r' then some '\r'
  else none

/-- The value of a hexadecimal digit in either case. -/
def hexValue (c : Char) : Option Nat :=
  if c.isDigit then some (c.toNat - 48)
  else if 'a' ≤ c ∧ c ≤ 'f' then some (c.toNat - 87)
  else if 'A' ≤ c ∧ c ≤ 'F' then some (c.toNat - 55)
  else none

/-- A code unit: a character, the first of two units, or the second. -/
def decodeUnit (high : Option Nat) (code : Nat) (chars : List Char) : Option (StringPart × List Char) :=
  match high with
  | none =>
    if 0xD800 ≤ code ∧ code < 0xDC00 then some (.pair code, chars)
    else if 0xDC00 ≤ code ∧ code < 0xE000 then none
    else some (.plain, Char.ofNat code :: chars)
  | some high =>
    if 0xDC00 ≤ code ∧ code < 0xE000 then
      some (.plain, Char.ofNat (0x10000 + (high - 0xD800) * 0x400 + (code - 0xDC00)) :: chars)
    else none

/-- The next character inside a string, which has the given characters, the last first. -/
def stringStep (part : StringPart) (chars : List Char) (c : Char) : Option (StringPart × List Char) :=
  match part with
  | .plain =>
    if c = '\\' then some (.escaped, chars)
    else if c.toNat < 0x20 then none
    else some (.plain, c :: chars)
  | .escaped =>
    if c = 'u' then some (.unit none [], chars)
    else (unescape c).map fun plain => (.plain, plain :: chars)
  | .unit high digits =>
    (hexValue c).bind fun digit =>
      if digits.length < 3 then some (.unit high (digits ++ [digit]), chars)
      else decodeUnit high ((digits ++ [digit]).foldl (fun code digit => 16 * code + digit) 0) chars
  | .pair high => if c = '\\' then some (.pairEscaped high, chars) else none
  | .pairEscaped high => if c = 'u' then some (.unit (some high) [], chars) else none

/-- What a token without quotes stands for. -/
def bareValue (chars : List Char) : Option Value :=
  if chars = ['n', 'u', 'l', 'l'] then some .null
  else if chars = ['t', 'r', 'u', 'e'] then some (.bool true)
  else if chars = ['f', 'a', 'l', 's', 'e'] then some (.bool false)
  else if valid : numberFrom .start chars = true then some (.number ⟨chars, valid⟩)
  else none

/-- A container that is open, with what it has so far, the last first. -/
inductive Frame where
  | array (items : List Value)
  /-- An object, at a key. -/
  | key (members : List (String × Value))
  /-- An object, at the value of a key. -/
  | member (members : List (String × Value)) (key : String)

/-- What comes next, or is being read. -/
inductive Mode where
  | value
  /-- The first item of an array, or its end. -/
  | first
  /-- The first key of an object, or its end. -/
  | firstKey
  | key
  | colon
  | string (isKey : Bool) (part : StringPart) (chars : List Char)
  /-- A number or a word, the last character first. -/
  | bare (chars : List Char)
  | after (value : Value)

/-- The machine: what comes next, and the open containers, the innermost first. -/
abbrev State : Type := Mode × List Frame

/-- The next character after a value. -/
def afterStep (value : Value) (frames : List Frame) (c : Char) : Option State :=
  if isSpace c then some (.after value, frames)
  else match frames with
    | .array items :: outer =>
      if c = ',' then some (.value, .array (value :: items) :: outer)
      else if c = ']' then some (.after (.array (value :: items).reverse), outer)
      else none
    | .member members key :: outer =>
      if c = ',' then some (.key, .key ((key, value) :: members) :: outer)
      else if c = '}' then some (.after (.object ((key, value) :: members).reverse), outer)
      else none
    | _ => none

/-- The first character of a value. -/
def valueStep (frames : List Frame) (c : Char) : Option State :=
  if isSpace c then some (.value, frames)
  else if c = '"' then some (.string false .plain [], frames)
  else if c = '[' then some (.first, .array [] :: frames)
  else if c = '{' then some (.firstKey, .key [] :: frames)
  else if isDelimiter c then none
  else some (.bare [c], frames)

/-- The end of a string. -/
def stringEnd (isKey : Bool) (text : String) (frames : List Frame) : Option State :=
  if isKey then
    match frames with
    | .key members :: outer => some (.colon, .member members text :: outer)
    | _ => none
  else some (.after (.string text), frames)

/-- The next character. -/
def step (state : State) (c : Char) : Option State :=
  match state with
  | (.value, frames) => valueStep frames c
  | (.first, frames) =>
    if isSpace c then some (.first, frames)
    else if c = ']' then
      match frames with
      | .array _ :: outer => some (.after (.array []), outer)
      | _ => none
    else valueStep frames c
  | (.firstKey, frames) =>
    if isSpace c then some (.firstKey, frames)
    else if c = '}' then
      match frames with
      | .key _ :: outer => some (.after (.object []), outer)
      | _ => none
    else if c = '"' then some (.string true .plain [], frames)
    else none
  | (.key, frames) =>
    if isSpace c then some (.key, frames)
    else if c = '"' then some (.string true .plain [], frames)
    else none
  | (.colon, frames) =>
    if isSpace c then some (.colon, frames) else if c = ':' then some (.value, frames) else none
  | (.string isKey part chars, frames) =>
    if part = .plain ∧ c = '"' then stringEnd isKey (.ofList chars.reverse) frames
    else (stringStep part chars c).map fun (part, chars) => (.string isKey part chars, frames)
  | (.bare chars, frames) =>
    if isDelimiter c then (bareValue chars.reverse).bind fun value => afterStep value frames c
    else some (.bare (c :: chars), frames)
  | (.after value, frames) => afterStep value frames c

/-- The text ends. -/
def finish : State → Option Value
  | (.after value, []) => some value
  | (.bare chars, []) => bareValue chars.reverse
  | _ => none

/-- Take characters. -/
def run : State → List Char → Option State
  | state, [] => some state
  | state, c :: rest => (step state c).bind fun next => run next rest

/-- What a text stands for. -/
def parse (chars : List Char) : Option Value := (run (.value, []) chars).bind finish

/-! ## Reading a value back -/

/-- What the rest of a text makes of a state. -/
def resume (state : State) (chars : List Char) : Option Value := (run state chars).bind finish

/-- A text is read character by character. -/
theorem resume_cons (state : State) (c : Char) (rest : List Char) :
    resume state (c :: rest) = (step state c).bind (resume · rest) := by
  unfold resume
  rw [run, Option.bind_assoc]

/-- A hexadecimal digit is read as its value. -/
theorem hexValue_hexDigit : ∀ value < 16, hexValue (hexDigit value) = some value := by decide

/-- Four digits that are a control character. -/
theorem decodeUnit_control {c : Char} (control : c.toNat < 0x20) (chars : List Char) :
    decodeUnit none ([0, 0, c.toNat / 16, c.toNat % 16].foldl (fun code digit => 16 * code + digit) 0) chars =
      some (.plain, c :: chars) := by
  have code : [0, 0, c.toNat / 16, c.toNat % 16].foldl (fun code digit => 16 * code + digit) 0 = c.toNat := by
    simp only [List.foldl_cons, List.foldl_nil]
    omega
  rw [code]
  simp only [decodeUnit]
  rw [if_neg (by omega), if_neg (by omega), Char.ofNat_toNat]

/-- A character is read from what stands for it. -/
theorem resume_escape (isKey : Bool) (chars : List Char) (frames : List Frame) (c : Char) (rest : List Char) :
    resume (.string isKey .plain chars, frames) (escape c ++ rest) =
      resume (.string isKey .plain (c :: chars), frames) rest := by
  -- an escape with a name
  have named : ∀ name : Char, name ≠ 'u' → unescape name = some c →
      resume (.string isKey .plain chars, frames) (['\\', name] ++ rest) =
        resume (.string isKey .plain (c :: chars), frames) rest := by
    intro name notUnit stands
    simp only [List.cons_append, List.nil_append, resume_cons, step, stringStep, notUnit, stands,
      reduceCtorEq, false_and, if_false, if_true, Option.map_some, Option.bind_some, Char.reduceEq, and_false]
  unfold escape
  split
  · rename_i same
    exact named '"' (by decide) (by rw [same]; rfl)
  split
  · rename_i same
    exact named '\\' (by decide) (by rw [same]; rfl)
  split
  · rename_i same
    exact named 'b' (by decide) (by rw [same]; rfl)
  split
  · rename_i same
    exact named 't' (by decide) (by rw [same]; rfl)
  split
  · rename_i same
    exact named 'n' (by decide) (by rw [same]; rfl)
  split
  · rename_i same
    exact named 'f' (by decide) (by rw [same]; rfl)
  split
  · rename_i same
    exact named 'r' (by decide) (by rw [same]; rfl)
  split
  · rename_i control
    have first := hexValue_hexDigit (c.toNat / 16) (by omega)
    have second := hexValue_hexDigit (c.toNat % 16) (by omega)
    have zero : hexValue '0' = some 0 := by decide
    have decoded := decodeUnit_control control chars
    simp only [List.cons_append, List.nil_append, resume_cons, step, stringStep, reduceCtorEq, false_and,
      if_false, if_true, Option.map_some, Option.bind_some, Char.reduceEq, and_false, first, second, zero,
      List.length_nil, List.length_cons, Nat.reduceLT, Nat.reduceAdd, decoded]
  · rename_i notQuote notBackslash _ _ _ _ _ printable
    simp only [List.cons_append, List.nil_append, resume_cons, step, stringStep, notQuote, notBackslash,
      printable, and_false, if_false, Option.map_some, Option.bind_some]

/-- A string is read from what stands between its quotes. -/
theorem resume_quoted (isKey : Bool) (frames : List Frame) (text chars rest : List Char) :
    resume (.string isKey .plain chars, frames) (text.flatMap escape ++ '"' :: rest) =
      (stringEnd isKey (.ofList (chars.reverse ++ text)) frames).bind (resume · rest) := by
  induction text generalizing chars with
  | nil =>
    rw [List.flatMap_nil, List.nil_append, List.append_nil, resume_cons]
    simp only [step, and_self, if_true]
  | cons c text ih =>
    rw [List.flatMap_cons, List.append_assoc, resume_escape, ih, List.reverse_cons, List.append_assoc,
      List.singleton_append]

/-- A token without quotes may end there. -/
def Ends (rest : List Char) : Prop := ∀ c ∈ rest.head?, isDelimiter c = true

/-- What holds of every character of a list is evaluated along the list. -/
theorem forall_of_all {chars : List Char} {property : Char → Prop} [DecidablePred property]
    (all : chars.all (fun c => property c) = true) : ∀ c ∈ chars, property c := by
  simpa using all

/-- The delimiters. -/
theorem isDelimiter_iff (c : Char) : isDelimiter c = true ↔
    c ∈ [' ', '\t', '\n', '\r', ',', ':', '[', ']', '{', '}', '"'] := by
  simp only [isDelimiter, isSpace, Bool.or_eq_true, decide_eq_true_eq, List.mem_cons, List.not_mem_nil,
    or_false, or_assoc]

/-- No part of a number goes on with a delimiter. -/
theorem step_delimiter (part : NumberPart) {c : Char} (delimiter : isDelimiter c = true) :
    part.step c = none := by
  have every : ∀ c ∈ [' ', '\t', '\n', '\r', ',', ':', '[', ']', '{', '}', '"'], part.step c = none :=
    forall_of_all (by cases part <;> decide)
  exact every c ((isDelimiter_iff c).mp delimiter)

/-- A number has no delimiters. -/
theorem numberFrom_chars {part : NumberPart} {chars : List Char} (valid : numberFrom part chars = true) :
    ∀ c ∈ chars, isDelimiter c = false := by
  induction chars generalizing part with
  | nil => simp
  | cons c rest ih =>
    unfold numberFrom at valid
    cases next : part.step c with
    | none =>
      rw [next] at valid
      cases valid
    | some after =>
      rw [next] at valid
      refine List.forall_mem_cons.mpr ⟨?_, ih valid⟩
      refine Bool.eq_false_iff.mpr fun delimiter => ?_
      rw [step_delimiter part delimiter] at next
      cases next

/-- A number is read as itself. -/
theorem bareValue_literal (literal : Literal) : bareValue literal.chars = some (.number literal) := by
  obtain ⟨chars, valid⟩ := literal
  have apart : ∀ word ∈ [['n', 'u', 'l', 'l'], ['t', 'r', 'u', 'e'], ['f', 'a', 'l', 's', 'e']],
      chars ≠ word := by
    rintro word member rfl
    have not : ∀ word ∈ [['n', 'u', 'l', 'l'], ['t', 'r', 'u', 'e'], ['f', 'a', 'l', 's', 'e']],
        numberFrom .start word = false := by decide
    rw [not chars member] at valid
    cases valid
  simp only [bareValue, apart _ (by decide : ['n', 'u', 'l', 'l'] ∈ _),
    apart _ (by decide : ['t', 'r', 'u', 'e'] ∈ _), apart _ (by decide : ['f', 'a', 'l', 's', 'e'] ∈ _),
    if_false, dif_pos valid]

/-- The further characters of a token without quotes, and its end. -/
theorem resume_bare {value : Value} (frames : List Frame) (chars read rest : List Char)
    (plain : ∀ c ∈ chars, isDelimiter c = false) (stands : bareValue (read.reverse ++ chars) = some value)
    (ends : Ends rest) :
    resume (.bare read, frames) (chars ++ rest) = resume (.after value, frames) rest := by
  induction chars generalizing read with
  | nil =>
    rw [List.append_nil] at stands
    cases rest with
    | nil =>
      cases frames with
      | nil => exact stands
      | cons => rfl
    | cons c rest =>
      have delimiter : isDelimiter c = true := ends c rfl
      rw [List.nil_append, resume_cons, resume_cons]
      simp only [step, delimiter, if_true, stands, Option.bind_some]
  | cons c chars ih =>
    obtain ⟨here, later⟩ := List.forall_mem_cons.mp plain
    rw [List.cons_append, resume_cons]
    simp only [step, here, Bool.false_eq_true, if_false, Option.bind_some]
    refine ih (c :: read) later ?_
    rw [List.reverse_cons, List.append_assoc, List.singleton_append]
    exact stands

/-- A token without quotes. -/
theorem resume_token {value : Value} (frames : List Frame) (chars rest : List Char)
    (plain : ∀ c ∈ chars, isDelimiter c = false) (stands : bareValue chars = some value)
    (ends : Ends rest) :
    resume (.value, frames) (chars ++ rest) = resume (.after value, frames) rest := by
  cases chars with
  | nil => cases stands
  | cons c chars =>
    obtain ⟨here, later⟩ := List.forall_mem_cons.mp plain
    have outside : ∀ d, isDelimiter d = true → c ≠ d := by
      rintro d delimiter rfl
      rw [delimiter] at here
      cases here
    have noSpace : isSpace c = false := by
      refine Bool.eq_false_iff.mpr fun space => ?_
      rw [isDelimiter, space] at here
      cases here
    rw [List.cons_append, resume_cons]
    simp only [step, valueStep, noSpace, here, outside '"' rfl, outside '[' rfl, outside '{' rfl,
      Bool.false_eq_true, if_false, Option.bind_some]
    exact resume_bare frames chars [c] rest later stands ends

/-- A text of a value does not begin with space, and not with the end of an array. -/
theorem print_head (value : Value) :
    ∃ c rest, print value = c :: rest ∧ isSpace c = false ∧ c ≠ ']' := by
  cases value with
  | null => exact ⟨'n', _, rfl, rfl, by decide⟩
  | bool value =>
    cases value with
    | true => exact ⟨'t', _, rfl, rfl, by decide⟩
    | false => exact ⟨'f', _, rfl, rfl, by decide⟩
  | string text => exact ⟨'"', _, rfl, rfl, by decide⟩
  | array items =>
    cases items with
    | nil | cons => exact ⟨'[', _, rfl, rfl, by decide⟩
  | object members =>
    cases members with
    | nil | cons => exact ⟨'{', _, rfl, rfl, by decide⟩
  | number literal =>
    obtain ⟨chars, valid⟩ := literal
    cases chars with
    | nil => cases valid
    | cons c rest =>
      have plain := numberFrom_chars valid c List.mem_cons_self
      refine ⟨c, rest, rfl, ?_, ?_⟩
      · refine Bool.eq_false_iff.mpr fun space => ?_
        rw [isDelimiter, space] at plain
        cases plain
      · rintro rfl
        cases plain

/-- The first item of an array is read as any value. -/
theorem resume_first (value : Value) (frames : List Frame) (rest : List Char) :
    resume (.first, frames) (print value ++ rest) = resume (.value, frames) (print value ++ rest) := by
  obtain ⟨c, tail, printed, noSpace, notEnd⟩ := print_head value
  rw [printed, List.cons_append, resume_cons, resume_cons]
  simp only [step, noSpace, notEnd, Bool.false_eq_true, if_false]

/-- A value that stands alone, or before something of its container, is read back. -/
theorem resume_string (frames : List Frame) (text : String) (rest : List Char) :
    resume (.value, frames) (quote text ++ rest) = resume (.after (.string text), frames) rest := by
  have quoted := resume_quoted false frames text.toList [] rest
  rw [List.reverse_nil, List.nil_append, String.ofList_toList] at quoted
  rw [quote, List.cons_append, resume_cons, List.append_assoc, List.singleton_append]
  exact quoted

/-- A key, and the colon after it. -/
theorem resume_key (members : List (String × Value)) (outer : List Frame) (key : String) (mode : Mode)
    (atKey : mode = .key ∨ mode = .firstKey) (rest : List Char) :
    resume (mode, .key members :: outer) (quote key ++ ':' :: rest) =
      resume (.value, .member members key :: outer) rest := by
  have quoted := resume_quoted true (.key members :: outer) key.toList [] (':' :: rest)
  rw [List.reverse_nil, List.nil_append, String.ofList_toList] at quoted
  have opened : step (mode, .key members :: outer) '"' =
      some (.string true .plain [], .key members :: outer) := by
    rcases atKey with rfl | rfl
    · rfl
    · rfl
  rw [quote, List.cons_append, resume_cons, opened, List.append_assoc, List.singleton_append]
  exact quoted.trans (resume_cons _ _ _)

/-- What follows an item ends it. -/
theorem ends_printItems (items : List Value) (rest : List Char) : Ends (printItems items ++ rest) := by
  cases items with
  | nil | cons =>
    rintro c ⟨⟩
    rfl

/-- What follows a member ends it. -/
theorem ends_printMembers (members : List (String × Value)) (rest : List Char) :
    Ends (printMembers members ++ rest) := by
  cases members with
  | nil =>
    rintro c ⟨⟩
    rfl
  | cons member more =>
    rintro c ⟨⟩
    rfl

mutual

/-- A value is read from its text. -/
theorem resume_print : ∀ (value : Value) (frames : List Frame) (rest : List Char), Ends rest →
    resume (.value, frames) (print value ++ rest) = resume (.after value, frames) rest
  | .null, frames, rest, ends => resume_token frames _ rest (forall_of_all (by decide)) rfl ends
  | .bool true, frames, rest, ends => resume_token frames _ rest (forall_of_all (by decide)) rfl ends
  | .bool false, frames, rest, ends => resume_token frames _ rest (forall_of_all (by decide)) rfl ends
  | .number literal, frames, rest, ends =>
    resume_token frames literal.chars rest (numberFrom_chars literal.valid) (bareValue_literal literal) ends
  | .string text, frames, rest, _ => resume_string frames text rest
  | .array [], frames, rest, _ => rfl
  | .array (item :: more), frames, rest, _ => by
    rw [print, List.cons_append, resume_cons, List.append_assoc]
    show resume (.first, .array [] :: frames) _ = _
    rw [resume_first, resume_print item _ _ (ends_printItems more rest),
      resume_printItems more item [] frames rest]
    rfl
  | .object [], frames, rest, _ => rfl
  | .object ((key, value) :: more), frames, rest, _ => by
    rw [print, List.cons_append, resume_cons, List.append_assoc, List.cons_append, List.append_assoc]
    show resume (.firstKey, .key [] :: frames) _ = _
    rw [resume_key [] frames key _ (.inr rfl), resume_print value _ _ (ends_printMembers more rest),
      resume_printMembers more key value [] frames rest]
    rfl

/-- The further items of an array are read. -/
theorem resume_printItems : ∀ (items : List Value) (item : Value) (done : List Value)
    (outer : List Frame) (rest : List Char),
    resume (.after item, .array done :: outer) (printItems items ++ rest) =
      resume (.after (.array ((item :: done).reverse ++ items)), outer) rest
  | [], item, done, outer, rest => by
    rw [printItems, List.append_nil]
    exact resume_cons _ _ _
  | next :: more, item, done, outer, rest => by
    rw [printItems, List.cons_append, resume_cons, List.append_assoc]
    show resume (.value, .array (item :: done) :: outer) _ = _
    rw [resume_print next _ _ (ends_printItems more rest), resume_printItems more next _ outer rest,
      List.reverse_cons, List.append_assoc, List.singleton_append]

/-- The further members of an object are read. -/
theorem resume_printMembers : ∀ (members : List (String × Value)) (key : String) (value : Value)
    (done : List (String × Value)) (outer : List Frame) (rest : List Char),
    resume (.after value, .member done key :: outer) (printMembers members ++ rest) =
      resume (.after (.object (((key, value) :: done).reverse ++ members)), outer) rest
  | [], key, value, done, outer, rest => by
    rw [printMembers, List.append_nil]
    exact resume_cons _ _ _
  | (name, next) :: more, key, value, done, outer, rest => by
    rw [printMembers, List.cons_append, resume_cons, List.append_assoc, List.cons_append, List.append_assoc]
    show resume (.key, .key ((key, value) :: done) :: outer) _ = _
    rw [resume_key _ outer name _ (.inl rfl), resume_print next _ _ (ends_printMembers more rest),
      resume_printMembers more name next _ outer rest, List.reverse_cons, List.append_assoc,
      List.singleton_append]

end

/-- Every value is read back from its text. -/
@[simp] theorem parse_print (value : Value) : parse (print value) = some value := by
  have read := resume_print value [] [] (by rintro c ⟨⟩)
  rw [List.append_nil] at read
  exact read

/-! ## The ends of texts -/

/-- Characters are taken by taking some of them and then the others. -/
theorem run_append (first second : List Char) (state : State) :
    run state (first ++ second) = (run state first).bind (run · second) := by
  induction first generalizing state with
  | nil => rfl
  | cons c first ih =>
    rw [List.cons_append, run, run, Option.bind_assoc]
    exact congrArg _ (funext ih)

/-- The last character of a container. -/
def closes (c : Char) : Prop := c = ']' ∨ c = '}'

/-- The rest of an array ends it. -/
theorem printItems_last (items : List Value) : ∃ front, printItems items = front ++ [']'] := by
  induction items with
  | nil => exact ⟨[], rfl⟩
  | cons item more ih =>
    obtain ⟨front, split⟩ := ih
    refine ⟨',' :: (print item ++ front), ?_⟩
    rw [printItems, split, List.cons_append, List.append_assoc]

/-- The rest of an object ends it. -/
theorem printMembers_last (members : List (String × Value)) :
    ∃ front, printMembers members = front ++ ['}'] := by
  induction members with
  | nil => exact ⟨[], rfl⟩
  | cons member more ih =>
    obtain ⟨front, split⟩ := ih
    refine ⟨',' :: (quote member.1 ++ ':' :: (print member.2 ++ front)), ?_⟩
    rw [printMembers, split]
    simp only [List.cons_append, List.append_assoc]

/-- Arrays and objects. -/
def Value.isContainer : Value → Bool
  | .array _ | .object _ => true
  | .null | .bool _ | .number _ | .string _ => false

end Json
