import FileDrop.Foundation.JsonPretty
import FileDrop.Foundation.JsonReader

/-!
# What is known of a JSON library

A library's writer and reader are not spelled out: it is only stated what their documentation says. Texts
are told apart by their brackets outside of strings, so that it need not be said what else a reader lets
pass. From that a value is read from all of its text or from none of it. The writer and the parser of
these modules are such a library.
-/
namespace Json

/-! ## Brackets -/

/-- What a symbol is to one who looks for brackets. -/
inductive Mark where
  | opening
  | closing
  | quote
  | backslash
  | other
  deriving DecidableEq

/-- The symbol of a code; those of brackets and of quotes are the same for characters and for bytes. -/
def Mark.ofCode (code : Nat) : Mark :=
  if code = 0x5b ∨ code = 0x7b then .opening
  else if code = 0x5d ∨ code = 0x7d then .closing
  else if code = 0x22 then .quote
  else if code = 0x5c then .backslash
  else .other

/-- A character. -/
def Mark.ofChar (c : Char) : Mark := .ofCode c.toNat

/-- A byte of a text in UTF-8. -/
def Mark.ofByte (byte : UInt8) : Mark := .ofCode byte.toNat

/-- Where in a text one is. -/
inductive ScanPart where
  | outside
  /-- In a string. -/
  | inside
  /-- After a backslash in a string. -/
  | escaped
  deriving DecidableEq

/-- How many brackets are open, and where one is. -/
structure Scan where
  depth : Nat
  part : ScanPart
  deriving DecidableEq

/-- The next symbol. -/
def Scan.step : Scan → Mark → Scan
  | ⟨depth, .outside⟩, .opening => ⟨depth + 1, .outside⟩
  | ⟨depth, .outside⟩, .closing => ⟨depth - 1, .outside⟩
  | ⟨depth, .outside⟩, .quote => ⟨depth, .inside⟩
  | ⟨depth, .outside⟩, .backslash | ⟨depth, .outside⟩, .other => ⟨depth, .outside⟩
  | ⟨depth, .inside⟩, .quote => ⟨depth, .outside⟩
  | ⟨depth, .inside⟩, .backslash => ⟨depth, .escaped⟩
  | ⟨depth, .inside⟩, .opening | ⟨depth, .inside⟩, .closing | ⟨depth, .inside⟩, .other => ⟨depth, .inside⟩
  | ⟨depth, .escaped⟩, _ => ⟨depth, .inside⟩

/-- Before a text. -/
def Scan.start : Scan := ⟨0, .outside⟩

/-- A text that is not empty, and at whose end every bracket is closed. -/
def Closed (marks : List Mark) : Prop := marks ≠ [] ∧ (marks.foldl Scan.step .start).depth = 0

instance (marks : List Mark) : Decidable (Closed marks) := inferInstanceAs (Decidable (_ ∧ _))

/-- Some bracket is open, all along. -/
def Scan.Open : Scan → List Mark → Prop
  | scan, [] => 0 < scan.depth
  | scan, mark :: rest => 0 < scan.depth ∧ (scan.step mark).Open rest

/-- A text in brackets: the first symbol opens one that only the last one closes. -/
def Enclosed (marks : List Mark) : Prop :=
  ∃ inner last, marks = .opening :: (inner ++ [last]) ∧ (Scan.start.step .opening).Open inner

/-- A bracket is open after every front. -/
theorem Scan.Open.front {scan : Scan} {front back : List Mark} (all : scan.Open (front ++ back)) :
    0 < (front.foldl step scan).depth := by
  induction front generalizing scan with
  | nil =>
    cases back with
    | nil => exact all
    | cons => exact all.1
  | cons mark rest ih => exact ih all.2

/-- A bracket is open at the end. -/
theorem Scan.Open.after {scan : Scan} {marks : List Mark} (all : scan.Open marks) :
    0 < (marks.foldl step scan).depth := by
  have whole : scan.Open (marks ++ []) := by rwa [List.append_nil]
  exact whole.front

/-- A front of a text in brackets is closed only if it is the whole text. -/
theorem Enclosed.whole {front back : List Mark} (enclosed : Enclosed (front ++ back)) (closed : Closed front) :
    back = [] := by
  obtain ⟨inner, last, split, all⟩ := enclosed
  by_contra more
  obtain ⟨some, even⟩ := closed
  obtain ⟨mark, front, rfl⟩ := List.exists_cons_of_ne_nil some
  rw [List.cons_append] at split
  obtain ⟨rfl, rest⟩ := List.cons.inj split
  -- the last symbol is not in the front
  have shorter : front ++ back.dropLast = inner := by
    have dropped := congrArg List.dropLast rest
    rwa [List.dropLast_append_of_ne_nil more, List.dropLast_concat] at dropped
  rw [← shorter] at all
  have opened := all.front
  rw [List.foldl_cons] at even
  omega

/-! ## Libraries -/

/-- What is documented of a writer and a reader of values of one type, in symbols that are marked so: a
value is read from the text it was written as; an object or an array is written in brackets, without space
around it; and a text that is read has its brackets closed. -/
structure Codec {Symbol : Type} (mark : Symbol → Mark) (Item : Type) where
  write : Item → Except String (List Symbol)
  read : List Symbol → Except String Item
  roundTrip : ∀ item text, write item = .ok text → read text = .ok item
  enclosed : ∀ item text, write item = .ok text → Enclosed (text.map mark)
  closed : ∀ text item, read text = .ok item → Closed (text.map mark)

namespace Codec

variable {Symbol Item : Type} {mark : Symbol → Mark} (codec : Codec mark Item)

/-- What is read from a front of a text is its value, and the front is all of it. -/
theorem whole {item found : Item} {front back : List Symbol} (written : codec.write item = .ok (front ++ back))
    (read : codec.read front = .ok found) : back = [] ∧ found = item := by
  have enclosed := codec.enclosed item _ written
  rw [List.map_append] at enclosed
  have none : back = [] := List.map_eq_nil_iff.mp (enclosed.whole (codec.closed front found read))
  rw [none, List.append_nil] at written
  have again := codec.roundTrip item front written
  rw [read] at again
  exact ⟨none, Except.ok.inj again⟩

/-- No value is written as nothing. -/
theorem write_ne_nil {item : Item} {text : List Symbol} (written : codec.write item = .ok text) : text ≠ [] := by
  rintro rfl
  obtain ⟨inner, last, split, -⟩ := codec.enclosed item [] written
  cases split

/-- A front of a text that lacks something is not read. -/
theorem unread {item : Item} {front back : List Symbol} (written : codec.write item = .ok (front ++ back))
    (missing : back ≠ []) : ∃ reason, codec.read front = .error reason := by
  cases read : codec.read front with
  | error reason => exact ⟨reason, rfl⟩
  | ok found => exact absurd (codec.whole written read).1 missing

end Codec

/-- What is documented of a writer: it writes a text that stands for the value. -/
structure Writer where
  write : Value → Except String (List Char)
  writes : ∀ value, ∃ text, write value = .ok text ∧ parse text = some value

/-- What is documented of a reader of values of one type, which are represented so: it reads every text that
stands for the representation of a value as that value. -/
structure Reader {Item : Type} (represent : Item → Value) where
  read : List Char → Except String Item
  reads : ∀ item text, parse text = some (represent item) → read text = .ok item

/-! ## The machine and the brackets -/

/-- Where a string is. -/
def StringPart.scan : StringPart → ScanPart
  | .plain | .unit _ _ | .pair _ => .inside
  | .escaped | .pairEscaped _ => .escaped

/-- Where the machine is. -/
def Mode.scan : Mode → ScanPart
  | .string _ part _ => part.scan
  | .value | .first | .firstKey | .key | .colon | .bare _ | .after _ => .outside

/-- What one who looks for brackets sees. -/
def scanOf (state : State) : Scan := ⟨state.2.length, state.1.scan⟩

/-- The mark of a character that is neither a bracket nor a quote. -/
theorem step_outside_other {depth : Nat} {c : Char} (other : c ∉ ['[', '{', ']', '}', '"']) :
    Scan.step ⟨depth, .outside⟩ (.ofChar c) = ⟨depth, .outside⟩ := by
  have code {d : Char} (listed : d ∈ ['[', '{', ']', '}', '"']) : c.toNat ≠ d.toNat :=
    fun same => other (Char.toNat_inj.mp same ▸ listed)
  have array : c.toNat ≠ 0x5b := @code '[' (by decide)
  have object : c.toNat ≠ 0x7b := @code '{' (by decide)
  have arrayEnd : c.toNat ≠ 0x5d := @code ']' (by decide)
  have objectEnd : c.toNat ≠ 0x7d := @code '}' (by decide)
  have quote : c.toNat ≠ 0x22 := @code '"' (by decide)
  unfold Mark.ofChar Mark.ofCode
  simp only [array, object, arrayEnd, objectEnd, quote, or_self, if_false]
  split
  · rfl
  · rfl

/-- The mark of a character in a string that is neither a quote nor a backslash. -/
theorem step_inside_other {depth : Nat} {c : Char} (quote : c ≠ '"') (backslash : c ≠ '\\') :
    Scan.step ⟨depth, .inside⟩ (.ofChar c) = ⟨depth, .inside⟩ := by
  have notQuote : c.toNat ≠ 0x22 := fun same => quote (Char.toNat_inj.mp same)
  have notBackslash : c.toNat ≠ 0x5c := fun same => backslash (Char.toNat_inj.mp same)
  unfold Mark.ofChar Mark.ofCode
  simp only [notQuote, notBackslash, if_false]
  split
  · rfl
  split
  · rfl
  · rfl

/-- A character that does not end a token is no bracket. -/
theorem other_of_plain {c : Char} (plain : isDelimiter c = false) : c ∉ ['[', '{', ']', '}', '"'] := by
  have every : ∀ d ∈ ['[', '{', ']', '}', '"'], isDelimiter d = true := forall_of_all (by decide)
  exact fun member => (ne_of_plain plain).2 c (every c member) rfl

/-- A space is no bracket. -/
theorem other_of_space {c : Char} (space : isSpace c = true) : c ∉ ['[', '{', ']', '}', '"'] := by
  have every : ∀ c ∈ ['[', '{', ']', '}', '"'], isSpace c = false := forall_of_all (by decide)
  intro member
  rw [every c member] at space
  cases space

/-- In a string the machine goes on as one who looks for brackets does. -/
theorem scan_stringStep {part after : StringPart} {read chars : List Char} {c : Char} {depth : Nat}
    (going : ¬(part = .plain ∧ c = '"')) (stepped : stringStep part read c = some (after, chars)) :
    Scan.step ⟨depth, part.scan⟩ (.ofChar c) = ⟨depth, after.scan⟩ := by
  cases part with
  | plain =>
    simp only [stringStep] at stepped
    split at stepped
    · rename_i backslash
      cases stepped
      rw [backslash]
      rfl
    · rename_i notBackslash
      split at stepped
      · cases stepped
      · cases stepped
        exact step_inside_other (fun quote => going ⟨rfl, quote⟩) notBackslash
  | escaped =>
    simp only [stringStep] at stepped
    split at stepped
    · cases stepped
      rfl
    · obtain ⟨plain, -, same⟩ := Option.map_eq_some_iff.mp stepped
      cases same
      rfl
  | unit high digits =>
    obtain ⟨digit, hex, stepped⟩ := Option.bind_eq_some_iff.mp stepped
    have quote : c ≠ '"' := by
      rintro rfl
      cases hex
    have backslash : c ≠ '\\' := by
      rintro rfl
      cases hex
    have inside : after.scan = .inside := by
      split at stepped
      · cases stepped
        rfl
      · unfold decodeUnit at stepped
        split at stepped
        · split at stepped
          · cases stepped
            rfl
          split at stepped
          · cases stepped
          · cases stepped
            rfl
        · split at stepped
          · cases stepped
            rfl
          · cases stepped
    rw [inside]
    exact step_inside_other quote backslash
  | pair high =>
    simp only [stringStep] at stepped
    split at stepped
    · rename_i backslash
      cases stepped
      rw [backslash]
      rfl
    · cases stepped
  | pairEscaped high =>
    simp only [stringStep] at stepped
    split at stepped
    · cases stepped
      rfl
    · cases stepped

/-- The machine sees the brackets: each move is the step of one who looks for them. -/
theorem Moves.scan {state next : State} {c : Char} (moved : Moves state c next) :
    (scanOf state).step (.ofChar c) = scanOf next := by
  induction moved with
  | space frames between space =>
    cases between with
    | value | first | firstKey | key | colon | after => exact step_outside_other (other_of_space space)
  | string frames begins | array frames begins | object frames begins =>
    cases begins with
    | value | first => rfl
  | bare frames begins plain =>
    cases begins with
    | value | first => exact step_outside_other (other_of_plain plain)
  | key frames begins =>
    cases begins with
    | key | firstKey => rfl
  | inString isKey frames going stepped => exact scan_stringStep going stepped
  | inBare chars frames plain => exact step_outside_other (other_of_plain plain)
  | bareEnds delimiter stands goesOn ih => exact ih
  | noItem | noMember | colon | keyEnds | stringEnds | nextItem | itemsEnd | nextMember | membersEnd => rfl

/-- All along a text. -/
theorem scan_run {state after : State} {text : List Char} (ran : run state text = some after) :
    (text.map Mark.ofChar).foldl Scan.step (scanOf state) = scanOf after := by
  induction text generalizing state with
  | nil => exact congrArg scanOf (Option.some.inj ran)
  | cons c rest ih =>
    obtain ⟨next, stepped, later⟩ := Option.bind_eq_some_iff.mp ran
    rw [List.map_cons, List.foldl_cons, (step_cases stepped).scan, ih later]

/-- Whatever is parsed has its brackets closed. -/
theorem closed_of_parse {text : List Char} {value : Value} (read : parse text = some value) :
    Closed (text.map Mark.ofChar) := by
  obtain ⟨state, ran, finished⟩ := Option.bind_eq_some_iff.mp read
  constructor
  · rw [ne_eq, List.map_eq_nil_iff]
    rintro rfl
    obtain rfl := Option.some.inj ran
    cases finished
  · have seen : (text.map Mark.ofChar).foldl Scan.step .start = scanOf state := scan_run ran
    rw [seen]
    rcases outside_of_finish finished with ⟨value, rfl⟩ | ⟨chars, rfl⟩
    · rfl
    · rfl

/-! ## Texts in brackets -/

/-- Inside of a container, or after a value. -/
def Begun (state : State) : Prop := state.2 ≠ [] ∨ ∃ value, state.1 = .after value

/-- Inside of a container the machine stays there until a container ends. -/
theorem Moves.begun {state next : State} {c : Char} (moved : Moves state c next) (inside : state.2 ≠ []) :
    Begun next := by
  induction moved with
  | space | string | bare | key | colon | inString | inBare => exact .inl inside
  | array | object | keyEnds | nextItem | nextMember => exact .inl (List.cons_ne_nil _ _)
  | noItem | noMember | stringEnds | itemsEnd | membersEnd => exact .inr ⟨_, rfl⟩
  | bareEnds _ _ goesOn ih => exact ih inside

/-- As long as a container is still to end, one is open. -/
theorem open_of_run {state after : State} {inner : List Char} {last : Char} (inside : state.2 ≠ [])
    (closing : closes last) (ran : run state (inner ++ [last]) = some after) :
    (scanOf state).Open (inner.map Mark.ofChar) := by
  induction inner generalizing state with
  | nil => exact List.length_pos_of_ne_nil inside
  | cons c rest ih =>
    obtain ⟨next, stepped, later⟩ := Option.bind_eq_some_iff.mp ran
    refine ⟨List.length_pos_of_ne_nil inside, ?_⟩
    rw [(step_cases stepped).scan]
    refine ih ?_ later
    rcases (step_cases stepped).begun inside with still | ⟨value, done⟩
    · exact still
    · -- outside of all containers none could end
      intro none
      have outside : Outside next := .inl ⟨value, Prod.ext done none⟩
      obtain ⟨notArray, notObject⟩ := run_outside outside later last (List.mem_append_right _ List.mem_cons_self)
      rcases closing with array | object
      · exact notArray array
      · exact notObject object

/-- A text from a bracket to a bracket. -/
def Bracketed (text : List Char) : Prop :=
  ∃ first inner last, text = first :: (inner ++ [last]) ∧ (first = '[' ∨ first = '{') ∧ closes last

/-- One that stands for a value is in brackets. -/
theorem enclosed_of_parse {text : List Char} {value : Value} (bracketed : Bracketed text)
    (read : parse text = some value) : Enclosed (text.map Mark.ofChar) := by
  obtain ⟨first, inner, last, rfl, opens, closing⟩ := bracketed
  obtain ⟨after, ran, -⟩ := Option.bind_eq_some_iff.mp read
  obtain ⟨next, stepped, later⟩ := Option.bind_eq_some_iff.mp ran
  refine ⟨inner.map Mark.ofChar, .ofChar last, by simp; rcases opens with rfl | rfl <;> rfl, ?_⟩
  rcases opens with rfl | rfl
  · cases stepped
    exact @open_of_run (.first, [.array []]) after inner last (List.cons_ne_nil _ _) closing later
  · cases stepped
    exact @open_of_run (.firstKey, [.key []]) after inner last (List.cons_ne_nil _ _) closing later

/-- The compact text of a container is. -/
theorem bracketed_print {value : Value} (container : value.isContainer = true) : Bracketed (print value) := by
  cases value with
  | null | bool | number | string => cases container
  | array items =>
    cases items with
    | nil => exact ⟨'[', [], ']', rfl, .inl rfl, .inl rfl⟩
    | cons item more =>
      obtain ⟨inner, ends⟩ := printItems_last more
      refine ⟨'[', print item ++ inner, ']', ?_, .inl rfl, .inl rfl⟩
      rw [print, ends, List.append_assoc]
  | object members =>
    cases members with
    | nil => exact ⟨'{', [], '}', rfl, .inr rfl, .inr rfl⟩
    | cons member more =>
      obtain ⟨key, value⟩ := member
      obtain ⟨inner, ends⟩ := printMembers_last more
      refine ⟨'{', quote key ++ ':' :: (print value ++ inner), '}', ?_, .inr rfl, .inr rfl⟩
      rw [print, ends]
      simp only [List.append_assoc, List.cons_append]

/-- So is the indented text of an array. -/
theorem bracketed_pretty (items : List Value) : Bracketed (pretty 0 (.array items)) := by
  cases items with
  | nil => exact ⟨'[', [], ']', rfl, .inl rfl, .inl rfl⟩
  | cons item more =>
    obtain ⟨inner, ends⟩ := prettyItems_last 0 more
    refine ⟨'[', gap 1 ++ (pretty 1 item ++ inner), ']', ?_, .inl rfl, .inl rfl⟩
    rw [pretty, ends]
    simp only [List.append_assoc]

/-! ## The writer and the parser as a library -/

/-- What a change of results leaves of a success. -/
theorem map_eq_ok {Error Old New : Type} {change : Old → New} {result : Except Error Old} {new : New}
    (changed : result.map change = .ok new) : ∃ old, result = .ok old ∧ change old = new := by
  cases result with
  | error => cases changed
  | ok old => exact ⟨old, rfl, Except.ok.inj changed⟩

/-- A container for each item, written in a layout and read by the parser. -/
def Codec.ofLayout {Item : Type} (represent : Item → Except String Value) (ofValue : Value → Option Item)
    (layout : Value → List Char)
    (reads : ∀ item value, represent item = .ok value →
      parse (layout value) = some value ∧ Bracketed (layout value) ∧ ofValue value = some item) :
    Codec Mark.ofChar Item where
  write item := (represent item).map layout
  read text :=
    match (parse text).bind ofValue with
    | some item => .ok item
    | none => .error "unexpected text"
  roundTrip item text written := by
    obtain ⟨value, represented, rfl⟩ := map_eq_ok written
    obtain ⟨parsed, -, back⟩ := reads item value represented
    simp only [parsed, Option.bind_some, back]
  enclosed item text written := by
    obtain ⟨value, represented, rfl⟩ := map_eq_ok written
    obtain ⟨parsed, bracketed, -⟩ := reads item value represented
    exact enclosed_of_parse bracketed parsed
  closed text item read := by
    split at read
    · rename_i found parsed
      obtain ⟨value, parsed, -⟩ := Option.bind_eq_some_iff.mp parsed
      exact closed_of_parse parsed
    · cases read

/-- Values in compact texts. -/
def Writer.compact : Writer where
  write value := .ok (print value)
  writes value := ⟨print value, rfl, parse_print value⟩

/-- The parser, with a reader of values. -/
def Reader.ofParser {Item : Type} {represent : Item → Value} (ofValue : Value → Option Item)
    (back : ∀ item, ofValue (represent item) = some item) : Reader represent where
  read text :=
    match (parse text).bind ofValue with
    | some item => .ok item
    | none => .error "unexpected text"
  reads item text parsed := by simp only [parsed, Option.bind_some, back]

end Json
