import FileDrop.Foundation.Json

/-!
# What a character does

All the moves of the machine: what holds of each of them holds of every step.
-/
namespace Json

/-- Between tokens. -/
inductive Between : Mode → Prop where
  | value : Between .value
  | first : Between .first
  | firstKey : Between .firstKey
  | key : Between .key
  | colon : Between .colon
  | after (value : Value) : Between (.after value)

/-- A value may begin. -/
inductive Begins : Mode → Prop where
  | value : Begins .value
  | first : Begins .first

/-- A key may begin. -/
inductive BeginsKey : Mode → Prop where
  | key : BeginsKey .key
  | firstKey : BeginsKey .firstKey

/-- The moves. -/
inductive Moves : State → Char → State → Prop where
  | space {mode : Mode} (frames : List Frame) {c : Char} (between : Between mode) (space : isSpace c = true) :
      Moves (mode, frames) c (mode, frames)
  /-- A value begins. -/
  | string {mode : Mode} (frames : List Frame) (begins : Begins mode) :
      Moves (mode, frames) '"' (.string false .plain [], frames)
  | array {mode : Mode} (frames : List Frame) (begins : Begins mode) :
      Moves (mode, frames) '[' (.first, .array [] :: frames)
  | object {mode : Mode} (frames : List Frame) (begins : Begins mode) :
      Moves (mode, frames) '{' (.firstKey, .key [] :: frames)
  | bare {mode : Mode} (frames : List Frame) {c : Char} (begins : Begins mode)
      (plain : isDelimiter c = false) : Moves (mode, frames) c (.bare [c], frames)
  /-- A container has nothing. -/
  | noItem (items : List Value) (outer : List Frame) :
      Moves (.first, .array items :: outer) ']' (.after (.array []), outer)
  | noMember (members : List (String × Value)) (outer : List Frame) :
      Moves (.firstKey, .key members :: outer) '}' (.after (.object []), outer)
  | key {mode : Mode} (frames : List Frame) (begins : BeginsKey mode) :
      Moves (mode, frames) '"' (.string true .plain [], frames)
  | colon (frames : List Frame) : Moves (.colon, frames) ':' (.value, frames)
  | inString (isKey : Bool) {part after : StringPart} {chars read : List Char} (frames : List Frame) {c : Char}
      (going : ¬(part = .plain ∧ c = '"')) (stepped : stringStep part chars c = some (after, read)) :
      Moves (.string isKey part chars, frames) c (.string isKey after read, frames)
  | keyEnds (chars : List Char) (members : List (String × Value)) (outer : List Frame) :
      Moves (.string true .plain chars, .key members :: outer) '"'
        (.colon, .member members (.ofList chars.reverse) :: outer)
  | stringEnds (chars : List Char) (frames : List Frame) :
      Moves (.string false .plain chars, frames) '"' (.after (.string (.ofList chars.reverse)), frames)
  | inBare (chars : List Char) (frames : List Frame) {c : Char} (plain : isDelimiter c = false) :
      Moves (.bare chars, frames) c (.bare (c :: chars), frames)
  /-- What ends a word comes after its value. -/
  | bareEnds {chars : List Char} {value : Value} {frames : List Frame} {c : Char} {next : State}
      (delimiter : isDelimiter c = true) (stands : bareValue chars.reverse = some value)
      (goesOn : Moves (.after value, frames) c next) : Moves (.bare chars, frames) c next
  | nextItem (value : Value) (items : List Value) (outer : List Frame) :
      Moves (.after value, .array items :: outer) ',' (.value, .array (value :: items) :: outer)
  | itemsEnd (value : Value) (items : List Value) (outer : List Frame) :
      Moves (.after value, .array items :: outer) ']' (.after (.array (value :: items).reverse), outer)
  | nextMember (value : Value) (members : List (String × Value)) (key : String) (outer : List Frame) :
      Moves (.after value, .member members key :: outer) ',' (.key, .key ((key, value) :: members) :: outer)
  | membersEnd (value : Value) (members : List (String × Value)) (key : String) (outer : List Frame) :
      Moves (.after value, .member members key :: outer) '}'
        (.after (.object ((key, value) :: members).reverse), outer)

/-- What comes after a value is one of the moves. -/
theorem afterStep_cases {value : Value} {frames : List Frame} {c : Char} {next : State}
    (stepped : afterStep value frames c = some next) : Moves (.after value, frames) c next := by
  unfold afterStep at stepped
  split at stepped
  · rename_i space
    cases stepped
    exact .space frames (.after value) space
  split at stepped
  · rename_i items outer
    split_ifs at stepped with comma ends
    · cases stepped
      exact comma ▸ .nextItem value items outer
    · cases stepped
      exact ends ▸ .itemsEnd value items outer
  · rename_i members key outer
    split_ifs at stepped with comma ends
    · cases stepped
      exact comma ▸ .nextMember value members key outer
    · cases stepped
      exact ends ▸ .membersEnd value members key outer
  · cases stepped

/-- What begins a value is. -/
theorem valueStep_cases {mode : Mode} {frames : List Frame} {c : Char} {next : State} (begins : Begins mode)
    (noSpace : ¬isSpace c = true) (stepped : valueStep frames c = some next) :
    Moves (mode, frames) c next := by
  unfold valueStep at stepped
  rw [if_neg noSpace] at stepped
  split_ifs at stepped with quote array object delimiter
  · cases stepped
    exact quote ▸ .string frames begins
  · cases stepped
    exact array ▸ .array frames begins
  · cases stepped
    exact object ▸ .object frames begins
  · cases stepped
    exact .bare frames begins (Bool.eq_false_iff.mpr delimiter)

/-- Every step is. -/
theorem step_cases {state next : State} {c : Char} (stepped : step state c = some next) :
    Moves state c next := by
  obtain ⟨mode, frames⟩ := state
  cases mode with
  | value =>
    by_cases space : isSpace c = true
    · simp only [step, valueStep, if_pos space] at stepped
      cases stepped
      exact .space frames .value space
    · exact valueStep_cases .value space stepped
  | after value => exact afterStep_cases stepped
  | first =>
    simp only [step] at stepped
    split_ifs at stepped with space ends
    · cases stepped
      exact .space frames .first space
    · split at stepped
      · rename_i items outer
        cases stepped
        exact ends ▸ .noItem items outer
      · cases stepped
    · exact valueStep_cases .first space stepped
  | firstKey =>
    simp only [step] at stepped
    split_ifs at stepped with space ends quote
    · cases stepped
      exact .space frames .firstKey space
    · split at stepped
      · rename_i members outer
        cases stepped
        exact ends ▸ .noMember members outer
      · cases stepped
    · cases stepped
      exact quote ▸ .key frames .firstKey
  | key =>
    simp only [step] at stepped
    split_ifs at stepped with space quote
    · cases stepped
      exact .space frames .key space
    · cases stepped
      exact quote ▸ .key frames .key
  | colon =>
    simp only [step] at stepped
    split_ifs at stepped with space colon
    · cases stepped
      exact .space frames .colon space
    · cases stepped
      exact colon ▸ .colon frames
  | string isKey part chars =>
    simp only [step] at stepped
    split_ifs at stepped with ends
    · obtain ⟨rfl, rfl⟩ := ends
      unfold stringEnd at stepped
      split_ifs at stepped with atKey
      · subst atKey
        split at stepped
        · rename_i members outer
          cases stepped
          exact .keyEnds chars members outer
        · cases stepped
      · obtain rfl := Bool.eq_false_iff.mpr atKey
        cases stepped
        exact .stringEnds chars frames
    · obtain ⟨⟨after, read⟩, moved, rfl⟩ := Option.map_eq_some_iff.mp stepped
      exact .inString isKey frames ends moved
  | bare chars =>
    simp only [step] at stepped
    split_ifs at stepped with delimiter
    · obtain ⟨value, stands, stepped⟩ := Option.bind_eq_some_iff.mp stepped
      exact .bareEnds delimiter stands (afterStep_cases stepped)
    · cases stepped
      exact .inBare chars frames (Bool.eq_false_iff.mpr delimiter)

/-- A character of a word is none that is looked for elsewhere. -/
theorem ne_of_plain {c : Char} (plain : isDelimiter c = false) :
    isSpace c = false ∧ ∀ d, isDelimiter d = true → c ≠ d := by
  refine ⟨Bool.eq_false_iff.mpr fun space => ?_, ?_⟩
  · rw [isDelimiter, space] at plain
    cases plain
  · rintro d delimiter rfl
    rw [delimiter] at plain
    cases plain

/-- Every move is a step. -/
theorem step_of_moves {state next : State} {c : Char} (moved : Moves state c next) :
    step state c = some next := by
  induction moved with
  | space frames between space =>
    cases between with
    | value => simp only [step, valueStep, space, if_true]
    | after value => simp only [step, afterStep, space, if_true]
    | first | firstKey | key | colon => simp only [step, space, if_true]
  | string frames begins | array frames begins | object frames begins =>
    cases begins with
    | value | first => rfl
  | bare frames begins plain =>
    obtain ⟨noSpace, other⟩ := ne_of_plain plain
    cases begins with
    | value | first =>
      simp only [step, valueStep, noSpace, plain, other '"' rfl, other '[' rfl, other '{' rfl, other ']' rfl,
        Bool.false_eq_true, if_false]
  | key frames begins =>
    cases begins with
    | key | firstKey => rfl
  | inString isKey frames going stepped => simp only [step, if_neg going, stepped, Option.map_some]
  | inBare chars frames plain => simp only [step, plain, Bool.false_eq_true, if_false]
  | bareEnds delimiter stands goesOn ih =>
    simp only [step, delimiter, if_true, stands, Option.bind_some]
    exact ih
  | noItem | noMember | colon | keyEnds | stringEnds | nextItem | itemsEnd | nextMember | membersEnd => rfl

/-! ## Outside all containers -/

/-- Outside all containers, where a text may end. -/
def Outside (state : State) : Prop :=
  (∃ value, state = (.after value, [])) ∨ ∃ chars, state = (.bare chars, [])

/-- A text ends outside all containers. -/
theorem outside_of_finish {state : State} {value : Value} (finished : finish state = some value) :
    Outside state := by
  unfold finish at finished
  split at finished
  · exact .inl ⟨_, rfl⟩
  · exact .inr ⟨_, rfl⟩
  · cases finished

/-- From there no container ends. -/
theorem step_outside {state next : State} {c : Char} (outside : Outside state)
    (stepped : step state c = some next) : c ≠ ']' ∧ c ≠ '}' ∧ Outside next := by
  have spaces : isSpace c = true → c ≠ ']' ∧ c ≠ '}' := by
    refine fun space => ⟨?_, ?_⟩
    · rintro rfl
      cases space
    · rintro rfl
      cases space
  rcases outside with ⟨value, rfl⟩ | ⟨chars, rfl⟩
  · cases step_cases stepped with
    | space _ _ space => exact ⟨(spaces space).1, (spaces space).2, .inl ⟨value, rfl⟩⟩
    | string _ begins | array _ begins | object _ begins | bare _ begins | key _ begins => cases begins
  · cases step_cases stepped with
    | space _ between => cases between
    | string _ begins | array _ begins | object _ begins | bare _ begins | key _ begins => cases begins
    | inBare _ _ plain =>
      have other := (ne_of_plain plain).2
      exact ⟨other ']' rfl, other '}' rfl, .inr ⟨c :: chars, rfl⟩⟩
    | bareEnds _ _ goesOn =>
      cases goesOn with
      | space _ _ space => exact ⟨(spaces space).1, (spaces space).2, .inl ⟨_, rfl⟩⟩
      | string _ begins | array _ begins | object _ begins | bare _ begins | key _ begins => cases begins

/-- Nor does one later. -/
theorem run_outside {state after : State} {chars : List Char} (outside : Outside state)
    (ran : run state chars = some after) : ∀ c ∈ chars, c ≠ ']' ∧ c ≠ '}' := by
  induction chars generalizing state with
  | nil => simp
  | cons c rest ih =>
    obtain ⟨next, stepped, later⟩ := Option.bind_eq_some_iff.mp ran
    obtain ⟨notArray, notObject, outside⟩ := step_outside outside stepped
    exact List.forall_mem_cons.mpr ⟨⟨notArray, notObject⟩, ih outside later⟩

end Json
