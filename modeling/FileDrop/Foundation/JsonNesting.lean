import FileDrop.Foundation.JsonMoves

/-!
# Texts inside of texts

A text that stands for a value does so wherever a value may stand, so a text may be put together from the
texts of its parts, whoever wrote them. None of them has a NUL.
-/
namespace Json

/-! ## More open containers -/

/-- Each move is one over more open containers. -/
theorem Moves.lift {state next : State} {c : Char} (moved : Moves state c next) (frames : List Frame) :
    Moves (state.1, state.2 ++ frames) c (next.1, next.2 ++ frames) := by
  induction moved with
  | space _ between space => exact .space _ between space
  | string _ begins => exact .string _ begins
  | array _ begins => exact .array _ begins
  | object _ begins => exact .object _ begins
  | bare _ begins plain => exact .bare _ begins plain
  | noItem items outer => exact .noItem items _
  | noMember members outer => exact .noMember members _
  | key _ begins => exact .key _ begins
  | colon => exact .colon _
  | inString isKey _ going stepped => exact .inString isKey _ going stepped
  | keyEnds chars members outer => exact .keyEnds chars members _
  | stringEnds chars => exact .stringEnds chars _
  | inBare chars _ plain => exact .inBare chars _ plain
  | bareEnds delimiter stands _ ih => exact .bareEnds delimiter stands ih
  | nextItem value items outer => exact .nextItem value items _
  | itemsEnd value items outer => exact .itemsEnd value items _
  | nextMember value members key outer => exact .nextMember value members key _
  | membersEnd value members key outer => exact .membersEnd value members key _

/-- A step over some open containers is one over more. -/
theorem step_lift {mode next : Mode} {inner after : List Frame} {c : Char}
    (moved : step (mode, inner) c = some (next, after)) (frames : List Frame) :
    step (mode, inner ++ frames) c = some (next, after ++ frames) :=
  step_of_moves ((step_cases moved).lift frames)

/-- So is a run. -/
theorem run_lift {mode next : Mode} {inner after : List Frame} {text : List Char}
    (ran : run (mode, inner) text = some (next, after)) (frames : List Frame) :
    run (mode, inner ++ frames) text = some (next, after ++ frames) := by
  induction text generalizing mode inner with
  | nil =>
    cases ran
    rfl
  | cons c rest ih =>
    obtain ⟨⟨mode', inner'⟩, moved, later⟩ := Option.bind_eq_some_iff.mp ran
    rw [run, step_lift moved frames]
    exact ih later

/-- A number or a word at the end of a text is one before its container goes on. -/
theorem resume_ended {chars rest : List Char} {value : Value} (stands : bareValue chars.reverse = some value)
    (ends : Ends rest) (frames : List Frame) :
    resume (.bare chars, frames) rest = resume (.after value, frames) rest := by
  cases rest with
  | nil =>
    cases frames with
    | nil => exact stands
    | cons => rfl
  | cons c rest =>
    rw [resume_cons, resume_cons]
    have delimiter : isDelimiter c = true := ends c rfl
    simp only [step, delimiter, if_true, stands, Option.bind_some]

/-- A text that stands for a value does so wherever a value may stand. -/
theorem resume_parse {text rest : List Char} {value : Value} (parsed : parse text = some value)
    (ends : Ends rest) (frames : List Frame) :
    resume (.value, frames) (text ++ rest) = resume (.after value, frames) rest := by
  obtain ⟨⟨mode, inner⟩, ran, finished⟩ := Option.bind_eq_some_iff.mp parsed
  have lifted := run_lift ran frames
  rw [List.nil_append] at lifted
  rw [resume, run_append, lifted, Option.bind_some]
  unfold finish at finished
  split at finished
  · rename_i same
    cases same
    cases finished
    rfl
  · rename_i chars same
    cases same
    exact resume_ended finished ends frames
  · cases finished

/-- An object of two members is put together from the texts of their values. -/
theorem parse_two {first second : String} {one two : List Char} {left right : Value}
    (firstParsed : parse one = some left) (secondParsed : parse two = some right) :
    parse ('{' :: (quote first ++ ':' :: (one ++ ',' :: (quote second ++ ':' :: (two ++ ['}']))))) =
      some (.object [(first, left), (second, right)]) := by
  have comma : Ends (',' :: (quote second ++ ':' :: (two ++ ['}']))) := by
    rintro c ⟨⟩
    rfl
  have brace : Ends ['}'] := by
    rintro c ⟨⟩
    rfl
  show resume (.firstKey, [.key []]) _ = _
  rw [resume_key [] [] first _ (.inr rfl), resume_parse firstParsed comma, resume_cons]
  show resume (.key, [.key [(first, left)]]) _ = _
  rw [resume_key _ [] second _ (.inl rfl), resume_parse secondParsed brace]
  rfl

/-! ## NUL -/

/-- A number or a word that has a NUL so far. -/
def Spoilt (state : State) : Prop := ∃ chars frames, state = (.bare chars, frames) ∧ '\x00' ∈ chars

/-- Nothing that comes after a value is a NUL. -/
theorem afterStep_nul (value : Value) (frames : List Frame) : afterStep value frames '\x00' = none := by
  cases frames with
  | nil => rfl
  | cons frame outer =>
    cases frame with
    | array | key | member => rfl

/-- Where a NUL is taken at all, it is for a part of a word. -/
theorem spoilt_of_step {state next : State} (moved : step state '\x00' = some next) : Spoilt next := by
  obtain ⟨mode, frames⟩ := state
  cases mode with
  | value | first =>
    cases moved
    exact ⟨_, _, rfl, List.mem_cons_self⟩
  | firstKey | key | colon => cases moved
  | string isKey part chars =>
    cases part with
    | plain | escaped | unit | pair | pairEscaped => cases moved
  | bare chars =>
    cases moved
    exact ⟨_, _, rfl, List.mem_cons_self⟩
  | after value =>
    rw [step, afterStep_nul] at moved
    cases moved

/-- No number or word has a NUL. -/
theorem bareValue_nul {chars : List Char} (nul : '\x00' ∈ chars) : bareValue chars = none := by
  have noNumber {part : NumberPart} : numberFrom part chars = false := by
    induction chars generalizing part with
    | nil => cases nul
    | cons c rest ih =>
      unfold numberFrom
      rcases List.mem_cons.mp nul with rfl | later
      · cases part with
        | start | minus | zero | digits | point | fraction | exponent | sign | power => rfl
      · cases part.step c with
        | none => rfl
        | some next => exact ih later
  unfold bareValue
  have none : ∀ word ∈ [['n', 'u', 'l', 'l'], ['t', 'r', 'u', 'e'], ['f', 'a', 'l', 's', 'e']],
      '\x00' ∉ word := by
    decide
  have words {word : List Char} (listed : word ∈
      [['n', 'u', 'l', 'l'], ['t', 'r', 'u', 'e'], ['f', 'a', 'l', 's', 'e']]) : chars ≠ word :=
    fun same => none word listed (same ▸ nul)
  rw [if_neg (words (by decide)), if_neg (words (by decide)), if_neg (words (by decide)), dif_neg]
  rw [noNumber]
  exact Bool.false_ne_true

/-- What has a NUL stays so. -/
theorem resume_spoilt {state : State} {text : List Char} (spoilt : Spoilt state) : resume state text = none := by
  obtain ⟨chars, frames, rfl, nul⟩ := spoilt
  have never : ∀ {chars : List Char}, '\x00' ∈ chars → bareValue chars.reverse = none := fun nul =>
    bareValue_nul (List.mem_reverse.mpr nul)
  induction text generalizing chars with
  | nil =>
    cases frames with
    | nil => exact never nul
    | cons => rfl
  | cons c rest ih =>
    rw [resume_cons]
    simp only [step]
    split
    · rw [never nul]
      rfl
    · exact ih (c :: chars) (List.mem_cons_of_mem _ nul)

/-- No text that stands for a value has a NUL. -/
theorem noNul_of_parse {text : List Char} {value : Value} (parsed : parse text = some value) :
    '\x00' ∉ text := by
  intro nul
  obtain ⟨front, back, rfl⟩ := List.append_of_mem nul
  rw [parse, run_append, Option.bind_assoc] at parsed
  obtain ⟨state, -, rest⟩ := Option.bind_eq_some_iff.mp parsed
  have goesOn : resume state ('\x00' :: back) = some value := rest
  rw [resume_cons] at goesOn
  obtain ⟨next, moved, later⟩ := Option.bind_eq_some_iff.mp goesOn
  rw [resume_spoilt (spoilt_of_step moved)] at later
  cases later

end Json
