import FileDrop.Foundation.JsonMoves

/-!
# Indented JSON texts

The text of a value with each item and each member on a line of its own. The machine takes the space
between tokens without a change, so the value is read back from this text as from the compact one.
-/
namespace Json

/-- A new line, with two spaces for each open container. -/
def gap (depth : Nat) : List Char := '\n' :: List.replicate (2 * depth) ' '

mutual

/-- The indented text of a value. -/
def pretty (depth : Nat) : Value → List Char
  | .null => print .null
  | .bool value => print (.bool value)
  | .number literal => literal.chars
  | .string text => quote text
  | .array [] => ['[', ']']
  | .array (item :: rest) =>
    '[' :: (gap (depth + 1) ++ (pretty (depth + 1) item ++ prettyItems depth rest))
  | .object [] => ['{', '}']
  | .object ((key, value) :: rest) =>
    '{' :: (gap (depth + 1) ++ (quote key ++ ':' :: ' ' ::
      (pretty (depth + 1) value ++ prettyMembers depth rest)))

/-- The further items of an array, up to its end. -/
def prettyItems (depth : Nat) : List Value → List Char
  | [] => gap depth ++ [']']
  | item :: rest =>
    ',' :: (gap (depth + 1) ++ (pretty (depth + 1) item ++ prettyItems depth rest))

/-- The further members of an object, up to its end. -/
def prettyMembers (depth : Nat) : List (String × Value) → List Char
  | [] => gap depth ++ ['}']
  | (key, value) :: rest =>
    ',' :: (gap (depth + 1) ++ (quote key ++ ':' :: ' ' ::
      (pretty (depth + 1) value ++ prettyMembers depth rest)))

end

/-! ## Reading a value back -/

/-- A space between tokens is read past. -/
theorem step_space {mode : Mode} (between : Between mode) (frames : List Frame) {c : Char}
    (space : isSpace c = true) : step (mode, frames) c = some (mode, frames) :=
  step_of_moves (.space frames between space)

/-- So are many. -/
theorem resume_spaces {mode : Mode} (between : Between mode) (frames : List Frame) {spaces : List Char}
    (all : ∀ c ∈ spaces, isSpace c = true) (rest : List Char) :
    resume (mode, frames) (spaces ++ rest) = resume (mode, frames) rest := by
  induction spaces with
  | nil => rfl
  | cons c spaces ih =>
    obtain ⟨here, later⟩ := List.forall_mem_cons.mp all
    rw [List.cons_append, resume_cons, step_space between frames here, Option.bind_some, ih later]

/-- A new line is space. -/
theorem gap_spaces (depth : Nat) : ∀ c ∈ gap depth, isSpace c = true := by
  refine List.forall_mem_cons.mpr ⟨rfl, fun c member => ?_⟩
  rw [List.eq_of_mem_replicate member]
  rfl

/-- A new line between tokens is read past. -/
theorem resume_gap {mode : Mode} (between : Between mode) (frames : List Frame) (depth : Nat)
    (rest : List Char) : resume (mode, frames) (gap depth ++ rest) = resume (mode, frames) rest :=
  resume_spaces between frames (gap_spaces depth) rest

/-- What follows an item ends it. -/
theorem ends_prettyItems (depth : Nat) (items : List Value) (rest : List Char) :
    Ends (prettyItems depth items ++ rest) := by
  cases items with
  | nil | cons =>
    rintro c ⟨⟩
    rfl

/-- What follows a member ends it. -/
theorem ends_prettyMembers (depth : Nat) (members : List (String × Value)) (rest : List Char) :
    Ends (prettyMembers depth members ++ rest) := by
  cases members with
  | nil =>
    rintro c ⟨⟩
    rfl
  | cons member more =>
    rintro c ⟨⟩
    rfl

/-- A text of a value does not begin with space, and not with the end of an array. -/
theorem pretty_head (depth : Nat) (value : Value) :
    ∃ c rest, pretty depth value = c :: rest ∧ isSpace c = false ∧ c ≠ ']' := by
  cases value with
  | null => exact print_head .null
  | bool value => exact print_head (.bool value)
  | number literal => exact print_head (.number literal)
  | string text => exact print_head (.string text)
  | array items =>
    cases items with
    | nil | cons => exact ⟨'[', _, rfl, rfl, by decide⟩
  | object members =>
    cases members with
    | nil | cons => exact ⟨'{', _, rfl, rfl, by decide⟩

/-- The first item of an array is read as any value. -/
theorem resume_first_pretty (depth : Nat) (value : Value) (frames : List Frame) (rest : List Char) :
    resume (.first, frames) (pretty depth value ++ rest) =
      resume (.value, frames) (pretty depth value ++ rest) := by
  obtain ⟨c, tail, printed, noSpace, notEnd⟩ := pretty_head depth value
  rw [printed, List.cons_append, resume_cons, resume_cons]
  simp only [step, noSpace, notEnd, Bool.false_eq_true, if_false]

/-- A key, and the colon and the space after it. -/
theorem resume_key_space (members : List (String × Value)) (outer : List Frame) (key : String) (mode : Mode)
    (atKey : mode = .key ∨ mode = .firstKey) (rest : List Char) :
    resume (mode, .key members :: outer) (quote key ++ ':' :: ' ' :: rest) =
      resume (.value, .member members key :: outer) rest := by
  rw [resume_key members outer key mode atKey, resume_cons, step_space .value _ rfl, Option.bind_some]

mutual

/-- A value is read from its indented text. -/
theorem resume_pretty : ∀ (depth : Nat) (value : Value) (frames : List Frame) (rest : List Char), Ends rest →
    resume (.value, frames) (pretty depth value ++ rest) = resume (.after value, frames) rest
  | _, .null, frames, rest, ends => resume_print .null frames rest ends
  | _, .bool value, frames, rest, ends => resume_print (.bool value) frames rest ends
  | _, .number literal, frames, rest, ends => resume_print (.number literal) frames rest ends
  | _, .string text, frames, rest, _ => resume_string frames text rest
  | _, .array [], frames, rest, _ => rfl
  | depth, .array (item :: more), frames, rest, _ => by
    rw [pretty, List.cons_append, resume_cons, List.append_assoc, List.append_assoc]
    show resume (.first, .array [] :: frames) _ = _
    rw [resume_gap .first, resume_first_pretty, resume_pretty _ item _ _ (ends_prettyItems depth more rest),
      resume_prettyItems depth more item [] frames rest]
    rfl
  | _, .object [], frames, rest, _ => rfl
  | depth, .object ((key, value) :: more), frames, rest, _ => by
    rw [pretty, List.cons_append, resume_cons, List.append_assoc, List.append_assoc, List.cons_append,
      List.cons_append, List.append_assoc]
    show resume (.firstKey, .key [] :: frames) _ = _
    rw [resume_gap .firstKey, resume_key_space [] frames key _ (.inr rfl),
      resume_pretty _ value _ _ (ends_prettyMembers depth more rest),
      resume_prettyMembers depth more key value [] frames rest]
    rfl

/-- The further items of an array are read. -/
theorem resume_prettyItems : ∀ (depth : Nat) (items : List Value) (item : Value) (done : List Value)
    (outer : List Frame) (rest : List Char),
    resume (.after item, .array done :: outer) (prettyItems depth items ++ rest) =
      resume (.after (.array ((item :: done).reverse ++ items)), outer) rest
  | depth, [], item, done, outer, rest => by
    rw [prettyItems, List.append_nil, List.append_assoc, resume_gap (.after item)]
    exact resume_cons _ _ _
  | depth, next :: more, item, done, outer, rest => by
    rw [prettyItems, List.cons_append, resume_cons, List.append_assoc, List.append_assoc]
    show resume (.value, .array (item :: done) :: outer) _ = _
    rw [resume_gap .value, resume_pretty _ next _ _ (ends_prettyItems depth more rest),
      resume_prettyItems depth more next _ outer rest, List.reverse_cons, List.append_assoc,
      List.singleton_append]

/-- The further members of an object are read. -/
theorem resume_prettyMembers : ∀ (depth : Nat) (members : List (String × Value)) (key : String)
    (value : Value) (done : List (String × Value)) (outer : List Frame) (rest : List Char),
    resume (.after value, .member done key :: outer) (prettyMembers depth members ++ rest) =
      resume (.after (.object (((key, value) :: done).reverse ++ members)), outer) rest
  | depth, [], key, value, done, outer, rest => by
    rw [prettyMembers, List.append_nil, List.append_assoc, resume_gap (.after value)]
    exact resume_cons _ _ _
  | depth, (name, next) :: more, key, value, done, outer, rest => by
    rw [prettyMembers, List.cons_append, resume_cons, List.append_assoc, List.append_assoc,
      List.cons_append, List.cons_append, List.append_assoc]
    show resume (.key, .key ((key, value) :: done) :: outer) _ = _
    rw [resume_gap .key, resume_key_space _ outer name _ (.inl rfl),
      resume_pretty _ next _ _ (ends_prettyMembers depth more rest),
      resume_prettyMembers depth more name next _ outer rest, List.reverse_cons, List.append_assoc,
      List.singleton_append]

end

/-- Every value is read back from its indented text. -/
theorem parse_pretty (value : Value) : parse (pretty 0 value) = some value := by
  have read := resume_pretty 0 value [] [] (by rintro c ⟨⟩)
  rw [List.append_nil] at read
  exact read

/-! ## The ends of texts -/

/-- The rest of an array ends it. -/
theorem prettyItems_last (depth : Nat) (items : List Value) :
    ∃ front, prettyItems depth items = front ++ [']'] := by
  induction items with
  | nil => exact ⟨gap depth, rfl⟩
  | cons item more ih =>
    obtain ⟨front, split⟩ := ih
    refine ⟨',' :: (gap (depth + 1) ++ (pretty (depth + 1) item ++ front)), ?_⟩
    rw [prettyItems, split]
    simp only [List.cons_append, List.append_assoc]

end Json
