import FileDrop.Security.Filename

/-!
# Names that are cut

A name of more than 255 bytes is cut before its extension, at the byte where the extension still fits.
That byte may be inside a character, and then the cut panics; and an extension of more than 255 bytes is
kept as it is. Every other name comes out with 1 to 255 bytes and with its extension.
-/
namespace FileDrop.TruncatedName
open FileDrop

/-! ## Bytes of a text -/

@[simp] theorem byteLen_cons (c : Char) (rest : List Char) :
    byteLen (c :: rest) = c.utf8Size + byteLen rest := rfl

@[simp] theorem byteLen_append (first second : List Char) :
    byteLen (first ++ second) = byteLen first + byteLen second := by
  simp [byteLen]

/-- Every character has a byte. -/
theorem byteLen_pos {text : List Char} (some : text ≠ []) : 0 < byteLen text := by
  obtain ⟨c, rest, rfl⟩ := List.exists_cons_of_ne_nil some
  have positive := c.utf8Size_pos
  rw [byteLen_cons]
  omega

/-- A number of bytes of a text ends between two of its characters, or at an end of it. -/
def CharBoundary (text : List Char) (bytes : Nat) : Prop :=
  ∃ before, before <+: text ∧ byteLen before = bytes

/-- A cut inside a text keeps the characters that make up its number of bytes. -/
theorem truncateChars_iff {len : Nat} {text cut : List Char} (inside : len ≤ byteLen text) :
    truncateChars len text = some cut ↔ cut <+: text ∧ byteLen cut = len := by
  induction text generalizing len cut with
  | nil =>
    obtain rfl : len = 0 := Nat.le_zero.mp inside
    constructor
    · intro done
      obtain rfl := Option.some.inj done
      exact ⟨List.prefix_refl _, rfl⟩
    · rintro ⟨part, -⟩
      rw [List.prefix_nil.mp part, truncateChars]
  | cons c rest ih =>
    cases len with
    | zero =>
      constructor
      · intro done
        obtain rfl := Option.some.inj done
        exact ⟨List.nil_prefix, rfl⟩
      · rintro ⟨-, none⟩
        have empty : cut = [] := by_contra fun some => absurd none (byteLen_pos some).ne'
        rw [empty, truncateChars]
    | succ len =>
      rw [byteLen_cons] at inside
      unfold truncateChars
      constructor
      · intro done
        split at done
        · rename_i fits
          obtain ⟨tail, cutTail, rfl⟩ := Option.map_eq_some_iff.mp done
          obtain ⟨part, bytes⟩ := (ih (by omega)).mp cutTail
          refine ⟨(List.prefix_cons_inj c).mpr part, ?_⟩
          rw [byteLen_cons]
          omega
        · cases done
      · rintro ⟨part, bytes⟩
        cases cut with
        | nil => cases bytes
        | cons first tail =>
          obtain ⟨rfl, later⟩ := List.cons_prefix_cons.mp part
          rw [byteLen_cons] at bytes
          have size : byteLen tail = len + 1 - first.utf8Size := by omega
          rw [if_pos (by omega), (ih (by omega)).mpr ⟨later, size⟩, Option.map_some]

/-! ## The extension -/

/-- A name is split before its last dot, or it has none and all of it is the stem. -/
structure SplitAtLastDot (name stem extension : List Char) : Prop where
  joined : stem ++ extension = name
  dot : '.' ∉ name ∧ extension = [] ∨ ∃ after, extension = '.' :: after ∧ '.' ∉ after

/-- A name that does not start with a dot is split before its last one. -/
theorem splitExtension_lastDot {name : List Char} (first : ∀ c ∈ name.head?, c ≠ '.') :
    SplitAtLastDot name (splitExtension name).1 (splitExtension name).2 where
  joined := splitExtension_append name
  dot := by
    let after := (name.reverse.takeWhile (· != '.')).reverse
    have plain : '.' ∉ after := by
      intro member
      have differs := List.mem_takeWhile_imp (List.mem_reverse.mp member)
      exact absurd differs (by decide)
    have whole (rest : List Char) (found : name.reverse.dropWhile (· != '.') = rest) :
        name = rest.reverse ++ after := by
      have split := List.takeWhile_append_dropWhile (p := (· != '.')) (l := name.reverse)
      rw [found] at split
      have reversed := congrArg List.reverse split
      simpa [after] using reversed.symm
    have isDot (dot : Char) (rest : List Char)
        (found : name.reverse.dropWhile (· != '.') = dot :: rest) : dot = '.' := by
      have stops := List.head?_dropWhile_not (· != '.') name.reverse
      rw [found] at stops
      simpa using stops
    unfold splitExtension
    split
    · rename_i none
      left
      rw [whole [] none]
      exact ⟨plain, rfl⟩
    · rename_i dot only
      obtain rfl := isDot dot [] only
      refine absurd rfl (first '.' ?_)
      rw [whole ['.'] only]
      rfl
    · rename_i dot before _ found
      obtain rfl := isDot dot before found
      refine .inr ⟨after, ?_, plain⟩
      change name.drop before.length = _
      have split := whole ('.' :: before) found
      rw [split, List.reverse_cons, List.append_assoc, List.drop_left' (List.length_reverse ..)]
      rfl

/-! ## The cut -/

/-- The name that is cut, when it is too long. -/
def cleaned (untrusted : String) : List Char := escapeReserved (cleanName untrusted.toList)

/-- A cleaned name does not start with a dot, and is not empty. -/
theorem cleaned_first (untrusted : String) :
    (∀ c ∈ (cleaned untrusted).head?, c ≠ '.') ∧ cleaned untrusted ≠ [] := by
  obtain ⟨-, first, -, some⟩ := escapeReserved_cleanName untrusted.toList
  refine ⟨fun c head => ?_, some⟩
  rintro rfl
  have kept := first '.' head
  exact absurd kept (by decide)

/-- An extension fits into the limit, and the cut that makes room for it is between two characters. -/
def Cuttable (name : List Char) : Prop :=
  byteLen (splitExtension name).2 ≤ maxFilenameLen ∧
    CharBoundary (splitExtension name).1 (maxFilenameLen - byteLen (splitExtension name).2)

/-- A long name is cut to a part of its stem that ends at the byte where its extension fits. -/
theorem truncateName_long {name cut : List Char} (long : maxFilenameLen < byteLen name) :
    truncateName name = some cut ↔ ∃ kept, kept <+: (splitExtension name).1 ∧
      byteLen kept = maxFilenameLen - byteLen (splitExtension name).2 ∧
      cut = kept ++ (splitExtension name).2 := by
  have joined := congrArg byteLen (splitExtension_append name)
  rw [byteLen_append] at joined
  have inside : maxFilenameLen - byteLen (splitExtension name).2 ≤ byteLen (splitExtension name).1 := by
    omega
  rw [truncateName, if_pos long, Option.map_eq_some_iff]
  constructor
  · rintro ⟨kept, done, rfl⟩
    obtain ⟨part, bytes⟩ := (truncateChars_iff inside).mp done
    exact ⟨kept, part, bytes, rfl⟩
  · rintro ⟨kept, part, bytes, rfl⟩
    exact ⟨kept, (truncateChars_iff inside).mpr ⟨part, bytes⟩, rfl⟩

/-- A name is sanitized to 1 to 255 bytes, and when it is cut it keeps its extension after a part of its
stem. -/
def Sanitizes (untrusted : String) : Prop :=
  ∃ name, sanitizeFilename untrusted = some name ∧
    1 ≤ byteLen name.toList ∧ byteLen name.toList ≤ maxFilenameLen ∧
    (maxFilenameLen < byteLen (cleaned untrusted) → ∃ stem extension kept,
      SplitAtLastDot (cleaned untrusted) stem extension ∧ kept <+: stem ∧
        name.toList = kept ++ extension)

/-- A name is sanitized to at most 255 bytes, with its extension, exactly when it is short or can be cut
where the code cuts it. -/
theorem sanitizes_iff (untrusted : String) : Sanitizes untrusted ↔
    byteLen (cleaned untrusted) ≤ maxFilenameLen ∨ Cuttable (cleaned untrusted) := by
  obtain ⟨first, nonempty⟩ := cleaned_first untrusted
  have sanitized (cut : List Char) (done : truncateName (cleaned untrusted) = some cut) :
      sanitizeFilename untrusted = some (.ofList cut) := by
    have unfolded : sanitizeFilename untrusted = (truncateName (cleaned untrusted)).map .ofList := rfl
    rw [unfolded, done, Option.map_some]
  constructor
  · rintro ⟨name, done, -, short, -⟩
    by_cases long : maxFilenameLen < byteLen (cleaned untrusted)
    · right
      obtain ⟨cut, truncated, rfl⟩ := Option.map_eq_some_iff.mp done
      obtain ⟨kept, part, bytes, rfl⟩ := (truncateName_long long).mp truncated
      rw [String.toList_ofList, byteLen_append] at short
      exact ⟨by omega, kept, part, bytes⟩
    · exact .inl (Nat.le_of_not_lt long)
  · intro condition
    by_cases long : maxFilenameLen < byteLen (cleaned untrusted)
    · obtain ⟨fits, kept, part, bytes⟩ := condition.resolve_left (Nat.not_le.mpr long)
      have truncated := (truncateName_long long).mpr ⟨kept, part, bytes, rfl⟩
      have total : byteLen (kept ++ (splitExtension (cleaned untrusted)).2) = maxFilenameLen := by
        rw [byteLen_append, bytes]
        omega
      refine ⟨_, sanitized _ truncated, ?_⟩
      rw [String.toList_ofList, total]
      exact ⟨by decide, Nat.le_refl _, fun _ => ⟨_, _, kept, splitExtension_lastDot first, part, rfl⟩⟩
    · have short := Nat.le_of_not_lt long
      have truncated : truncateName (cleaned untrusted) = some (cleaned untrusted) := by
        rw [truncateName, if_neg long]
      refine ⟨_, sanitized _ truncated, ?_⟩
      rw [String.toList_ofList]
      exact ⟨byteLen_pos nonempty, short, fun other => absurd other long⟩

/-- A name of 128 characters of two bytes each. -/
def sampleLong : String := .ofList (List.replicate 128 'é')

/-- A name whose cut panics has no result. -/
theorem sanitizeFilename_panics {name : List Char}
    (panics : truncateName (escapeReserved (cleanName name)) = none) :
    sanitizeFilename (.ofList name) = none := by
  rw [sanitizeFilename, String.toList_ofList, panics, Option.map_none]

/-- The cut of a long name may be inside a character. -/
theorem sanitizes_broken : ¬∀ untrusted : String, Sanitizes untrusted := by
  intro always
  have panics : sanitizeFilename sampleLong = none := sanitizeFilename_panics (by decide +kernel)
  obtain ⟨name, done, -⟩ := always sampleLong
  rw [panics] at done
  cases done

end FileDrop.TruncatedName
