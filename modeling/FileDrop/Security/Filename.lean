import Mathlib.Data.List.TakeWhile
import FileDrop.Core.Header

/-!
# File names from the wire

The sanitizer of a received file name, step by step on the characters of the name. A name cut at
255 bytes inside a character panics in the code, and has no result here. Of a result this module
says what the later path check relies on: it is one normal path component.
-/
namespace FileDrop

/-- `filename::WINDOWS_RESERVED`. -/
def windowsReserved : List String :=
  ["CON", "PRN", "AUX", "NUL", "COM1", "COM2", "COM3", "COM4", "COM5", "COM6", "COM7", "COM8",
    "COM9", "LPT1", "LPT2", "LPT3", "LPT4", "LPT5", "LPT6", "LPT7", "LPT8", "LPT9"]

/-- `filename::MAX_FILENAME_LEN`. -/
def maxFilenameLen : Nat := 255

/-- Number of bytes of a text. -/
def byteLen (text : List Char) : Nat := (text.map Char.utf8Size).sum

/-- `String::truncate`, which panics inside a character. -/
def truncateChars : Nat → List Char → Option (List Char)
  | 0, _ => some []
  | _ + 1, [] => some []
  | len + 1, c :: rest =>
    if c.utf8Size ≤ len + 1 then (truncateChars (len + 1 - c.utf8Size) rest).map (c :: ·) else none

/-- `char::to_ascii_uppercase`. -/
def toAsciiUppercase (c : Char) : Char :=
  if 'a' ≤ c ∧ c ≤ 'z' then .ofNat (c.toNat - 32) else c

/-- What is after the last path separator. -/
def afterSeparators (untrusted : List Char) : List Char :=
  (untrusted.reverse.takeWhile fun c => !(c == '/' || c == '\\')).reverse

/-- The characters the filter lets through. -/
def isAllowed (c : Char) : Bool :=
  !(['<', '>', ':', '"', '|', '?', '*'].contains c) && !isControl c

/-- What the trim takes away at the ends. -/
def isTrimmed (c : Char) : Bool := c == '.' || isWhitespace c

/-- The name before the reserved-name check. -/
def cleanName (untrusted : List Char) : List Char :=
  match trimMatches isTrimmed ((afterSeparators untrusted).filter isAllowed) with
  | [] => "unnamed_file".toList
  | trimmed => trimmed

/-- Is the part before the first dot a reserved device name? -/
def isReserved (name : List Char) : Bool :=
  windowsReserved.contains (.ofList ((name.takeWhile (· != '.')).map toAsciiUppercase))

/-- A reserved name gets an underscore. -/
def escapeReserved (name : List Char) : List Char := if isReserved name then '_' :: name else name

/-- Stem and extension at the last dot, when it is not the first character. -/
def splitExtension (name : List Char) : List Char × List Char :=
  match name.reverse.dropWhile (· != '.') with
  | [] => (name, [])
  | [_] => (name, [])
  | _ :: before => (before.reverse, name.drop before.length)

/-- The cut to `MAX_FILENAME_LEN` bytes. -/
def truncateName (name : List Char) : Option (List Char) :=
  if byteLen name > maxFilenameLen then
    let parts := splitExtension name
    (truncateChars (maxFilenameLen - byteLen parts.2) parts.1).map (· ++ parts.2)
  else some name

/-- `filename::sanitize_filename`, where it does not panic. -/
def sanitizeFilename (untrusted : String) : Option String :=
  (truncateName (escapeReserved (cleanName untrusted.toList))).map .ofList

/-! ## The result is one path component -/

/-- A character a sanitized name may have. -/
def Clean (c : Char) : Prop := c ≠ '/' ∧ c ≠ '\\' ∧ isControl c = false

instance : DecidablePred Clean := fun c =>
  inferInstanceAs (Decidable (c ≠ '/' ∧ c ≠ '\\' ∧ isControl c = false))

/-- The name that goes into the cut has clean characters and a first and a last character that
the trim keeps. -/
theorem escapeReserved_cleanName (untrusted : List Char) :
    (∀ c ∈ escapeReserved (cleanName untrusted), Clean c) ∧
      (∀ c ∈ (escapeReserved (cleanName untrusted)).head?, isTrimmed c = false) ∧
      (∀ c ∈ (escapeReserved (cleanName untrusted)).getLast?, isTrimmed c = false) ∧
      escapeReserved (cleanName untrusted) ≠ [] := by
  have clean : (∀ c ∈ cleanName untrusted, Clean c) ∧
      (∀ c ∈ (cleanName untrusted).head?, isTrimmed c = false) ∧
      (∀ c ∈ (cleanName untrusted).getLast?, isTrimmed c = false) ∧ cleanName untrusted ≠ [] := by
    unfold cleanName
    split
    · refine ⟨forall_chars (by decide), ?_, ?_, by decide⟩
      · rintro c ⟨rfl⟩
        decide
      · rintro c ⟨rfl⟩
        decide
    · rename_i trimmed some
      refine ⟨fun c member => ?_, ?_, ?_, some⟩
      · have filtered := trimMatches_subset _ _ member
        obtain ⟨inside, allowed⟩ := List.mem_filter.mp filtered
        have separated := List.mem_takeWhile_imp (List.mem_reverse.mp inside)
        simp only [Bool.not_eq_true', Bool.or_eq_false_iff, beq_eq_false_iff_ne] at separated
        simp only [isAllowed, Bool.and_eq_true, Bool.not_eq_true'] at allowed
        exact ⟨separated.1, separated.2, allowed.2⟩
      · intro c first
        obtain ⟨rest, split⟩ := List.head?_eq_some_iff.mp first
        exact head_trimMatches _ _ c rest split
      · intro c last
        obtain ⟨before, split⟩ := List.getLast?_eq_some_iff.mp last
        exact last_trimMatches _ _ c before.reverse (by rw [split]; simp)
  unfold escapeReserved
  split
  · refine ⟨?_, ?_, ?_, by simp⟩
    · refine List.forall_mem_cons.mpr ⟨?_, clean.1⟩
      decide
    · intro c first
      obtain rfl := Option.some.inj first
      decide
    · intro c last
      obtain ⟨head, rest, split⟩ := List.exists_cons_of_ne_nil clean.2.2.2
      rw [split, List.getLast?_cons_cons, ← split] at last
      exact clean.2.2.1 c last
  · exact clean

/-- A cut keeps a prefix. -/
theorem truncateChars_prefix {len : Nat} {text cut : List Char}
    (done : truncateChars len text = some cut) : cut <+: text := by
  induction text generalizing len cut with
  | nil =>
    have empty : cut = [] := by cases len <;> simpa [truncateChars] using done.symm
    exact empty ▸ List.prefix_refl _
  | cons c rest ih =>
    cases len with
    | zero =>
      obtain rfl := Option.some.inj done
      exact List.nil_prefix
    | succ len =>
      unfold truncateChars at done
      split at done
      · obtain ⟨tail, cutTail, rfl⟩ := Option.map_eq_some_iff.mp done
        exact List.prefix_cons_inj c |>.mpr (ih cutTail)
      · cases done

/-- A cut at four bytes or more keeps the first character. -/
theorem truncateChars_head {len : Nat} {c : Char} {rest cut : List Char} (room : 4 ≤ len)
    (done : truncateChars len (c :: rest) = some cut) : c ∈ cut := by
  obtain ⟨len, rfl⟩ := Nat.exists_eq_succ_of_ne_zero (show len ≠ 0 by omega)
  unfold truncateChars at done
  split at done
  · obtain ⟨tail, -, rfl⟩ := Option.map_eq_some_iff.mp done
    exact List.mem_cons_self
  · cases done

/-- Stem and extension make up the name, and the extension is empty or ends it. -/
theorem splitExtension_append (name : List Char) :
    (splitExtension name).1 ++ (splitExtension name).2 = name := by
  unfold splitExtension
  split
  · exact List.append_nil name
  · exact List.append_nil name
  · rename_i dot before _ found
    obtain ⟨after, joined⟩ := List.dropWhile_suffix (l := name.reverse) (· != '.')
    rw [found] at joined
    have whole : name = before.reverse ++ dot :: after.reverse := by
      have reversed := congrArg List.reverse joined
      simpa using reversed.symm
    have same : before.reverse = name.take before.length := by
      rw [whole, List.take_left' (by simp)]
    rw [same, List.take_append_drop]

/-- A name that goes into the cut comes out with its characters clean and one that the trim
keeps. -/
theorem truncateName_clean {name cut : List Char} (clean : ∀ c ∈ name, Clean c)
    (first : ∀ c ∈ name.head?, isTrimmed c = false) (last : ∀ c ∈ name.getLast?, isTrimmed c = false)
    (some : name ≠ []) (done : truncateName name = Option.some cut) :
    (∀ c ∈ cut, Clean c) ∧ ∃ c ∈ cut, isTrimmed c = false := by
  by_cases long : byteLen name > maxFilenameLen
  · rw [truncateName, if_pos long] at done
    obtain ⟨stem, short, rfl⟩ := Option.map_eq_some_iff.mp done
    have whole := splitExtension_append name
    have shortStem := truncateChars_prefix short
    constructor
    · intro c member
      refine clean c (whole ▸ ?_)
      rcases List.mem_append.mp member with inStem | inExt
      · exact List.mem_append_left _ (shortStem.mem inStem)
      · exact List.mem_append_right _ inExt
    · cases extension : (splitExtension name).2 with
      | nil =>
        rw [extension, List.append_nil] at whole
        rw [extension, whole] at short
        obtain ⟨c, rest, rfl⟩ := List.exists_cons_of_ne_nil some
        exact ⟨c, List.mem_append_left _ (truncateChars_head (by decide) short), first c rfl⟩
      | cons c rest =>
        obtain ⟨d, found⟩ := Option.isSome_iff_exists.mp
          (List.getLast?_isSome.mpr (List.cons_ne_nil c rest))
        have ending : name.getLast? = Option.some d := by
          rw [← whole, extension, List.getLast?_append_cons, found]
        exact ⟨d, List.mem_append_right _ (List.mem_of_getLast? found), last d ending⟩
  · rw [truncateName, if_neg long] at done
    obtain rfl := Option.some.inj done
    obtain ⟨c, rest, rfl⟩ := List.exists_cons_of_ne_nil some
    exact ⟨clean, c, List.mem_cons_self, first c rfl⟩

/-- A sanitized name has clean characters, and one that the trim keeps. -/
theorem sanitizeFilename_clean {untrusted name : String}
    (done : sanitizeFilename untrusted = some name) :
    (∀ c ∈ name.toList, Clean c) ∧ ∃ c ∈ name.toList, isTrimmed c = false := by
  obtain ⟨cut, short, rfl⟩ := Option.map_eq_some_iff.mp done
  obtain ⟨clean, first, last, some⟩ := escapeReserved_cleanName untrusted.toList
  rw [String.toList_ofList]
  exact truncateName_clean clean first last some short

/-! ## Names of one-byte characters -/

/-- A text of one-byte characters can be cut anywhere. -/
theorem truncateChars_single {len : Nat} {text : List Char}
    (single : ∀ c ∈ text, c.utf8Size = 1) : (truncateChars len text).isSome := by
  induction text generalizing len with
  | nil => cases len <;> rfl
  | cons c rest ih =>
    cases len with
    | zero => rfl
    | succ len =>
      obtain ⟨one, tail⟩ := List.forall_mem_cons.mp single
      simp [truncateChars, one, ih tail]

/-- A printable name is sanitized without a panic. -/
theorem sanitizeFilename_printable {untrusted : String} (printable : Printable untrusted.toList) :
    ∃ name, sanitizeFilename untrusted = some name := by
  have single : ∀ c ∈ escapeReserved (cleanName untrusted.toList), c.utf8Size = 1 := by
    have cleaned : ∀ c ∈ cleanName untrusted.toList, c.utf8Size = 1 := by
      unfold cleanName
      split
      · exact forall_chars (by decide)
      · intro c member
        have inside := (List.mem_filter.mp (trimMatches_subset _ _ member)).1
        have original := (List.takeWhile_prefix _).mem (List.mem_reverse.mp inside)
        obtain ⟨-, high⟩ := printable c (List.mem_reverse.mp original)
        have small : c.val ≤ 127 := UInt32.le_iff_toNat_le.mpr (by show c.toNat ≤ 127; omega)
        simp [Char.utf8Size, small]
    unfold escapeReserved
    split
    · exact List.forall_mem_cons.mpr ⟨by decide, cleaned⟩
    · exact cleaned
  have cut : (truncateName (escapeReserved (cleanName untrusted.toList))).isSome := by
    unfold truncateName
    split
    · have stem : ∀ c ∈ (splitExtension (escapeReserved (cleanName untrusted.toList))).1,
          c.utf8Size = 1 := by
        intro c member
        have whole := splitExtension_append (escapeReserved (cleanName untrusted.toList))
        rw [← whole] at single
        exact single c (List.mem_append_left _ member)
      simpa using truncateChars_single stem
    · rfl
  obtain ⟨name, done⟩ := Option.isSome_iff_exists.mp cut
  exact ⟨.ofList name, by rw [sanitizeFilename, done, Option.map_some]⟩

/-! ## Blanks around a name -/

/-- Blanks before a name go with the path, or stay before what is after it. -/
theorem afterSeparators_pad {before after : List Char} (text : List Char)
    (front : ∀ c ∈ before, (c == ' ') = true) (back : ∀ c ∈ after, (c == ' ') = true) :
    ∃ kept, (∀ c ∈ kept, (c == ' ') = true) ∧
      afterSeparators (before ++ text ++ after) = kept ++ afterSeparators text ++ after := by
  have plain {blanks : List Char} (blank : ∀ c ∈ blanks, (c == ' ') = true) :
      ∀ c ∈ blanks.reverse, (!(c == '/' || c == '\\')) = true := by
    intro c member
    obtain rfl : c = ' ' := beq_iff_eq.mp (blank c (List.mem_reverse.mp member))
    decide
  unfold afterSeparators
  rw [List.reverse_append, List.takeWhile_append_of_pos (plain back), List.reverse_append,
    List.reverse_reverse, List.reverse_append, List.takeWhile_append]
  split
  · rename_i whole
    have all := List.takeWhile_eq_self_iff.mpr (plain front)
    refine ⟨before, front, ?_⟩
    have same : text.reverse.takeWhile (fun c => !(c == '/' || c == '\\')) = text.reverse :=
      (List.takeWhile_prefix _).eq_of_length whole
    rw [all, same]
    simp
  · exact ⟨[], by simp, by simp⟩

/-- Blanks around a name make no difference to the sanitizer. -/
theorem sanitizeFilename_received (text : String) :
    sanitizeFilename (received text) = sanitizeFilename text := by
  obtain ⟨before, after, split, front, back⟩ := trimMatches_split (· == ' ') text.toList
  obtain ⟨kept, blank, same⟩ := afterSeparators_pad (trimMatches (· == ' ') text.toList) front back
  have dropped {blanks : List Char} (all : ∀ c ∈ blanks, (c == ' ') = true) :
      ∀ c ∈ blanks.filter isAllowed, isTrimmed c = true := by
    intro c member
    obtain rfl : c = ' ' := beq_iff_eq.mp (all c (List.mem_of_mem_filter member))
    decide
  have clean : cleanName (trimMatches (· == ' ') text.toList) = cleanName text.toList := by
    conv_rhs => rw [split]
    unfold cleanName
    rw [same, List.filter_append, List.filter_append, trimMatches_pad _ (dropped blank) (dropped back)]
  rw [sanitizeFilename, sanitizeFilename, received, String.toList_ofList, clean]

end FileDrop
