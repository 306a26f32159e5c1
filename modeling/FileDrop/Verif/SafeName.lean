import FileDrop.Verif.TruncatedName

/-!
# What a sanitized name is free of

Every step before the cut gives a name that is safe to create: it has allowed characters only, starts and
ends with one that the trim keeps, and is no device name. The cut may undo that, at its end, at its start
or by what is left of a longer first part. Two dots in a row are in the result when they are in the middle
of the name, or come together there when the characters between them are taken away.
-/
namespace FileDrop.SafeName
open FileDrop TruncatedName

/-! ## Safe names -/

/-- The characters a name must not have. -/
def forbidden : List Char := ['/', '\\', '<', '>', ':', '"', '|', '?', '*']

/-- A device name, in any letter case. -/
def DeviceName (part : List Char) : Prop :=
  ∃ device ∈ windowsReserved, part.map toAsciiUppercase = device.toList

/-- What is before the first dot. -/
def firstPart (name : List Char) : List Char := name.takeWhile (· != '.')

/-- A name that is safe to create on every system. -/
structure Safe (name : List Char) : Prop where
  nonempty : name ≠ []
  allowed : ∀ c ∈ name, c ∉ forbidden ∧ isControl c = false
  first : ∀ c ∈ name.head?, c ≠ '.' ∧ isWhitespace c = false
  last : ∀ c ∈ name.getLast?, c ≠ '.' ∧ isWhitespace c = false
  device : ¬DeviceName (firstPart name)

/-- The check of the code finds the device names. -/
theorem isReserved_iff (name : List Char) : isReserved name = true ↔ DeviceName (firstPart name) := by
  rw [isReserved, List.contains_iff_mem]
  constructor
  · intro member
    exact ⟨_, member, (String.toList_ofList ..).symm⟩
  · rintro ⟨device, member, same⟩
    have text : String.ofList ((firstPart name).map toAsciiUppercase) = device := by
      rw [same, String.ofList_toList]
    exact text.symm ▸ member

/-- A device name has at most four characters of one byte, and no dot. -/
theorem device_short {part : List Char} (device : DeviceName part) :
    part.length ≤ 4 ∧ '.' ∉ part := by
  obtain ⟨name, member, same⟩ := device
  have facts : ∀ text ∈ windowsReserved, text.toList.length ≤ 4 ∧ '.' ∉ text.toList := by decide
  obtain ⟨short, dotless⟩ := facts name member
  constructor
  · rw [← List.length_map toAsciiUppercase, same]
    exact short
  · intro dot
    have upper : toAsciiUppercase '.' ∈ part.map toAsciiUppercase := List.mem_map_of_mem dot
    rw [same] at upper
    exact dotless upper

/-- What the trim keeps is neither a dot nor a space. -/
theorem kept_iff (c : Char) : isTrimmed c = false ↔ c ≠ '.' ∧ isWhitespace c = false := by
  rw [isTrimmed, Bool.or_eq_false_iff, beq_eq_false_iff_ne]

/-- The characters that the filter lets through after the last separator. -/
theorem allowed_of {c : Char} (separated : c ≠ '/' ∧ c ≠ '\\') (allowed : isAllowed c = true) :
    c ∉ forbidden ∧ isControl c = false := by
  rw [isAllowed, Bool.and_eq_true, Bool.not_eq_true', Bool.not_eq_true'] at allowed
  obtain ⟨listed, control⟩ := allowed
  refine ⟨fun member => ?_, control⟩
  have others : c ∈ ['<', '>', ':', '"', '|', '?', '*'] := by
    rcases List.mem_cons.mp member with slash | member
    · exact absurd slash separated.1
    · rcases List.mem_cons.mp member with backslash | member
      · exact absurd backslash separated.2
      · exact member
  have found := List.contains_iff_mem.mpr others
  rw [listed] at found
  cases found

/-- The characters of a cleaned name are allowed. -/
theorem cleanName_allowed (untrusted : List Char) :
    ∀ c ∈ cleanName untrusted, c ∉ forbidden ∧ isControl c = false := by
  unfold cleanName
  split
  · exact forall_chars (by decide)
  · intro c member
    have filtered := trimMatches_subset _ _ member
    obtain ⟨inside, allowed⟩ := List.mem_filter.mp filtered
    have separated := List.mem_takeWhile_imp (List.mem_reverse.mp inside)
    simp only [Bool.not_eq_true', Bool.or_eq_false_iff, beq_eq_false_iff_ne] at separated
    exact allowed_of separated allowed

/-- The name that may be cut is safe. -/
theorem cleaned_safe (untrusted : String) : Safe (cleaned untrusted) := by
  obtain ⟨-, first, last, nonempty⟩ := escapeReserved_cleanName untrusted.toList
  refine ⟨nonempty, ?_, fun c head => (kept_iff c).mp (first c head),
    fun c ending => (kept_iff c).mp (last c ending), ?_⟩
  · have allowed := cleanName_allowed untrusted.toList
    unfold cleaned escapeReserved
    split
    · exact List.forall_mem_cons.mpr ⟨by decide, allowed⟩
    · exact allowed
  · unfold cleaned escapeReserved
    split
    · -- no device name starts with an underscore
      rintro ⟨device, member, same⟩
      have other : ∀ text ∈ windowsReserved, text.toList.head? ≠ some '_' := by decide
      refine other device member ?_
      rw [← same]
      rfl
    · rename_i free
      rwa [isReserved_iff] at free

/-! ## The cut -/

/-- The cut of a long name does no harm: there is room before the extension, a name without one is not cut
after a space, and what is left of the stem is no device name. -/
structure CutsSafely (name : List Char) : Prop where
  room : byteLen (splitExtension name).2 < maxFilenameLen
  solid : (splitExtension name).2 = [] → ∀ kept, kept <+: name → byteLen kept = maxFilenameLen →
    ∀ c ∈ kept.getLast?, isWhitespace c = false
  device : ∀ kept, kept <+: (splitExtension name).1 →
    byteLen kept = maxFilenameLen - byteLen (splitExtension name).2 → ¬DeviceName kept

section

variable {name stem extension kept : List Char}

/-- The first part ends at the first dot. -/
theorem firstPart_dot {part : List Char} (dotless : '.' ∉ part) (after : List Char) :
    firstPart (part ++ '.' :: after) = part := by
  have plain : ∀ c ∈ part, (c != '.') = true := fun c member =>
    bne_iff_ne.mpr fun same => dotless (same ▸ member)
  rw [firstPart, List.takeWhile_append_of_pos plain]
  simp

/-- Without a dot it is the whole name. -/
theorem firstPart_dotless {part : List Char} (dotless : '.' ∉ part) : firstPart part = part :=
  List.takeWhile_eq_self_iff.mpr fun _ member => bne_iff_ne.mpr fun same => dotless (same ▸ member)

/-- The first part of a name that is cut before its last dot: that of the whole name, or what is kept. -/
theorem firstPart_cut (split : SplitAtLastDot name stem extension) (part : kept <+: stem) :
    firstPart (kept ++ extension) = firstPart name ∧ '.' ∈ kept ∨
      firstPart (kept ++ extension) = kept := by
  by_cases dotted : '.' ∈ kept
  · left
    obtain ⟨before, after, rfl, dotless⟩ := List.eq_append_cons_of_mem dotted
    obtain ⟨rest, rfl⟩ := part
    refine ⟨?_, dotted⟩
    rw [← split.joined, List.append_assoc, List.append_assoc, List.append_assoc, List.cons_append,
      List.cons_append, firstPart_dot dotless, firstPart_dot dotless]
  · right
    rcases split.dot with ⟨-, rfl⟩ | ⟨after, rfl, -⟩
    · rw [List.append_nil, firstPart_dotless dotted]
    · exact firstPart_dot dotted after

/-- A text has one start of a number of bytes. -/
theorem prefix_unique {text one other : List Char} (first : one <+: text) (second : other <+: text)
    (same : byteLen one = byteLen other) : one = other := by
  have extends_ {short long : List Char} (part : short <+: long) (bytes : byteLen short = byteLen long) :
      short = long := by
    obtain ⟨rest, rfl⟩ := part
    rw [byteLen_append] at bytes
    have none : rest = [] := by
      by_contra some
      have positive := byteLen_pos some
      omega
    rw [none, List.append_nil]
  rcases List.prefix_or_prefix_of_prefix first second with shorter | longer
  · exact extends_ shorter same
  · exact (extends_ longer same.symm).symm

/-- A cut is no device name exactly when what is kept of the stem is none. -/
theorem cut_device (split : SplitAtLastDot name stem extension) (part : kept <+: stem)
    (free : ¬DeviceName (firstPart name)) :
    ¬DeviceName (firstPart (kept ++ extension)) ↔ ¬DeviceName kept := by
  rcases firstPart_cut split part with ⟨same, dotted⟩ | same
  · rw [same]
    exact iff_of_true free fun device => (device_short device).2 dotted
  · rw [same]

/-- A cut ends as the name does, or where it is cut when the name has no extension. -/
theorem cut_last (split : SplitAtLastDot name stem extension) (part : kept <+: stem)
    (last : ∀ c ∈ name.getLast?, c ≠ '.' ∧ isWhitespace c = false) :
    (∀ c ∈ (kept ++ extension).getLast?, c ≠ '.' ∧ isWhitespace c = false) ↔
      (extension = [] → ∀ c ∈ kept.getLast?, isWhitespace c = false) := by
  rcases split.dot with ⟨dotless, rfl⟩ | ⟨after, rfl, -⟩
  · have whole : stem = name := by rw [← split.joined, List.append_nil]
    have inside (c : Char) (ending : c ∈ kept.getLast?) : c ≠ '.' := by
      rintro rfl
      exact dotless (whole ▸ part.mem (List.mem_of_mem_getLast? ending))
    rw [List.append_nil]
    constructor
    · exact fun safe _ c ending => (safe c ending).2
    · exact fun solid c ending => ⟨inside c ending, solid rfl c ending⟩
  · refine iff_of_true ?_ fun none => absurd none (List.cons_ne_nil _ _)
    have same : (kept ++ '.' :: after).getLast? = name.getLast? := by
      rw [← split.joined, List.getLast?_append_cons, List.getLast?_append_cons]
    rwa [same]

/-- A cut starts as the name does exactly when something of its stem is kept. -/
theorem cut_first (split : SplitAtLastDot name stem extension) (part : kept <+: stem)
    (long : kept = [] → extension ≠ [])
    (first : ∀ c ∈ name.head?, c ≠ '.' ∧ isWhitespace c = false) :
    (∀ c ∈ (kept ++ extension).head?, c ≠ '.' ∧ isWhitespace c = false) ↔ kept ≠ [] := by
  cases kept with
  | nil =>
    rcases split.dot with ⟨-, rfl⟩ | ⟨after, rfl, -⟩
    · exact absurd rfl (long rfl)
    · refine iff_of_false (fun safe => ?_) fun some => some rfl
      exact (safe '.' rfl).1 rfl
  | cons c kept =>
    refine iff_of_true ?_ (List.cons_ne_nil _ _)
    obtain ⟨rest, rfl⟩ := part
    rw [← split.joined] at first
    exact first

end

/-- A cut is safe exactly when the name is cut safely. -/
theorem cut_safe {name kept : List Char} (safe : Safe name) (part : kept <+: (splitExtension name).1)
    (bytes : byteLen kept = maxFilenameLen - byteLen (splitExtension name).2) :
    Safe (kept ++ (splitExtension name).2) ↔ CutsSafely name := by
  have split := splitExtension_lastDot fun c head => (safe.first c head).1
  have whole (none : (splitExtension name).2 = []) : (splitExtension name).1 = name := by
    have joined := split.joined
    rwa [none, List.append_nil] at joined
  have some (nothing : kept = []) : (splitExtension name).2 ≠ [] := by
    rintro none
    rw [nothing, none] at bytes
    exact absurd bytes (by decide)
  have room : kept ≠ [] ↔ byteLen (splitExtension name).2 < maxFilenameLen := by
    constructor
    · intro nonempty
      have positive := byteLen_pos nonempty
      omega
    · rintro below rfl
      have none : byteLen [] = 0 := rfl
      omega
  have first := cut_first split part some safe.first
  have last := cut_last split part safe.last
  have device := cut_device split part safe.device
  constructor
  · intro cut
    refine ⟨room.mp (first.mp cut.first), fun none other start total => ?_, fun other start total => ?_⟩
    · have ends := last.mp cut.last none
      rw [whole none] at part
      rw [none] at bytes
      rwa [prefix_unique start part (total.trans bytes.symm)]
    · have free := device.mp cut.device
      rwa [prefix_unique start part (total.trans bytes.symm)]
  · intro cuts
    have nonempty := room.mpr cuts.room
    refine ⟨fun none => nonempty (List.append_eq_nil_iff.mp none).1, fun c member => ?_,
      first.mpr nonempty, last.mpr fun none => ?_, device.mpr (cuts.device kept part bytes)⟩
    · refine safe.allowed c ?_
      rw [← split.joined]
      rcases List.mem_append.mp member with inStem | inExtension
      · exact List.mem_append_left _ (part.mem inStem)
      · exact List.mem_append_right _ inExtension
    · rw [whole none] at part
      rw [none] at bytes
      exact cuts.solid none kept part bytes

/-- A result is the name before the cut, when that is short, or what the cut makes of it. -/
theorem sanitized_cases {untrusted name : String} (sanitized : sanitizeFilename untrusted = some name) :
    byteLen (cleaned untrusted) ≤ maxFilenameLen ∧ name.toList = cleaned untrusted ∨
      maxFilenameLen < byteLen (cleaned untrusted) ∧
        ∃ kept, kept <+: (splitExtension (cleaned untrusted)).1 ∧
          byteLen kept = maxFilenameLen - byteLen (splitExtension (cleaned untrusted)).2 ∧
          name.toList = kept ++ (splitExtension (cleaned untrusted)).2 := by
  obtain ⟨cut, truncated, rfl⟩ := Option.map_eq_some_iff.mp sanitized
  rw [String.toList_ofList]
  by_cases long : maxFilenameLen < byteLen (cleaned untrusted)
  · exact .inr ⟨long, (truncateName_long long).mp truncated⟩
  · have kept : truncateName (cleaned untrusted) = some (cleaned untrusted) := by
      rw [truncateName, if_neg long]
    exact .inl ⟨Nat.le_of_not_lt long, Option.some.inj (truncated.symm.trans kept)⟩

/-- A sanitized name is safe exactly when it was short enough before the cut, or is cut safely. -/
theorem safe_iff (untrusted name : String) (sanitized : sanitizeFilename untrusted = some name) :
    Safe name.toList ↔
      byteLen (cleaned untrusted) ≤ maxFilenameLen ∨ CutsSafely (cleaned untrusted) := by
  have safe := cleaned_safe untrusted
  rcases sanitized_cases sanitized with ⟨short, same⟩ | ⟨long, kept, part, bytes, same⟩
  · rw [same]
    exact iff_of_true safe (.inl short)
  · rw [same, cut_safe safe part bytes]
    exact (or_iff_right (Nat.not_le.mpr long)).symm

/-- A path, with a character that is filtered out and a stem that is too long. -/
def sampleReport : List Char := "docs/re?port".toList ++ List.replicate 250 'a' ++ ".pdf".toList

/-- A name that is filtered and cut. -/
theorem safe_iff_report :
    sanitizeFilename (.ofList sampleReport) =
        some (.ofList ("report".toList ++ List.replicate 245 'a' ++ ".pdf".toList)) ∧
      (Safe ("report".toList ++ List.replicate 245 'a' ++ ".pdf".toList) ↔
        byteLen (cleaned (.ofList sampleReport)) ≤ maxFilenameLen ∨
          CutsSafely (cleaned (.ofList sampleReport))) := by
  have cut : truncateName (escapeReserved (cleanName sampleReport)) =
      some ("report".toList ++ List.replicate 245 'a' ++ ".pdf".toList) := by
    decide +kernel
  have sanitized : sanitizeFilename (.ofList sampleReport) =
      some (.ofList ("report".toList ++ List.replicate 245 'a' ++ ".pdf".toList)) := by
    rw [sanitizeFilename, String.toList_ofList, cut, Option.map_some]
  refine ⟨sanitized, ?_⟩
  have iff := safe_iff _ _ sanitized
  rwa [String.toList_ofList] at iff

/-- The device name `CON` with a letter more, and with an extension of 252 bytes. -/
def sampleDevice : List Char := "CONX.".toList ++ List.replicate 251 'a'

/-- A cut may leave a device name. -/
theorem safe_broken : ¬∀ untrusted name : String, sanitizeFilename untrusted = some name →
    Safe name.toList := by
  intro always
  have cut : truncateName (escapeReserved (cleanName sampleDevice)) =
      some ("CON.".toList ++ List.replicate 251 'a') := by
    decide +kernel
  have sanitized : sanitizeFilename (.ofList sampleDevice) =
      some (.ofList ("CON.".toList ++ List.replicate 251 'a')) := by
    rw [sanitizeFilename, String.toList_ofList, cut, Option.map_some]
  have safe := always _ _ sanitized
  refine safe.device ⟨"CON", by decide, ?_⟩
  rw [String.toList_ofList]
  decide +kernel

end FileDrop.SafeName
