import FileDrop.Verif.SafeName

/-!
# Two dots in a row

Dots are taken away at the ends of a name only. Two of them are left in a row when they are in the middle
of the name with nothing between them that the filter lets through, and they come together when a long
name is cut after a dot of its stem.
-/
namespace FileDrop.NameDots
open FileDrop TruncatedName SafeName

/-- Two dots in a row somewhere in a name. -/
def Doubled (name : List Char) : Prop := ['.', '.'] <:+: name

instance (name : List Char) : Decidable (Doubled name) :=
  inferInstanceAs (Decidable (['.', '.'] <:+: name))

/-- A character that is left wherever it is: the filter lets it through, and the trim stops at it. -/
def Stays (c : Char) : Prop := isAllowed c = true ∧ isTrimmed c = false

/-- Two dots of a name meet: nothing between them is let through, and on either side of them is a character
that stays. -/
def DotsMeet (name : List Char) : Prop :=
  ∃ before between after, name = before ++ '.' :: (between ++ '.' :: after) ∧
    (∀ c ∈ between, isAllowed c = false) ∧ (∃ c ∈ before, Stays c) ∧ ∃ c ∈ after, Stays c

/-! ## The filter and the trim -/

/-- What is before a character that does not match is not all dropped. -/
theorem dropWhile_stops {p : Char → Bool} {text : List Char} {c : Char} (member : c ∈ text)
    (kept : p c = false) : (text.dropWhile p).isEmpty = false := by
  rw [List.isEmpty_eq_false_iff]
  intro none
  have matched := List.dropWhile_eq_nil_iff.mp none c member
  rw [kept] at matched
  cases matched

/-- What is between characters that do not match is left by a trim. -/
theorem trimMatches_between {p : Char → Bool} {before after : List Char} (middle : List Char)
    (front : ∃ c ∈ before, p c = false) (back : ∃ c ∈ after, p c = false) :
    middle <:+: trimMatches p (before ++ (middle ++ after)) := by
  obtain ⟨first, inFront, keptFirst⟩ := front
  obtain ⟨last, behind, keptLast⟩ := back
  have dropped : (before ++ (middle ++ after)).dropWhile p = before.dropWhile p ++ (middle ++ after) := by
    rw [List.dropWhile_append, dropWhile_stops inFront keptFirst]
    rfl
  have turned : (before.dropWhile p ++ (middle ++ after)).reverse.dropWhile p =
      after.reverse.dropWhile p ++ (before.dropWhile p ++ middle).reverse := by
    rw [← List.append_assoc, List.reverse_append, List.dropWhile_append,
      dropWhile_stops (List.mem_reverse.mpr behind) keptLast]
    rfl
  refine ⟨before.dropWhile p, (after.reverse.dropWhile p).reverse, ?_⟩
  rw [trimMatches, dropped, turned, List.reverse_append, List.reverse_reverse]

/-- Two dots are left by the trim when they have characters on either side that are not trimmed. -/
theorem doubled_trim (name : List Char) : Doubled (trimMatches isTrimmed name) ↔
    ∃ before after, name = before ++ '.' :: '.' :: after ∧ (∃ c ∈ before, isTrimmed c = false) ∧
      ∃ c ∈ after, isTrimmed c = false := by
  constructor
  · rintro ⟨first, last, joined⟩
    obtain ⟨before, after, split, -, -⟩ := trimMatches_split isTrimmed name
    have front : ∃ c ∈ first, isTrimmed c = false := by
      cases first with
      | nil =>
        have kept := head_trimMatches isTrimmed name '.' ('.' :: last) joined.symm
        exact absurd kept (by decide)
      | cons c rest => exact ⟨c, List.mem_cons_self, head_trimMatches isTrimmed name c _ joined.symm⟩
    have back : ∃ c ∈ last, isTrimmed c = false := by
      have reversed := congrArg List.reverse joined
      rw [List.reverse_append] at reversed
      cases ending : last.reverse with
      | nil =>
        rw [ending, List.nil_append, List.reverse_append] at reversed
        have kept := last_trimMatches isTrimmed name '.' _ reversed.symm
        exact absurd kept (by decide)
      | cons c rest =>
        rw [ending] at reversed
        have member : c ∈ last := by
          rw [← List.mem_reverse, ending]
          exact List.mem_cons_self
        exact ⟨c, member, last_trimMatches isTrimmed name c _ reversed.symm⟩
    refine ⟨before ++ first, last ++ after, ?_, ?_, ?_⟩
    · rw [split, ← joined]
      simp
    · obtain ⟨c, member, kept⟩ := front
      exact ⟨c, List.mem_append_right _ member, kept⟩
    · obtain ⟨c, member, kept⟩ := back
      exact ⟨c, List.mem_append_left _ member, kept⟩
  · rintro ⟨before, after, rfl, front, back⟩
    exact trimMatches_between ['.', '.'] front back

/-- Two dots of a filtered text: in the text nothing that is let through is between them. -/
theorem filter_dots {text before after : List Char}
    (filtered : text.filter isAllowed = before ++ '.' :: '.' :: after) :
    ∃ first between last, text = first ++ '.' :: (between ++ '.' :: last) ∧
      (∀ c ∈ between, isAllowed c = false) ∧ first.filter isAllowed = before ∧
      last.filter isAllowed = after := by
  obtain ⟨front, rest, rfl, frontKept, restKept⟩ := List.filter_eq_append_iff.mp filtered
  obtain ⟨skipped, later, rfl, noneFirst, -, laterKept⟩ := List.filter_eq_cons_iff.mp restKept
  obtain ⟨between, last, rfl, noneBetween, -, lastKept⟩ := List.filter_eq_cons_iff.mp laterKept
  refine ⟨front ++ skipped, between, last, ?_, fun c member => ?_, ?_, lastKept⟩
  · rw [List.append_assoc]
  · exact Bool.eq_false_iff.mpr (noneBetween c member)
  · have nothing : skipped.filter isAllowed = [] := List.filter_eq_nil_iff.mpr noneFirst
    rw [List.filter_append, nothing, List.append_nil, frontKept]

/-- A character that stays is one of those let through that the trim keeps. -/
theorem stays_filter {text : List Char} : (∃ c ∈ text, Stays c) ↔
    ∃ c ∈ text.filter isAllowed, isTrimmed c = false := by
  constructor
  · rintro ⟨c, member, allowed, kept⟩
    exact ⟨c, List.mem_filter.mpr ⟨member, allowed⟩, kept⟩
  · rintro ⟨c, member, kept⟩
    obtain ⟨inside, allowed⟩ := List.mem_filter.mp member
    exact ⟨c, inside, allowed, kept⟩

/-- A name has two dots in a row after the filter and the trim exactly when two of its dots meet. -/
theorem doubled_kept (name : List Char) :
    Doubled (trimMatches isTrimmed (name.filter isAllowed)) ↔ DotsMeet name := by
  rw [doubled_trim]
  constructor
  · rintro ⟨before, after, filtered, front, back⟩
    obtain ⟨first, between, last, rfl, none, rfl, rfl⟩ := filter_dots filtered
    exact ⟨first, between, last, rfl, none, stays_filter.mpr front, stays_filter.mpr back⟩
  · rintro ⟨before, between, after, rfl, none, front, back⟩
    refine ⟨before.filter isAllowed, after.filter isAllowed, ?_, stays_filter.mp front,
      stays_filter.mp back⟩
    have nothing : between.filter isAllowed = [] :=
      List.filter_eq_nil_iff.mpr fun c member => Bool.eq_false_iff.mp (none c member)
    have dot : isAllowed '.' = true := by decide
    rw [List.filter_append, List.filter_cons_of_pos dot, List.filter_append, nothing, List.nil_append,
      List.filter_cons_of_pos dot]

/-- The name that may be cut has two dots in a row exactly when two dots of the received one meet. -/
theorem doubled_cleaned (untrusted : String) :
    Doubled (cleaned untrusted) ↔ DotsMeet (afterSeparators untrusted.toList) := by
  have underscore (name : List Char) : Doubled ('_' :: name) ↔ Doubled name := by
    rw [Doubled, Doubled, List.infix_cons_iff]
    exact or_iff_right fun start => absurd (List.cons_prefix_cons.mp start).1 (by decide)
  have escaped : Doubled (cleaned untrusted) ↔ Doubled (cleanName untrusted.toList) := by
    unfold cleaned escapeReserved
    split
    · exact underscore _
    · rfl
  rw [escaped, ← doubled_kept]
  unfold cleanName
  split
  · rename_i none
    rw [none]
    refine iff_of_false (fun doubled => ?_) (by decide)
    have dotless : '.' ∉ "unnamed_file".toList := by decide
    exact dotless (doubled.mem List.mem_cons_self)
  · rfl

/-! ## The cut -/

/-- Two dots in a row before a last dot: they are in what is before it, or that ends with a dot. -/
theorem doubled_before {kept after : List Char} (dotless : '.' ∉ after) :
    Doubled (kept ++ '.' :: after) ↔ Doubled kept ∨ kept.getLast? = some '.' := by
  constructor
  · rintro ⟨first, last, joined⟩
    rcases List.append_eq_append_iff.mp joined with ⟨behind, rfl, -⟩ | ⟨part, inFront, tail⟩
    · exact .inl ⟨first, behind, rfl⟩
    · cases part with
      | nil =>
        rw [List.append_nil] at inFront
        exact .inl ⟨first, [], by rw [inFront, List.append_nil]⟩
      | cons dot rest =>
        obtain ⟨rfl, rfl⟩ := List.cons.inj tail
        cases ending : rest.getLast? with
        | none =>
          obtain rfl := List.getLast?_eq_none_iff.mp ending
          have short : first ++ ['.'] = kept := by
            have whole : (first ++ ['.']) ++ ['.'] = kept ++ ['.'] := by
              rw [← inFront, List.append_assoc]
              rfl
            exact List.append_cancel_right whole
          right
          rw [← short, List.getLast?_concat]
        | some c =>
          -- the last of the two dots would be one after the last dot
          have lasts := congrArg List.getLast? inFront
          rw [List.getLast?_append_cons, List.getLast?_append_cons] at lasts
          simp only [List.getLast?_cons, ending, Option.getD_some, List.getLast?_nil,
            Option.getD_none] at lasts
          have dot : '.' = c := Option.some.inj lasts
          have member : c ∈ rest := List.mem_of_getLast? ending
          exact absurd (List.mem_append_left last (dot ▸ member)) dotless
  · rintro (⟨first, last, rfl⟩ | ending)
    · exact ⟨first, last ++ '.' :: after, by simp⟩
    · obtain ⟨front, rfl⟩ := List.getLast?_eq_some_iff.mp ending
      exact ⟨front, after, by simp⟩

/-- Two dots in a row in a name that is cut before its last dot: they are in what is kept, or what is kept
ends with a dot. -/
theorem doubled_cut {name stem extension : List Char} (split : SplitAtLastDot name stem extension)
    (kept : List Char) :
    Doubled (kept ++ extension) ↔ Doubled kept ∨ extension ≠ [] ∧ kept.getLast? = some '.' := by
  rcases split.dot with ⟨-, rfl⟩ | ⟨after, rfl, dotless⟩
  · rw [List.append_nil]
    simp
  · rw [doubled_before dotless]
    simp

/-- The cut of a long name makes no two dots in a row: what is kept of the stem has none, and does not end
with a dot before an extension. -/
def CutsApart (name : List Char) : Prop :=
  ∀ kept, kept <+: (splitExtension name).1 →
    byteLen kept = maxFilenameLen - byteLen (splitExtension name).2 →
    ¬Doubled kept ∧ ((splitExtension name).2 ≠ [] → kept.getLast? ≠ some '.')

/-- A sanitized name has no two dots in a row exactly when it was short enough and no two of its dots meet,
or was cut so that none come together. -/
theorem dots_apart_iff (untrusted name : String) (sanitized : sanitizeFilename untrusted = some name) :
    ¬Doubled name.toList ↔
      byteLen (cleaned untrusted) ≤ maxFilenameLen ∧ ¬DotsMeet (afterSeparators untrusted.toList) ∨
        maxFilenameLen < byteLen (cleaned untrusted) ∧ CutsApart (cleaned untrusted) := by
  rcases sanitized_cases sanitized with ⟨short, same⟩ | ⟨long, kept, part, bytes, same⟩
  · rw [same, doubled_cleaned]
    constructor
    · exact fun apart => .inl ⟨short, apart⟩
    · rintro (⟨-, apart⟩ | ⟨long, -⟩)
      · exact apart
      · omega
  · have first := (cleaned_safe untrusted).first
    have split := splitExtension_lastDot fun c head => (first c head).1
    rw [same, doubled_cut split, not_or, not_and]
    constructor
    · intro apart
      refine .inr ⟨long, fun other start total => ?_⟩
      rwa [prefix_unique start part (total.trans bytes.symm)]
    · rintro (⟨short, -⟩ | ⟨-, cuts⟩)
      · omega
      · exact cuts kept part bytes

/-- A name with dots apart. -/
theorem dots_apart_archive : sanitizeFilename "a.tar.gz" = some "a.tar.gz" ∧
    (¬Doubled "a.tar.gz".toList ↔
      byteLen (cleaned "a.tar.gz") ≤ maxFilenameLen ∧
          ¬DotsMeet (afterSeparators "a.tar.gz".toList) ∨
        maxFilenameLen < byteLen (cleaned "a.tar.gz") ∧ CutsApart (cleaned "a.tar.gz")) := by
  have sanitized : sanitizeFilename "a.tar.gz" = some "a.tar.gz" := by decide +kernel
  exact ⟨sanitized, dots_apart_iff "a.tar.gz" "a.tar.gz" sanitized⟩

/-- Dots come together when the character between them is filtered. -/
theorem dots_broken : ¬∀ untrusted name : String, sanitizeFilename untrusted = some name →
    ¬Doubled name.toList := by
  intro always
  have sanitized : sanitizeFilename "a.?.b" = some "a..b" := by decide +kernel
  exact always "a.?.b" "a..b" sanitized ⟨['a'], ['b'], rfl⟩

end FileDrop.NameDots
