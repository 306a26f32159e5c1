import FileDrop.Core.Error
import FileDrop.Core.OsPath
import FileDrop.Core.Path
import FileDrop.Security.Filename

/-!
# Joining an untrusted name

The lexical join of a name from outside onto a base directory, with the component rules of a Unix
path. A sanitized name and a staging name are each one normal component, so the join of either is
the base directory with that one component.
-/
namespace FileDrop

/-- The component loop of `safe_join`. -/
def resolve (untrusted : String) : List Component → Except FileDropError Path
  | [] => .ok []
  | .normal part :: rest => (resolve untrusted rest).map (part :: ·)
  | .curDir :: rest => resolve untrusted rest
  | .parentDir :: _ =>
    .error (.unsafePath ("parent directory traversal rejected: " ++ untrusted))
  | .rootDir :: _ => .error (.unsafePath ("absolute path rejected: " ++ untrusted))

/-- `security::safe_join`. -/
def safeJoin (base : Path) (untrusted : String) : Except FileDropError Path :=
  if untrusted.toList.contains '\x00' then .error (.unsafePath "embedded NUL byte in path")
  else if trimMatches isWhitespace untrusted.toList = [] then .error (.unsafePath "empty path")
  else
    let normalized := untrusted.toList.map fun c => if c = '\\' then '/' else c
    match resolve untrusted (components normalized) with
    | .error error => .error error
    | .ok resolved =>
      if resolved = [] then .error (.unsafePath "resolves to empty path")
      else if base <+: base ++ resolved then .ok (base ++ resolved)
      else .error (.unsafePath ("resolved path escapes base directory: " ++ untrusted))

/-- A text of clean characters with one that the trim keeps is one normal component. -/
theorem components_clean {name : String} (clean : ∀ c ∈ name.toList, Clean c)
    (kept : ∃ c ∈ name.toList, isTrimmed c = false) : components name.toList = [.normal name] := by
  obtain ⟨c, member, keeps⟩ := kept
  simp only [isTrimmed, Bool.or_eq_false_iff, beq_eq_false_iff_ne] at keeps
  have noSlash : '/' ∉ name.toList := fun inside => (clean '/' inside).1 rfl
  have single : name.toList.splitOn '/' = [name.toList] :=
    List.splitOn_eq_singleton noSlash
  have relative : name.toList.head? ≠ Option.some '/' := fun first =>
    noSlash (List.mem_of_mem_head? first)
  have nonempty : name.toList ≠ [] := List.ne_nil_of_mem member
  have noDot : name.toList ≠ ['.'] := by
    intro dot
    rw [dot, List.mem_singleton] at member
    exact keeps.1 member
  have noDots : name.toList ≠ ['.', '.'] := by
    intro dots
    rw [dots] at member
    have isDot : c = '.' := by simpa using member
    exact keeps.1 isDot
  rw [components, single]
  simp only [relative, if_false, segmentComponent, nonempty, noDot, noDots, String.ofList_toList,
    Option.toList_some, List.filterMap_nil, List.append_nil]

/-- A text of clean characters with one that the trim keeps joins as one component. -/
theorem safeJoin_clean (base : Path) {name : String} (clean : ∀ c ∈ name.toList, Clean c)
    (kept : ∃ c ∈ name.toList, isTrimmed c = false) : safeJoin base name = .ok (base ++ [name]) := by
  have parts := components_clean clean kept
  obtain ⟨c, member, keeps⟩ := kept
  simp only [isTrimmed, Bool.or_eq_false_iff, beq_eq_false_iff_ne] at keeps
  have noNul : name.toList.contains '\x00' = false := by
    by_contra found
    have nul := clean '\x00' (by simpa using found)
    exact absurd nul (by decide)
  have some : trimMatches isWhitespace name.toList ≠ [] :=
    (trimMatches_ne_nil _ _).mpr ⟨c, member, keeps.2⟩
  have same : name.toList.map (fun c => if c = '\\' then '/' else c) = name.toList := by
    refine (List.map_congr_left fun d inside => ?_).trans (List.map_id _)
    simp [(clean d inside).2.1]
  rw [safeJoin, noNul, same]
  simp [some, parts, resolve, Except.map]

/-- A sanitized name joins as one component, for every name it was sanitized from. -/
theorem safeJoin_sanitized (base : Path) {untrusted name : String}
    (done : sanitizeFilename untrusted = some name) : safeJoin base name = .ok (base ++ [name]) := by
  obtain ⟨clean, kept⟩ := sanitizeFilename_clean done
  exact safeJoin_clean base clean kept

/-- The name of a transfer's staging file. -/
def stagingName (transferId : Uuid) : String := transferId.toText ++ ".part"

/-- Different transfers have different staging names. -/
theorem stagingName_injective : Function.Injective stagingName := by
  intro left right same
  have texts := congrArg String.toList same
  rw [stagingName, stagingName, String.toList_append, String.toList_append] at texts
  exact Uuid.toText_injective (String.toList_inj.mp (List.append_cancel_right texts))

/-- A staging name has clean characters, and one that the trim keeps. -/
theorem stagingName_clean (transferId : Uuid) : (∀ c ∈ (stagingName transferId).toList, Clean c) ∧
    ∃ c ∈ (stagingName transferId).toList, isTrimmed c = false := by
  refine ⟨fun c member => ?_, 'p', by simp [stagingName], by decide⟩
  rw [stagingName, String.toList_append] at member
  rcases List.mem_append.mp member with digit | ending
  · rcases Uuid.toText_chars digit with rfl | listed
    · decide
    · have clean : ∀ c ∈ hexDigits, Clean c := forall_chars (by decide)
      exact clean c listed
  · have clean : ∀ c ∈ ".part".toList, Clean c := forall_chars (by decide)
    exact clean c ending

/-- A staging name joins as one component. -/
theorem safeJoin_staging (base : Path) (transferId : Uuid) :
    safeJoin base (stagingName transferId) = .ok (base ++ [stagingName transferId]) := by
  obtain ⟨clean, kept⟩ := stagingName_clean transferId
  exact safeJoin_clean base clean kept

/-! ## On the bytes of a path -/

/-- The component loop of `safe_join`, with the path that it builds. -/
def resolveOs (untrusted : String) (resolved : OsPath) : List Component → Except FileDropError OsPath
  | [] => .ok resolved
  | .normal part :: rest => resolveOs untrusted (resolved.push (asBytes part)) rest
  | .curDir :: rest => resolveOs untrusted resolved rest
  | .parentDir :: _ =>
    .error (.unsafePath ("parent directory traversal rejected: " ++ untrusted))
  | .rootDir :: _ => .error (.unsafePath ("absolute path rejected: " ++ untrusted))

/-- `security::safe_join`, on a base of any bytes. -/
def safeJoinOs (base : OsPath) (untrusted : String) : Except FileDropError OsPath :=
  if untrusted.toList.contains '\x00' then .error (.unsafePath "embedded NUL byte in path")
  else if trimMatches isWhitespace untrusted.toList = [] then .error (.unsafePath "empty path")
  else
    let normalized := untrusted.toList.map fun c => if c = '\\' then '/' else c
    match resolveOs untrusted [] (components normalized) with
    | .error error => .error error
    | .ok resolved =>
      if resolved = [] then .error (.unsafePath "resolves to empty path")
      else
        let joined := base.push resolved
        if base.components <+: joined.components then .ok joined
        else .error (.unsafePath ("resolved path escapes base directory: " ++ untrusted))

/-- The loop pushes the parts that the components resolve to. -/
theorem resolveOs_eq (untrusted : String) (parts : List Component) (resolved : OsPath) :
    resolveOs untrusted resolved parts =
      (resolve untrusted parts).map fun names => (names.map asBytes).foldl OsPath.push resolved := by
  induction parts generalizing resolved with
  | nil => rfl
  | cons part parts ih =>
    cases part with
    | rootDir | parentDir => rfl
    | curDir => exact ih resolved
    | normal name =>
      rw [resolveOs, ih, resolve]
      cases resolve untrusted parts with
      | error error => rfl
      | ok names => rfl

end FileDrop
