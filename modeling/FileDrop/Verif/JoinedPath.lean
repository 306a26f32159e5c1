import FileDrop.Security.SafeJoin

/-!
# What is joined

The join of a text onto a base accepts exactly the relative texts that do not go up and name something,
with either separator. What it makes of them is the base followed by their segments, whatever the bytes of
the base are, so the check at its end never fails.
-/
namespace FileDrop.JoinedPath
open FileDrop

/-! ## Segments of a text -/

/-- A text with every backslash read as a slash. -/
def normalized (untrusted : String) : List Char :=
  untrusted.toList.map fun c => if c = '\\' then '/' else c

/-- A segment that names something. -/
def named (segment : List Char) : Bool := segment ≠ [] && segment ≠ ['.']

/-- The segments of a text that name something. -/
def segments (untrusted : String) : List (List Char) :=
  ((normalized untrusted).splitOn '/').filter named

/-- A text that names something under a base. -/
structure Legal (untrusted : String) : Prop where
  noNul : '\x00' ∉ untrusted.toList
  solid : ∃ c ∈ untrusted.toList, isWhitespace c = false
  relative : (normalized untrusted).head? ≠ some '/'
  inside : ['.', '.'] ∉ (normalized untrusted).splitOn '/'
  names : segments untrusted ≠ []

/-- Segments that do not go up resolve to those that name something, and no segment that goes up does. -/
theorem resolve_segments (untrusted : String) (parts : List (List Char)) :
    resolve untrusted (parts.filterMap (segmentComponent false)) =
      if ['.', '.'] ∈ parts then
        .error (.unsafePath ("parent directory traversal rejected: " ++ untrusted))
      else .ok ((parts.filter named).map .ofList) := by
  induction parts with
  | nil => rfl
  | cons part parts ih =>
    by_cases empty : part = []
    · subst empty
      have none : segmentComponent false [] = none := rfl
      rw [List.filterMap_cons_none none, ih]
      simp [named]
    · by_cases single : part = ['.']
      · subst single
        have none : segmentComponent false ['.'] = none := rfl
        rw [List.filterMap_cons_none none, ih]
        simp [named]
      · by_cases up : part = ['.', '.']
        · subst up
          have parent : segmentComponent false ['.', '.'] = some .parentDir := rfl
          rw [List.filterMap_cons_some parent, resolve, if_pos List.mem_cons_self]
        · have normal : segmentComponent false part = some (.normal (.ofList part)) := by
            rw [segmentComponent, if_neg empty, if_neg single, if_neg up]
          have names : named part = true := by simp [named, empty, single]
          rw [List.filterMap_cons_some normal, resolve, ih, List.filter_cons_of_pos names]
          by_cases later : ['.', '.'] ∈ parts
          · rw [if_pos later, if_pos (List.mem_cons_of_mem _ later)]
            rfl
          · have apart : ['.', '.'] ∉ part :: parts := by
              rw [List.mem_cons, not_or]
              exact ⟨fun same => up same.symm, later⟩
            rw [if_neg later, if_neg apart]
            rfl

/-- What a text resolves to. -/
theorem resolve_text (untrusted : String) (text : List Char) :
    resolve untrusted (components text) =
      if text.head? = some '/' then .error (.unsafePath ("absolute path rejected: " ++ untrusted))
      else if ['.', '.'] ∈ text.splitOn '/' then
        .error (.unsafePath ("parent directory traversal rejected: " ++ untrusted))
      else .ok (((text.splitOn '/').filter named).map .ofList) := by
  obtain ⟨first, rest, split⟩ := List.exists_cons_of_ne_nil (List.splitOn_ne_nil '/' text)
  rw [← resolve_segments, components, split]
  by_cases root : text.head? = some '/'
  · simp only [root, if_true]
    rfl
  · simp only [root, if_false]
    by_cases single : first = ['.']
    · -- a dot at the start is a component, and is skipped
      subst single
      rfl
    · have same : segmentComponent true first = segmentComponent false first := by
        simp [segmentComponent, single]
      rw [same]
      cases found : segmentComponent false first with
      | none => rw [List.filterMap_cons_none found, Option.toList_none, List.nil_append]
      | some part =>
        rw [List.filterMap_cons_some found, Option.toList_some, List.singleton_append]

/-! ## Their bytes -/

/-- Only a slash has the byte of a slash. -/
theorem slash_byte {c : Char} (found : OsPath.slash ∈ String.utf8EncodeChar c) : c = '/' := by
  by_cases wide : 128 ≤ c.toNat
  · have high := (wide_bytes wide).2 _ found
    exact absurd high (by decide)
  · have small : c.val ≤ 127 := UInt32.le_iff_toNat_le.mpr (by show c.toNat ≤ 127; omega)
    have single : c.utf8Size = 1 := by simp [Char.utf8Size, small]
    rw [String.utf8EncodeChar_eq_singleton single, List.mem_singleton] at found
    have code := congrArg UInt8.toNat found
    have back : (c.val.toUInt8).toNat = c.toNat := by
      rw [UInt32.toNat_toUInt8]
      show c.toNat % 256 = c.toNat
      omega
    rw [back] at code
    exact Char.toNat_inj.mp code.symm

/-- A segment that names something and does not go up is one normal component. -/
theorem plain_bytes {segment : List Char} (names : named segment = true) (inside : segment ≠ ['.', '.'])
    (single : '/' ∉ segment) : OsPath.Plain (asBytes (.ofList segment)) := by
  simp only [named, ne_eq, decide_not, Bool.and_eq_true, Bool.not_eq_true', decide_eq_false_iff_not]
    at names
  have other {text : List Char} (differs : segment ≠ text) :
      asBytes (.ofList segment) ≠ asBytes (.ofList text) := by
    intro same
    exact differs (String.ofList_injective (asBytes_injective same))
  refine ⟨other names.1, fun slash => ?_, other names.2, other inside⟩
  obtain ⟨c, member, found⟩ := mem_asBytes.mp slash
  rw [String.toList_ofList] at member
  exact single (slash_byte found ▸ member)

/-- No segment has a separator. -/
theorem segment_single {text segment : List Char} (member : segment ∈ text.splitOn '/') :
    '/' ∉ segment := by
  induction text generalizing segment with
  | nil =>
    obtain rfl := List.mem_singleton.mp member
    exact List.not_mem_nil
  | cons c text ih =>
    obtain ⟨first, rest, split⟩ := List.exists_cons_of_ne_nil (List.splitOn_ne_nil '/' text)
    rw [List.splitOn_cons_eq_if_modifyHead, split] at member
    rw [split] at ih
    by_cases slash : (c == '/') = true
    · rw [if_pos slash] at member
      rcases List.mem_cons.mp member with rfl | later
      · exact List.not_mem_nil
      · exact ih later
    · rw [if_neg slash, List.modifyHead_cons] at member
      rcases List.mem_cons.mp member with rfl | later
      · rw [List.mem_cons, not_or]
        exact ⟨fun same => slash (beq_iff_eq.mpr same.symm), ih List.mem_cons_self⟩
      · exact ih (List.mem_cons_of_mem _ later)

/-- The segments of a legal text are normal components. -/
theorem Legal.plain {untrusted : String} (legal : Legal untrusted) :
    ∀ part ∈ ((segments untrusted).map String.ofList).map asBytes, OsPath.Plain part := by
  intro part member
  obtain ⟨name, listed, rfl⟩ := List.mem_map.mp member
  obtain ⟨segment, found, rfl⟩ := List.mem_map.mp listed
  obtain ⟨split, names⟩ := List.mem_filter.mp found
  exact plain_bytes names (fun up => legal.inside (up ▸ split)) (segment_single split)

/-! ## The join -/

/-- A base path followed by the segments of a text. -/
def Joins (base : OsPath) (untrusted : String) (joined : OsPath) : Prop :=
  joined.components = base.components ++ (segments untrusted).map fun segment =>
    .normal (asBytes (.ofList segment))

/-- A legal text is joined. -/
theorem safeJoin_legal (base : OsPath) {untrusted : String} (legal : Legal untrusted) :
    ∃ joined, safeJoinOs base untrusted = .ok joined ∧ Joins base untrusted joined := by
  have plain := legal.plain
  have some : ((segments untrusted).map String.ofList).map asBytes ≠ [] := by
    rw [ne_eq, List.map_eq_nil_iff, List.map_eq_nil_iff]
    exact legal.names
  let resolved : OsPath := (((segments untrusted).map String.ofList).map asBytes).foldl OsPath.push []
  have split : resolved.splitOn OsPath.slash = ((segments untrusted).map String.ofList).map asBytes :=
    OsPath.splitOn_pushed plain some
  have resolves : resolveOs untrusted [] (components (normalized untrusted)) = .ok resolved := by
    rw [resolveOs_eq, resolve_text, if_neg legal.relative, if_neg legal.inside]
    rfl
  have nonempty : resolved ≠ [] := by
    intro none
    rw [none, List.splitOn_nil] at split
    have empty : OsPath.Plain [] := plain [] (split ▸ List.mem_singleton.mpr rfl)
    exact empty.nonempty rfl
  have joins : Joins base untrusted (base.push resolved) := by
    rw [Joins, OsPath.components_push base split plain, List.map_map, List.map_map]
    rfl
  refine ⟨base.push resolved, ?_, joins⟩
  have noNul : ¬untrusted.toList.contains '\x00' = true := by
    rw [List.contains_iff_mem]
    exact legal.noNul
  have contained : base.components <+: (base.push resolved).components := by
    rw [joins]
    exact List.prefix_append _ _
  have folded : (untrusted.toList.map fun c => if c = '\\' then '/' else c) = normalized untrusted := rfl
  rw [safeJoinOs, if_neg noNul, if_neg ((trimMatches_ne_nil _ _).mpr legal.solid), folded]
  simp only [resolves, nonempty, if_false, contained, if_true]

/-- The error of the check at the end. -/
def escapes (untrusted : String) : FileDropError :=
  .unsafePath ("resolved path escapes base directory: " ++ untrusted)

/-- The errors before that are others. -/
theorem ne_escapes (untrusted : String) :
    FileDropError.unsafePath "embedded NUL byte in path" ≠ escapes untrusted ∧
    FileDropError.unsafePath "empty path" ≠ escapes untrusted ∧
    FileDropError.unsafePath "resolves to empty path" ≠ escapes untrusted ∧
    FileDropError.unsafePath ("parent directory traversal rejected: " ++ untrusted) ≠ escapes untrusted ∧
    FileDropError.unsafePath ("absolute path rejected: " ++ untrusted) ≠ escapes untrusted := by
  have starts {text : String} (same : FileDropError.unsafePath text = escapes untrusted) :
      "resolved path".toList <+: text.toList := by
    obtain rfl := FileDropError.unsafePath.inj same
    have label : "resolved path escapes base directory: ".toList =
        "resolved path".toList ++ " escapes base directory: ".toList := by
      decide +kernel
    rw [String.toList_append, label, List.append_assoc]
    exact List.prefix_append _ _
  have labelled {label : String} (same : FileDropError.unsafePath (label ++ untrusted) = escapes untrusted) :
      label.toList = "resolved path escapes base directory: ".toList := by
    have texts := congrArg String.toList (FileDropError.unsafePath.inj same)
    rw [String.toList_append, String.toList_append] at texts
    exact List.append_cancel_right texts
  refine ⟨fun same => ?_, fun same => ?_, fun same => ?_, fun same => ?_, fun same => ?_⟩
  · exact absurd (starts same) (by decide)
  · exact absurd (starts same) (by decide)
  · exact absurd (starts same) (by decide)
  · exact absurd (labelled same) (by decide)
  · exact absurd (labelled same) (by decide)

/-- A text that is not legal is refused before that, by both models of the join. -/
theorem safeJoin_illegal {untrusted : String} (illegal : ¬Legal untrusted) :
    ∃ error, (∀ base : OsPath, safeJoinOs base untrusted = .error error) ∧
      (∀ base : Path, safeJoin base untrusted = .error error) ∧ error ≠ escapes untrusted := by
  obtain ⟨nul, empty, nothing, parent, absolute⟩ := ne_escapes untrusted
  have folded : (untrusted.toList.map fun c => if c = '\\' then '/' else c) = normalized untrusted := rfl
  unfold safeJoinOs safeJoin
  rw [folded]
  by_cases hasNul : untrusted.toList.contains '\x00' = true
  · exact ⟨_, fun base => if_pos hasNul, fun base => if_pos hasNul, nul⟩
  simp only [if_neg hasNul]
  by_cases blank : trimMatches isWhitespace untrusted.toList = []
  · exact ⟨_, fun base => if_pos blank, fun base => if_pos blank, empty⟩
  simp only [if_neg blank, resolveOs_eq, resolve_text]
  by_cases root : (normalized untrusted).head? = some '/'
  · rw [if_pos root]
    exact ⟨_, fun base => rfl, fun base => rfl, absolute⟩
  rw [if_neg root]
  by_cases up : ['.', '.'] ∈ (normalized untrusted).splitOn '/'
  · rw [if_pos up]
    exact ⟨_, fun base => rfl, fun base => rfl, parent⟩
  rw [if_neg up]
  have none : ((normalized untrusted).splitOn '/').filter named = [] := by
    by_contra some
    refine illegal ⟨fun member => hasNul (List.contains_iff_mem.mpr member), ?_, root, up, some⟩
    exact (trimMatches_ne_nil _ _).mp blank
  rw [none]
  exact ⟨_, fun base => rfl, fun base => rfl, nothing⟩

/-- A path of normal components, as the components of its bytes. -/
def absolute (path : Path) : List OsComponent :=
  .rootDir :: path.map fun part => .normal (asBytes part)

/-- On an absolute base of normal components the join of the bytes is the join of the components. -/
theorem safeJoin_refines {base : OsPath} {path : Path} (same : base.components = absolute path)
    (untrusted : String) :
    (safeJoinOs base untrusted).map OsPath.components = (safeJoin path untrusted).map absolute := by
  by_cases legal : Legal untrusted
  · obtain ⟨joined, done, joins⟩ := safeJoin_legal base legal
    have noNul : ¬untrusted.toList.contains '\x00' = true := by
      rw [List.contains_iff_mem]
      exact legal.noNul
    have resolves : resolve untrusted (components (normalized untrusted)) =
        .ok ((segments untrusted).map .ofList) := by
      rw [resolve_text, if_neg legal.relative, if_neg legal.inside]
      rfl
    have some : (segments untrusted).map String.ofList ≠ [] := by
      rw [ne_eq, List.map_eq_nil_iff]
      exact legal.names
    have listed : safeJoin path untrusted = .ok (path ++ (segments untrusted).map .ofList) := by
      have folded : (untrusted.toList.map fun c => if c = '\\' then '/' else c) = normalized untrusted :=
        rfl
      rw [safeJoin, if_neg noNul, if_neg ((trimMatches_ne_nil _ _).mpr legal.solid), folded]
      simp only [resolves, some, if_false, List.prefix_append, if_true]
    rw [done, listed, Except.map, Except.map, joins, same, absolute, absolute, List.map_append, List.map_map]
    rfl
  · obtain ⟨error, failed, also, -⟩ := safeJoin_illegal legal
    rw [failed base, also path]
    rfl

/-- The join of a text onto any base is defined exactly for the legal texts, is the base followed by the
segments of the text, of which there is one at least, and never fails at its last check. -/
theorem safeJoin_exact (base : OsPath) (untrusted : String) :
    ((∃ joined, safeJoinOs base untrusted = .ok joined) ↔ Legal untrusted) ∧
      (∀ joined, safeJoinOs base untrusted = .ok joined → Joins base untrusted joined ∧
        base.components <+: joined.components ∧ base.components ≠ joined.components) ∧
      safeJoinOs base untrusted ≠ .error (escapes untrusted) := by
  by_cases legal : Legal untrusted
  · obtain ⟨joined, done, joins⟩ := safeJoin_legal base legal
    refine ⟨iff_of_true ⟨joined, done⟩ legal, fun other also => ?_, fun failed => ?_⟩
    · obtain rfl := Except.ok.inj (done.symm.trans also)
      refine ⟨joins, ?_, fun same => ?_⟩
      · rw [joins]
        exact List.prefix_append _ _
      · rw [joins] at same
        have none := List.self_eq_append_right.mp same
        exact legal.names (List.map_eq_nil_iff.mp none)
    · cases done.symm.trans failed
  · obtain ⟨error, fails, -, other⟩ := safeJoin_illegal legal
    have failed := fails base
    refine ⟨iff_of_false ?_ legal, fun joined done => ?_, fun same => ?_⟩
    · rintro ⟨joined, done⟩
      cases done.symm.trans failed
    · cases done.symm.trans failed
    · exact other (Except.error.inj (failed.symm.trans same))

end FileDrop.JoinedPath
