import FileDrop.Core.Text

/-!
# Paths as bytes

A path of a Unix system is any list of bytes. It is read as its components, and extended by `push`, which
puts a separator where one is missing. What is pushed part by part are the components of the whole.
-/
namespace FileDrop

open Unix (Bytes)

/-- `std::path::Path`. -/
abbrev OsPath : Type := Bytes

/-- `std::path::Component` of such a path. -/
inductive OsComponent where
  | rootDir
  | curDir
  | parentDir
  | normal (part : Bytes)
  deriving DecidableEq

namespace OsPath

/-- The byte of `/`. -/
def slash : UInt8 := 47

/-- The byte of `.`. -/
def dot : UInt8 := 46

/-- A segment as a component; an empty one is none, and a dot is one only at the start. -/
def segment (atStart : Bool) (bytes : Bytes) : Option OsComponent :=
  if bytes = [] then none
  else if bytes = [dot] then if atStart then some .curDir else none
  else if bytes = [dot, dot] then some .parentDir
  else some (.normal bytes)

/-- `Path::components`. -/
def components (path : OsPath) : List OsComponent :=
  match path.splitOn slash with
  | [] => []
  | first :: rest =>
    (if path.head? = some slash then [.rootDir] else (segment true first).toList) ++
      rest.filterMap (segment false)

/-- `PathBuf::push`. -/
def push (buf path : OsPath) : OsPath :=
  if path.head? = some slash then path
  else if buf = [] ∨ buf.getLast? = some slash then buf ++ path
  else buf ++ slash :: path

/-- A segment that is a normal component. -/
structure Plain (part : Bytes) : Prop where
  nonempty : part ≠ []
  single : slash ∉ part
  notDot : part ≠ [dot]
  notDots : part ≠ [dot, dot]

/-- It is one wherever it stands. -/
theorem segment_plain {part : Bytes} (plain : Plain part) (atStart : Bool) :
    segment atStart part = some (.normal part) := by
  rw [segment, if_neg plain.nonempty, if_neg plain.notDot, if_neg plain.notDots]

/-- So are several. -/
theorem segments_plain {parts : List Bytes} (plain : ∀ part ∈ parts, Plain part) (atStart : Bool) :
    parts.filterMap (segment atStart) = parts.map .normal := by
  induction parts with
  | nil => rfl
  | cons part parts ih =>
    obtain ⟨first, others⟩ := List.forall_mem_cons.mp plain
    rw [List.filterMap_cons_some (segment_plain first atStart), ih others, List.map_cons]

/-- A plain part neither starts nor ends with a separator. -/
theorem Plain.ends {part : Bytes} (plain : Plain part) :
    part.head? ≠ some slash ∧ part.getLast? ≠ some slash :=
  ⟨fun first => plain.single (List.mem_of_mem_head? first),
    fun last => plain.single (List.mem_of_getLast? last)⟩

/-- The components of a path that goes on after a separator. -/
theorem components_append {path : OsPath} (some : path ≠ []) (rest : Bytes) :
    components (path ++ slash :: rest) =
      components path ++ (rest.splitOn slash).filterMap (segment false) := by
  obtain ⟨first, more, split⟩ := List.exists_cons_of_ne_nil (List.splitOn_ne_nil slash path)
  obtain ⟨byte, tail, rfl⟩ := List.exists_cons_of_ne_nil some
  have whole : (byte :: tail ++ slash :: rest).splitOn slash = first :: (more ++ rest.splitOn slash) := by
    rw [List.splitOn_append_cons_self, split, List.cons_append]
  have start : (byte :: tail ++ slash :: rest).head? = (byte :: tail).head? := rfl
  unfold components
  rw [whole, split, start, List.append_assoc, ← List.filterMap_append]

/-- A path extended by plain parts has their components after its own. -/
theorem components_push (path : OsPath) {relative : OsPath} {parts : List Bytes}
    (split : relative.splitOn slash = parts) (plain : ∀ part ∈ parts, Plain part) :
    components (path.push relative) = components path ++ parts.map .normal := by
  obtain ⟨first, more, shape⟩ := List.exists_cons_of_ne_nil (List.splitOn_ne_nil slash relative)
  obtain ⟨plainFirst, plainMore⟩ := List.forall_mem_cons.mp (shape.symm.trans split ▸ plain)
  have later : (relative.splitOn slash).filterMap (segment false) = parts.map .normal := by
    rw [split, segments_plain plain]
  have start : relative.head? ≠ some slash := by
    intro begins
    obtain ⟨rest, rfl⟩ := List.head?_eq_some_iff.mp begins
    have empty : (slash :: rest).splitOn slash = [] :: rest.splitOn slash :=
      List.splitOn_append_cons_self [] rest
    rw [empty] at shape
    exact plainFirst.nonempty (List.cons.inj shape).1.symm
  rw [push, if_neg start]
  by_cases open_ : path = [] ∨ path.getLast? = some slash
  · rw [if_pos open_]
    by_cases none : path = []
    · subst none
      have nothing : components [] = [] := rfl
      rw [nothing, List.nil_append, List.nil_append, ← split, shape, components, shape]
      simp only [start, if_false, segment_plain plainFirst, Option.toList_some, segments_plain plainMore,
        List.singleton_append, List.map_cons]
    · obtain ⟨front, rfl⟩ := List.getLast?_eq_some_iff.mp (open_.resolve_left none)
      have closed : components (front ++ [slash]) ++ parts.map .normal =
          components (front ++ slash :: relative) := by
        by_cases root : front = []
        · subst root
          have empty : (slash :: relative).splitOn slash = [] :: relative.splitOn slash :=
            List.splitOn_append_cons_self [] relative
          have only : components ([] ++ [slash]) = [.rootDir] := rfl
          rw [only, List.nil_append, components, empty]
          simp only [List.head?_cons, if_true, later]
        · rw [components_append root, components_append root, later]
          simp [segment]
      rw [closed, List.append_assoc, List.singleton_append]
  · rw [if_neg open_, components_append (not_or.mp open_).1, later]

/-- Parts pushed onto a path that does not end with a separator are its last segments. -/
theorem splitOn_pushes {parts : List Bytes} (plain : ∀ part ∈ parts, Plain part) {path : OsPath}
    (some : path ≠ []) (closed : path.getLast? ≠ Option.some slash) :
    (parts.foldl push path).splitOn slash = path.splitOn slash ++ parts := by
  induction parts generalizing path with
  | nil => rw [List.foldl_nil, List.append_nil]
  | cons part parts ih =>
    obtain ⟨first, others⟩ := List.forall_mem_cons.mp plain
    have pushed : path.push part = path ++ slash :: part := by
      rw [push, if_neg first.ends.1, if_neg (not_or.mpr ⟨some, closed⟩)]
    have ends : (path ++ slash :: part).getLast? ≠ Option.some slash := by
      rw [List.getLast?_append_cons, List.getLast?_cons_of_ne_nil first.nonempty]
      exact first.ends.2
    rw [List.foldl_cons, pushed, ih others (by simp) ends, List.splitOn_append_cons_self,
      List.splitOn_eq_singleton first.single, List.append_assoc, List.singleton_append]

/-- Parts pushed onto the empty path are its segments. -/
theorem splitOn_pushed {parts : List Bytes} (plain : ∀ part ∈ parts, Plain part) (some : parts ≠ []) :
    (parts.foldl push []).splitOn slash = parts := by
  obtain ⟨part, parts, rfl⟩ := List.exists_cons_of_ne_nil some
  obtain ⟨first, others⟩ := List.forall_mem_cons.mp plain
  have pushed : push [] part = part := by
    rw [push, if_neg first.ends.1, if_pos (.inl rfl), List.nil_append]
  rw [List.foldl_cons, pushed, splitOn_pushes others first.nonempty first.ends.2,
    List.splitOn_eq_singleton first.single, List.singleton_append]

end OsPath

end FileDrop
