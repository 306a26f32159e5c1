import Mathlib.Data.List.TakeWhile

/-!
# Paths

A path is the list of its normal components under one root. The directories of the application
are here, and the parts of `std::path` that take a text apart.
-/
namespace FileDrop

/-- `PathBuf`, as its components. -/
abbrev Path : Type := List String

/-- `paths::StoragePaths`. -/
structure StoragePaths where
  appDataDir : Path
  deriving DecidableEq, Repr

/-- `received_files_dir`. -/
def StoragePaths.receivedFilesDir (paths : StoragePaths) : Path := paths.appDataDir ++ ["received"]

/-- `staging_dir`. -/
def StoragePaths.stagingDir (paths : StoragePaths) : Path := paths.appDataDir ++ ["staging"]

/-- `history_file`. -/
def StoragePaths.historyFile (paths : StoragePaths) : Path := paths.appDataDir ++ ["history.json"]

/-- `std::path::Component` of a Unix path. -/
inductive Component where
  | rootDir
  | curDir
  | parentDir
  | normal (part : String)
  deriving DecidableEq, Repr

/-- A path segment as a component; an empty one is none, and a dot is one only at the start. -/
def segmentComponent (atStart : Bool) (segment : List Char) : Option Component :=
  if segment = [] then none
  else if segment = ['.'] then if atStart then some .curDir else none
  else if segment = ['.', '.'] then some .parentDir
  else some (.normal (.ofList segment))

/-- `Path::components`. -/
def components (text : List Char) : List Component :=
  match text.splitOn '/' with
  | [] => []
  | first :: rest =>
    (if text.head? = some '/' then [.rootDir] else (segmentComponent true first).toList) ++
      rest.filterMap (segmentComponent false)

/-- `Path::file_name`. -/
def pathFileName (path : String) : Option String :=
  match (components path.toList).getLast? with
  | some (.normal name) => some name
  | _ => none

/-- `Path::file_stem` on the characters of a file name: what is before the last dot, or the
whole name when there is no dot but a leading one. -/
def fileStem (name : List Char) : List Char :=
  match name.reverse.dropWhile (· ≠ '.') with
  | [] => name
  | [_] => name
  | _ :: before => before.reverse

/-- `Path::with_extension` on a file name. -/
def withExtension (name extension : String) : String :=
  String.ofList (fileStem name.toList ++ '.' :: extension.toList)

/-- A name is its stem alone, or its stem, a dot and a text without dots. -/
theorem fileStem_cases (name : List Char) :
    fileStem name = name ∨ ∃ after, '.' ∉ after ∧ name = fileStem name ++ '.' :: after := by
  unfold fileStem
  split
  · exact .inl rfl
  · exact .inl rfl
  · rename_i dot before _ split
    refine .inr ⟨(name.reverse.takeWhile (· ≠ '.')).reverse, ?_, ?_⟩
    · intro member
      have kept := List.mem_takeWhile_imp (List.mem_reverse.mp member)
      simp at kept
    · have isDot : dot = '.' := by
        have stopped := List.head?_dropWhile_not (p := fun c => decide (c ≠ '.')) (l := name.reverse)
        rw [split] at stopped
        simpa using stopped
      have whole := List.takeWhile_append_dropWhile (p := fun c => decide (c ≠ '.'))
        (l := name.reverse)
      rw [split, isDot] at whole
      have restored := congrArg List.reverse whole
      simpa using restored.symm

/-- An extension with a dot in it never gives the name back. -/
theorem withExtension_ne (name extension : String) (dotted : '.' ∈ extension.toList) :
    withExtension name extension ≠ name := by
  intro same
  have chars : fileStem name.toList ++ '.' :: extension.toList = name.toList := by
    have lists := congrArg String.toList same
    simpa [withExtension] using lists
  rcases fileStem_cases name.toList with whole | ⟨after, plain, split⟩
  · rw [whole] at chars
    exact absurd (congrArg List.length chars) (by simp)
  · have tails : '.' :: extension.toList = '.' :: after :=
      List.append_cancel_left (chars.trans split)
    exact plain ((List.cons.inj tails).2 ▸ dotted)

end FileDrop
