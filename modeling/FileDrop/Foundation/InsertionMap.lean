import Mathlib.Data.List.Nodup

/-!
# Maps in insertion order

A map that remembers the order in which its keys came. Writing to a key it has keeps the key's
place; a new key goes to the end. No key is in it twice.
-/

/-- Keys with their values, in the order the keys came. -/
structure InsertionMap (κ ν : Type) where
  /-- The entries in order. -/
  entries : List (κ × ν)
  /-- No key occurs twice. -/
  distinct : (entries.map Prod.fst).Nodup

namespace InsertionMap

variable {κ ν : Type}

/-- The map without entries. -/
def empty : InsertionMap κ ν := ⟨[], List.nodup_nil⟩

/-- There is no entry. -/
def isEmpty (map : InsertionMap κ ν) : Bool := map.entries.isEmpty

/-- The values, in the order their keys came. -/
def values (map : InsertionMap κ ν) : List ν := map.entries.map Prod.snd

variable [DecidableEq κ]

/-- The value at a key. -/
def get? (map : InsertionMap κ ν) (key : κ) : Option ν :=
  (map.entries.find? (·.1 = key)).map (·.2)

/-- Write an entry in its place, or at the end. -/
def place (key : κ) (value : ν) : List (κ × ν) → List (κ × ν)
  | [] => [(key, value)]
  | entry :: rest => if entry.1 = key then (key, value) :: rest else entry :: place key value rest

/-- The keys after an entry is written. -/
theorem place_keys (key : κ) (value : ν) (entries : List (κ × ν)) :
    (place key value entries).map Prod.fst =
      if key ∈ entries.map Prod.fst then entries.map Prod.fst else entries.map Prod.fst ++ [key] := by
  induction entries with
  | nil => rfl
  | cons entry rest ih =>
    by_cases here : entry.1 = key
    · simp [place, here]
    · have other : key ≠ entry.1 := Ne.symm here
      simp only [place, here, if_false, List.map_cons, ih, List.mem_cons, other, false_or]
      split <;> rfl

/-- No key comes twice. -/
theorem place_distinct (key : κ) (value : ν) {entries : List (κ × ν)}
    (distinct : (entries.map Prod.fst).Nodup) : ((place key value entries).map Prod.fst).Nodup := by
  rw [place_keys]
  split
  · exact distinct
  · rename_i absent
    exact List.nodup_append.mpr ⟨distinct, List.nodup_singleton _, fun old listed new member same =>
      absent (by rw [← List.mem_singleton.mp member, ← same]; exact listed)⟩

/-- Write a value at a key. -/
def insert (map : InsertionMap κ ν) (key : κ) (value : ν) : InsertionMap κ ν :=
  ⟨place key value map.entries, place_distinct key value map.distinct⟩

@[simp] theorem get?_empty (key : κ) : (empty : InsertionMap κ ν).get? key = none := rfl

@[simp] theorem isEmpty_insert (map : InsertionMap κ ν) (key : κ) (value : ν) :
    (map.insert key value).isEmpty = false := by
  show (place key value map.entries).isEmpty = false
  cases map.entries with
  | nil => rfl
  | cons entry rest =>
    by_cases here : entry.1 = key
    · simp [place, here]
    · simp [place, here]

/-- What is written is read. -/
@[simp] theorem get?_insert_self (map : InsertionMap κ ν) (key : κ) (value : ν) :
    (map.insert key value).get? key = some value := by
  unfold get? insert
  show ((place key value map.entries).find? (·.1 = key)).map (·.2) = some value
  induction map.entries with
  | nil => simp [place]
  | cons entry rest ih =>
    by_cases here : entry.1 = key
    · simp [place, here]
    · simp only [place, here, if_false, List.find?_cons, decide_false]
      exact ih

/-- The other keys keep their values. -/
@[simp] theorem get?_insert_ne (map : InsertionMap κ ν) {key other : κ} (value : ν)
    (apart : other ≠ key) : (map.insert key value).get? other = map.get? other := by
  unfold get? insert
  show ((place key value map.entries).find? (·.1 = other)).map (·.2) =
    (map.entries.find? (·.1 = other)).map (·.2)
  have unlike : (key = other) = False := eq_false (Ne.symm apart)
  induction map.entries with
  | nil => simp [place, unlike]
  | cons entry rest ih =>
    by_cases here : entry.1 = key
    · simp [place, here, unlike]
    · rw [place, if_neg here]
      by_cases found : entry.1 = other
      · simp only [List.find?_cons, found, decide_true]
      · simp only [List.find?_cons, found, decide_false]
        exact ih

/-- Change the value at a key, if there is one. -/
def modify (map : InsertionMap κ ν) (key : κ) (change : ν → ν) : InsertionMap κ ν :=
  match map.get? key with
  | some value => map.insert key (change value)
  | none => map

/-- No entry comes or goes. -/
@[simp] theorem isEmpty_modify (map : InsertionMap κ ν) (key : κ) (change : ν → ν) :
    (map.modify key change).isEmpty = map.isEmpty := by
  unfold modify
  cases found : map.get? key with
  | none => rfl
  | some value =>
    have kept : map.isEmpty = false := by
      cases entries : map.entries with
      | nil => simp [get?, entries] at found
      | cons entry rest => simp [isEmpty, entries]
    simp only [isEmpty_insert, kept]

/-- The value at the key is changed. -/
@[simp] theorem get?_modify_self (map : InsertionMap κ ν) (key : κ) (change : ν → ν) :
    (map.modify key change).get? key = (map.get? key).map change := by
  unfold modify
  cases found : map.get? key with
  | none => exact found
  | some value => rw [get?_insert_self, Option.map_some]

/-- The other keys keep their values. -/
@[simp] theorem get?_modify_ne (map : InsertionMap κ ν) {key other : κ} (change : ν → ν)
    (apart : other ≠ key) : (map.modify key change).get? other = map.get? other := by
  unfold modify
  cases map.get? key with
  | none => rfl
  | some value => exact get?_insert_ne map (change value) apart

/-- The entries are the keys with the values that are read. -/
theorem mem_entries_iff (map : InsertionMap κ ν) (key : κ) (value : ν) :
    (key, value) ∈ map.entries ↔ map.get? key = some value := by
  obtain ⟨entries, distinct⟩ := map
  unfold get?
  induction entries with
  | nil => simp
  | cons entry rest ih =>
    obtain ⟨absent, distinct⟩ := List.nodup_cons.mp distinct
    by_cases here : entry.1 = key
    · subst here
      have alone : (entry.1, value) ∉ rest := fun member =>
        absent (List.mem_map.mpr ⟨_, member, rfl⟩)
      simp only [List.mem_cons, alone, or_false, List.find?_cons, decide_true, Option.map_some,
        Option.some.injEq]
      exact ⟨fun same => (congrArg Prod.snd same).symm, fun same => Prod.ext rfl same.symm⟩
    · have other : (key, value) ≠ entry := fun same => here (congrArg Prod.fst same).symm
      simp only [List.mem_cons, other, false_or, List.find?_cons, here, decide_false]
      exact ih distinct

/-! ## Entries that are taken away -/

/-- Take the entry at a key away, if there is one. -/
def erase (map : InsertionMap κ ν) (key : κ) : InsertionMap κ ν where
  entries := map.entries.filter (·.1 ≠ key)
  distinct := map.distinct.sublist (List.filter_sublist.map _)

/-- What is taken away is not there. -/
@[simp] theorem get?_erase_self (map : InsertionMap κ ν) (key : κ) : (map.erase key).get? key = none := by
  unfold get? erase
  rw [List.find?_eq_none.mpr fun entry member found => ?_]
  · rfl
  · have other := (List.mem_filter.mp member).2
    simp only [decide_eq_true_eq] at found other
    exact other found

/-- The other keys keep their values. -/
@[simp] theorem get?_erase_ne (map : InsertionMap κ ν) {key other : κ} (apart : other ≠ key) :
    (map.erase key).get? other = map.get? other := by
  unfold get? erase
  rw [List.find?_filter]
  refine congrArg (Option.map _) (congrArg (List.find? · map.entries) (funext fun entry => ?_))
  by_cases found : entry.1 = other
  · simp [found, apart]
  · simp [found]

end InsertionMap
