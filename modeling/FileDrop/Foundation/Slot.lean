import Mathlib.Data.List.Chain

/-!
# Slots

A slot holds at most one value. A store puts a value in, and one that was there is lost; a take gets
what is there and leaves the slot empty. What the slot holds, and what no take has got, follows from the
order of the accesses.
-/
namespace Slot

variable {α : Type}

/-- One access to a slot. -/
inductive Access (α : Type) where
  | stored (value : α)
  | taken
  deriving DecidableEq

/-- What the slot holds after accesses, the latest first. -/
def content : List (Access α) → Option α
  | .stored value :: _ => some value
  | _ => none

/-- The values that no take has got, the latest first. -/
def kept : List (Access α) → List α
  | [] | [.taken] => []
  | .stored value :: older => value :: kept older
  | .taken :: .taken :: older => kept (.taken :: older)
  | .taken :: .stored _ :: older => kept older

/-- Every store has an access after it, and the next one is a take. -/
def Answered (accesses : List (Access α)) : Prop :=
  content accesses = none ∧
    accesses.IsChain fun later earlier => ∀ value, earlier = .stored value → later = .taken

/-- The slot holds what the latest access has stored. -/
theorem content_eq_some {accesses : List (Access α)} {value : α} :
    content accesses = some value ↔ accesses.head? = some (.stored value) := by
  cases accesses with
  | nil => exact iff_of_false nofun nofun
  | cons access older =>
    cases access with
    | taken => exact iff_of_false nofun nofun
    | stored last => simp [content]

/-- A take gets the latest value that was kept. -/
theorem kept_taken {accesses : List (Access α)} {value : α} (there : content accesses = some value) :
    kept accesses = value :: kept (.taken :: accesses) := by
  cases accesses with
  | nil => cases there
  | cons access older =>
    cases access with
    | taken => cases there
    | stored last =>
      obtain rfl := Option.some.inj there
      simp only [kept]

/-- A take from an empty slot gets none. -/
theorem kept_taken_empty {accesses : List (Access α)} (empty : content accesses = none) :
    kept (.taken :: accesses) = kept accesses := by
  cases accesses with
  | nil => simp only [kept]
  | cons access older =>
    cases access with
    | taken => simp only [kept]
    | stored last => cases empty

/-- A kept value was stored. -/
theorem stored_of_kept {accesses : List (Access α)} {value : α} (held : value ∈ kept accesses) :
    .stored value ∈ accesses := by
  fun_induction kept accesses with
  | case1 | case2 => cases held
  | case3 last older ih =>
    rcases List.mem_cons.mp held with rfl | earlier
    · exact List.mem_cons_self
    · exact List.mem_cons_of_mem _ (ih earlier)
  | case4 older ih => exact List.mem_cons_of_mem _ (ih held)
  | case5 last older ih => exact List.mem_cons_of_mem _ (List.mem_cons_of_mem _ (ih held))

/-- What the slot holds is kept. -/
theorem kept_of_content {accesses : List (Access α)} {value : α} (there : content accesses = some value) :
    value ∈ kept accesses := by
  rw [kept_taken there]
  exact List.mem_cons_self

/-- The takes have got every value exactly if each of them answers a store. -/
theorem kept_eq_nil_iff (accesses : List (Access α)) : kept accesses = [] ↔ Answered accesses := by
  fun_induction kept accesses with
  | case1 | case2 => simp [Answered, content]
  | case3 value older => simp [Answered, content]
  | case4 older ih =>
    rw [ih]
    simp [Answered, content]
  | case5 value older ih =>
    rw [ih]
    cases older with
    | nil => simp [Answered, content]
    | cons access older =>
      cases access with
      | taken => simp [Answered, content]
      | stored earlier => simp [Answered, content]

end Slot
