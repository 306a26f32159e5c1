import Mathlib.Data.List.Basic

/-!
# What has held since an earlier input

The past-time operator of a run: some earlier input established a fact, and no input after it
reset that fact. A run is the list of its inputs, and the established fact may speak about the
run before its input. `since_snoc` is the induction step: it says when the fact holds after one
more input.
-/
namespace Runs

variable {Input : Type}

/-- An earlier input was `established` in the run before it, and no later input was a `reset`. -/
def Since (established : List Input → Input → Prop) (reset : Input → Prop)
    (inputs : List Input) : Prop :=
  ∃ earlier input between, inputs = earlier ++ input :: between ∧ established earlier input ∧
    ∀ later ∈ between, ¬reset later

variable {established : List Input → Input → Prop} {reset : Input → Prop}

/-- After one more input the fact holds when that input established it, or when it held before
and the input is no reset. -/
theorem since_snoc (inputs : List Input) (last : Input) :
    Since established reset (inputs ++ [last]) ↔
      established inputs last ∨ Since established reset inputs ∧ ¬reset last := by
  constructor
  · rintro ⟨earlier, input, between, split, holds, untouched⟩
    rcases List.eq_nil_or_concat between with rfl | ⟨rest, final, rfl⟩
    · obtain ⟨rfl, same⟩ := List.append_inj' split rfl
      obtain rfl := List.head_eq_of_cons_eq same
      exact .inl holds
    · rw [List.concat_eq_append, ← List.cons_append, ← List.append_assoc] at split
      obtain ⟨rfl, same⟩ := List.append_inj' split rfl
      obtain rfl := List.head_eq_of_cons_eq same
      refine .inr ⟨⟨earlier, input, rest, rfl, holds, fun later member => ?_⟩, ?_⟩
      · exact untouched later (by simp [member])
      · exact untouched last (by simp)
  · rintro (holds | ⟨⟨earlier, input, between, rfl, holds, untouched⟩, kept⟩)
    · exact ⟨inputs, last, [], rfl, holds, by simp⟩
    · refine ⟨earlier, input, between ++ [last], by simp, holds, fun later member => ?_⟩
      rcases List.mem_append.mp member with old | new
      · exact untouched later old
      · rw [List.mem_singleton.mp new]
        exact kept

/-! ## What a fold shows -/

/-- What is seen of a fold depends on the inputs from one on, when that one sets it, and each later one
keeps it a function of what was seen before. -/
theorem foldl_look {State Seen : Type} {step : State → Input → State} {look : State → Seen}
    (local_ : ∀ left right input, look left = look right → look (step left input) = look (step right input))
    {sets : Input} (resets : ∀ left right, look (step left sets) = look (step right sets))
    (first second later : List Input) (left right : State) :
    look ((first ++ sets :: later).foldl step left) = look ((second ++ sets :: later).foldl step right) := by
  have same : ∀ (inputs : List Input) (left right : State), look left = look right →
      look (inputs.foldl step left) = look (inputs.foldl step right) := by
    intro inputs
    induction inputs with
    | nil => exact fun _ _ seen => seen
    | cons input rest ih => exact fun left right seen => ih _ _ (local_ left right input seen)
  rw [List.foldl_append, List.foldl_append]
  exact same later _ _ (resets _ _)

end Runs
