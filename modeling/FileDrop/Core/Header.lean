import FileDrop.Core.Text

/-!
# Header values

A header value is what its receiver reads of it. What a sender sets a header to and what arrives of it is
up to the HTTP crates: of these, only what they document is relied on.
-/
namespace FileDrop

/-- `http::HeaderValue`, as it arrives. -/
structure HeaderValue where
  /-- `HeaderValue::to_str`: none is a value that is not visible ASCII. -/
  toStr : Option String
  deriving DecidableEq, Repr

/-- What the receiver reads of a printable text: the text without the blanks around it. -/
def received (text : String) : String := .ofList (trimMatches (· == ' ') text.toList)

/-- A text without blanks at its ends is read as it is. -/
theorem received_of_ends {text : String} (first : ∀ c ∈ text.toList.head?, c ≠ ' ')
    (last : ∀ c ∈ text.toList.getLast?, c ≠ ' ') : received text = text := by
  have same : trimMatches (· == ' ') text.toList = text.toList :=
    trimMatches_of_ends (fun c found => by simp [first c found])
      fun c found => by simp [last c found]
  rw [received, same, String.ofList_toList]

/-- `http` and `hyper`: the value that arrives of a header that is set to a text, if the text is legal in a
header. -/
structure Http where
  header : String → Option HeaderValue
  /-- Only control characters are illegal. -/
  legal (text : String) : (∀ c ∈ text.toList, isControl c = false) → ∃ value, header text = some value
  /-- The blanks around a value do not survive the transport. -/
  printable (text : String) (value : HeaderValue) :
    Printable text.toList → header text = some value → value.toStr = some (received text)
  /-- The bytes of a character beyond ASCII are not visible. -/
  beyond (text : String) (value : HeaderValue) :
    (∃ c ∈ text.toList, 128 ≤ c.toNat) → header text = some value → value.toStr = none

namespace Http

/-- What the receiver reads of a header that is set to a text. -/
def reads (http : Http) (text : String) : Option String := (http.header text).bind HeaderValue.toStr

/-- A printable character is no control character. -/
theorem plain_of_printable {text : List Char} (printable : Printable text) :
    ∀ c ∈ text, isControl c = false := by
  intro c member
  have code := printable c member
  simp only [isControl, Bool.or_eq_false_iff, Bool.and_eq_false_iff, decide_eq_false_iff_not]
  omega

variable {http : Http} {text : String}

/-- A printable text arrives. -/
theorem header_printable (printable : Printable text.toList) :
    ∃ value, http.header text = some value ∧ value.toStr = some (received text) := by
  obtain ⟨value, legal⟩ := http.legal text (plain_of_printable printable)
  exact ⟨value, legal, http.printable text value printable legal⟩

/-- What the receiver reads of a printable text. -/
theorem reads_printable (printable : Printable text.toList) : http.reads text = some (received text) := by
  obtain ⟨value, arrives, read⟩ := @header_printable http text printable
  rw [reads, arrives, Option.bind_some, read]

/-- A text with a character beyond ASCII is not read back. -/
theorem reads_beyond {c : Char} (member : c ∈ text.toList) (wide : 128 ≤ c.toNat) :
    http.reads text = none := by
  cases arrives : http.header text with
  | none => rw [reads, arrives, Option.bind_none]
  | some value => rw [reads, arrives, Option.bind_some, http.beyond text value ⟨c, member, wide⟩ arrives]

/-- Crates that take every text without control characters. -/
def plain : Http where
  header text :=
    if text.toList.any isControl then none
    else some ⟨if text.toList.all (·.toNat < 128) then some (received text) else none⟩
  legal text allowed := by
    have none : ¬text.toList.any isControl = true := by simpa using allowed
    exact ⟨_, if_neg none⟩
  printable text value printable arrives := by
    have ascii : text.toList.all (·.toNat < 128) = true := by
      rw [List.all_eq_true]
      intro c member
      have code := printable c member
      exact decide_eq_true (by omega)
    rw [if_pos ascii] at arrives
    split at arrives
    · cases arrives
    · exact congrArg HeaderValue.toStr (Option.some.inj arrives).symm
  beyond text value wide arrives := by
    have some : ¬text.toList.all (·.toNat < 128) = true := by
      rw [List.all_eq_true]
      intro ascii
      obtain ⟨c, member, beyond⟩ := wide
      have code := of_decide_eq_true (ascii c member)
      omega
    rw [if_neg some] at arrives
    split at arrives
    · cases arrives
    · exact congrArg HeaderValue.toStr (Option.some.inj arrives).symm

end Http

end FileDrop
