import Mathlib.Data.List.OfFn

/-!
# Words cut anew, and base64

A row of words is also a row of bits, and the same bits can be cut into words of another width; the last
of them is filled up with zero bits. What that gives is unique, and nothing is lost as long as the new
words are not wider than the old ones. Base64 cuts bytes into words of six bits, three bytes at a time,
and writes each of them as a character.
-/
namespace Base64

variable {w v : Nat}

/-! ## The bits of words -/

/-- The bits of a word, the most significant first. -/
def bits (word : BitVec w) : List Bool := List.ofFn fun i : Fin w => word.getMsbD i

/-- The bits of a row of words. -/
def stream (words : List (BitVec w)) : List Bool := words.flatMap bits

@[simp] theorem length_bits (word : BitVec w) : (bits word).length = w := List.length_ofFn

/-- A word is known from its bits. -/
theorem bits_injective {left right : BitVec w} (same : bits left = bits right) : left = right := by
  have agree := List.ofFn_injective same
  apply BitVec.eq_of_getMsbD_eq
  intro i inside
  exact congrFun agree ⟨i, inside⟩

/-- The bits of two words side by side. -/
theorem bits_append (high : BitVec w) (low : BitVec v) : bits (high ++ low) = bits high ++ bits low := by
  unfold bits
  rw [List.ofFn_add]
  congr 1
  · apply congrArg List.ofFn
    funext i
    have inside := i.isLt
    simp only [BitVec.getMsbD_append, Fin.val_castLE]
    simp [inside]
  · apply congrArg List.ofFn
    funext i
    simp [BitVec.getMsbD_append]

/-- The bits of a word of zeros. -/
theorem bits_zero : bits (0#w) = List.replicate w false := by
  simp [bits, List.ofFn_const]

@[simp] theorem stream_nil : stream ([] : List (BitVec w)) = [] := rfl

@[simp] theorem stream_cons (word : BitVec w) (words : List (BitVec w)) :
    stream (word :: words) = bits word ++ stream words := List.flatMap_cons

@[simp] theorem stream_append (first second : List (BitVec w)) :
    stream (first ++ second) = stream first ++ stream second := List.flatMap_append

/-- Every word has as many bits as its width. -/
theorem length_stream (words : List (BitVec w)) : (stream words).length = words.length * w := by
  induction words with
  | nil => simp
  | cons word words ih =>
    rw [stream_cons, List.length_append, length_bits, ih, List.length_cons, Nat.succ_mul, Nat.add_comm]

/-- A row of words is known from its bits and its length. -/
theorem stream_injective {left right : List (BitVec w)} (length : left.length = right.length)
    (same : stream left = stream right) : left = right := by
  induction left generalizing right with
  | nil => exact (List.length_eq_zero_iff.mp length.symm).symm
  | cons word left ih =>
    cases right with
    | nil => cases length
    | cons other right =>
      rw [stream_cons, stream_cons] at same
      obtain ⟨heads, tails⟩ := List.append_inj same (by rw [length_bits, length_bits])
      rw [bits_injective heads, ih (Nat.succ.inj length) tails]

/-! ## Cutting them anew -/

/-- The new words have the bits of the old ones, and as many zero bits as fill up the last of them. -/
def Regroups (input : List (BitVec w)) (output : List (BitVec v)) : Prop :=
  ∃ zeros < v, stream output = stream input ++ List.replicate zeros false

section

variable {input : List (BitVec w)} {output : List (BitVec v)}

/-- The bits of the new words, counted. -/
theorem Regroups.length_bits (regroups : Regroups input output) :
    ∃ zeros < v, output.length * v = input.length * w + zeros := by
  obtain ⟨zeros, few, same⟩ := regroups
  have lengths := congrArg List.length same
  rw [List.length_append, length_stream, length_stream, List.length_replicate] at lengths
  exact ⟨zeros, few, lengths⟩

/-- There are as many new words as it takes. -/
theorem Regroups.length_eq (regroups : Regroups input output) :
    output.length = (input.length * w + (v - 1)) / v := by
  obtain ⟨zeros, few, lengths⟩ := regroups.length_bits
  symm
  apply Nat.div_eq_of_lt_le
  · omega
  · rw [Nat.succ_mul]
    omega

/-- There is only one way to cut a row of words anew. -/
theorem Regroups.unique {other : List (BitVec v)} (first : Regroups input output)
    (second : Regroups input other) : output = other := by
  have length : output.length = other.length := first.length_eq.trans second.length_eq.symm
  obtain ⟨zeros, few, same⟩ := first
  obtain ⟨zeros', few', same'⟩ := second
  have counts := congrArg List.length same
  have counts' := congrArg List.length same'
  simp only [List.length_append, length_stream, List.length_replicate] at counts counts'
  have filled : zeros = zeros' := by
    rw [length] at counts
    omega
  apply stream_injective length
  rw [same, same', filled]

/-- Words that are not narrower than the new ones can be read back from these. -/
theorem Regroups.injective {other : List (BitVec w)} (narrower : v ≤ w) (first : Regroups input output)
    (second : Regroups other output) : input = other := by
  obtain ⟨zeros, few, same⟩ := first
  obtain ⟨zeros', few', same'⟩ := second
  have joined := same.symm.trans same'
  have counts := congrArg List.length joined
  simp only [List.length_append, length_stream, List.length_replicate] at counts
  -- the filling is shorter than a word, so it cannot make up for one
  have words (count filling : Nat) (short : filling < v) : (count * w + filling) / w = count := by
    rw [Nat.mul_comm, Nat.mul_add_div (by omega), Nat.div_eq_of_lt (by omega), Nat.add_zero]
  have length : input.length = other.length := by
    rw [← words input.length zeros few, counts, words other.length zeros' few']
  have sides : (stream input).length = (stream other).length := by
    rw [length_stream, length_stream, length]
  exact stream_injective length (List.append_inj joined sides).1

/-- Words whose bits fill new words exactly, before others. -/
theorem Regroups.append {front : List (BitVec w)} {words : List (BitVec v)}
    (exact : stream words = stream front) (regroups : Regroups input output) :
    Regroups (front ++ input) (words ++ output) := by
  obtain ⟨zeros, few, same⟩ := regroups
  refine ⟨zeros, few, ?_⟩
  rw [stream_append, stream_append, exact, same, List.append_assoc]

end

/-- The last `count` words of width `v` in a word. -/
def chop (v : Nat) : (count : Nat) → BitVec w → List (BitVec v)
  | 0, _ => []
  | count + 1, word => word.extractLsb' (count * v) v :: chop v count word

/-- They have the last bits of the word. -/
theorem stream_chop_tail (count : Nat) (word : BitVec w) :
    stream (chop v count word) = bits (word.extractLsb' 0 (count * v)) := by
  induction count with
  | zero => simp [chop, bits]
  | succ count ih =>
    have widths : (count + 1) * v = v + count * v := by rw [Nat.succ_mul, Nat.add_comm]
    have joined : word.extractLsb' (count * v) v ++ word.extractLsb' 0 (count * v) =
        word.extractLsb' 0 (v + count * v) :=
      BitVec.extractLsb'_append_extractLsb'_eq_extractLsb' (Nat.zero_add _).symm
    rw [chop, stream_cons, ih, ← bits_append, joined, widths]

/-- A word that is cut without a rest. -/
theorem stream_chop {count : Nat} (exact : count * v = w) (word : BitVec w) :
    stream (chop v count word) = bits word := by
  subst exact
  rw [stream_chop_tail, BitVec.extractLsb'_eq_self]

/-! ## Base64 -/

/-- The words of six bits for some bytes: four for every three bytes, and two or three for what is left,
the last of them filled up with zeros. -/
def sextets : List (BitVec 8) → List (BitVec 6)
  | first :: second :: third :: rest => chop 6 4 (first ++ second ++ third) ++ sextets rest
  | [first, second] => chop 6 3 (first ++ second ++ 0#2)
  | [first] => chop 6 2 (first ++ 0#4)
  | [] => []

/-- They are the bytes cut anew. -/
theorem regroups_sextets (bytes : List (BitVec 8)) : Regroups bytes (sextets bytes) := by
  induction bytes using sextets.induct with
  | case1 first second third rest ih =>
    have exact : stream (chop 6 4 (first ++ second ++ third)) = stream [first, second, third] := by
      rw [stream_chop rfl, bits_append, bits_append]
      simp
    exact Regroups.append exact ih
  | case2 first second =>
    refine ⟨2, by decide, ?_⟩
    rw [sextets, stream_chop rfl, bits_append, bits_append, bits_zero]
    simp
  | case3 first =>
    refine ⟨4, by decide, ?_⟩
    rw [sextets, stream_chop rfl, bits_append, bits_zero]
    simp
  | case4 => exact ⟨0, by decide, rfl⟩

/-- The words of six bits are the ones that `sextets` computes. -/
theorem regroups_iff {bytes : List (BitVec 8)} {words : List (BitVec 6)} :
    Regroups bytes words ↔ words = sextets bytes := by
  constructor
  · intro regroups
    exact regroups.unique (regroups_sextets bytes)
  · rintro rfl
    exact regroups_sextets bytes

/-- The character of a word of six bits, in the alphabet that is safe in URLs and file names. -/
def urlSafe (sextet : BitVec 6) : Char :=
  if sextet.toNat < 26 then Char.ofNat ('A'.toNat + sextet.toNat)
  else if sextet.toNat < 52 then Char.ofNat ('a'.toNat + (sextet.toNat - 26))
  else if sextet.toNat < 62 then Char.ofNat ('0'.toNat + (sextet.toNat - 52))
  else if sextet.toNat = 62 then '-'
  else '_'

/-- The word of six bits that has the character. -/
def urlSafeValue (c : Char) : BitVec 6 :=
  if c.isUpper then BitVec.ofNat 6 (c.toNat - 'A'.toNat)
  else if c.isLower then BitVec.ofNat 6 (c.toNat - 'a'.toNat + 26)
  else if c.isDigit then BitVec.ofNat 6 (c.toNat - '0'.toNat + 52)
  else if c = '-' then 62#6
  else 63#6

/-- It is read back from there. -/
theorem urlSafeValue_urlSafe : ∀ sextet, urlSafeValue (urlSafe sextet) = sextet := by
  decide

/-- Every word has a character of its own. -/
theorem urlSafe_injective : Function.Injective urlSafe :=
  Function.LeftInverse.injective urlSafeValue_urlSafe

/-- The text is the unpadded base64 of the bytes, in the alphabet given. -/
def Encodes (letter : BitVec 6 → Char) (bytes : List UInt8) (text : String) : Prop :=
  ∃ words, Regroups (bytes.map UInt8.toBitVec) words ∧ text = String.ofList (words.map letter)

/-- It, computed. -/
def encode (letter : BitVec 6 → Char) (bytes : List UInt8) : String :=
  String.ofList ((sextets (bytes.map UInt8.toBitVec)).map letter)

/-- The computed text is the only one. -/
theorem encodes_iff {letter : BitVec 6 → Char} {bytes : List UInt8} {text : String} :
    Encodes letter bytes text ↔ text = encode letter bytes := by
  unfold Encodes encode
  constructor
  · rintro ⟨words, regroups, rfl⟩
    rw [regroups_iff.mp regroups]
  · rintro rfl
    exact ⟨_, regroups_sextets _, rfl⟩

/-- A last group of one byte has a text of two characters. -/
example : encode urlSafe [102, 111, 111, 98] = "Zm9vYg" := by decide

section

variable {letter : BitVec 6 → Char} {bytes : List UInt8} {text : String}

/-- Six bits for each character. -/
theorem Encodes.length (encodes : Encodes letter bytes text) :
    text.toList.length = (bytes.length * 8 + 5) / 6 := by
  obtain ⟨words, regroups, rfl⟩ := encodes
  rw [String.toList_ofList, List.length_map, regroups.length_eq, List.length_map]

/-- The characters are of the alphabet. -/
theorem Encodes.mem (encodes : Encodes letter bytes text) {c : Char} (member : c ∈ text.toList) :
    ∃ sextet, letter sextet = c := by
  obtain ⟨words, -, rfl⟩ := encodes
  rw [String.toList_ofList] at member
  obtain ⟨sextet, -, same⟩ := List.mem_map.mp member
  exact ⟨sextet, same⟩

/-- Different bytes have different texts. -/
theorem Encodes.injective {other : List UInt8} (apart : Function.Injective letter)
    (first : Encodes letter bytes text) (second : Encodes letter other text) : bytes = other := by
  obtain ⟨words, regroups, spelled⟩ := first
  obtain ⟨words', regroups', spelled'⟩ := second
  have letters : words.map letter = words'.map letter :=
    String.ofList_injective (spelled.symm.trans spelled')
  have same : words = words' := (List.map_inj_right fun _ _ => apart.eq_iff.mp).mp letters
  subst same
  have read := regroups.injective (by decide) regroups'
  exact (List.map_inj_right fun _ _ => UInt8.toBitVec_inj.mp).mp read

end

end Base64
