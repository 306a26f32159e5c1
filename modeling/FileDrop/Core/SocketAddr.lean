import FileDrop.Core.Ip
import FileDrop.Core.Uuid

/-!
# Socket addresses

The parsers of `std::net::Ipv6Addr` and `std::net::SocketAddr`. An IPv6 address is groups of one to
four hexadecimal digits between colons: eight of them, or at most seven around one `::`; the last two
may be written as an IPv4 address. A socket address is an IPv4 address, or an IPv6 address in brackets,
before a colon and a port. A port has digits only, so that colon is the last one.
-/
namespace FileDrop

/-! ## IPv6 -/

/-- `char::is_digit` at radix sixteen: either case. -/
def isHexDigit (c : Char) : Bool := hexDigits.contains c.toLower

/-- A group of an address: one to four hexadecimal digits. -/
def parseGroup (digits : List Char) : Option Nat :=
  if digits ≠ [] ∧ digits.length ≤ 4 ∧ digits.all isHexDigit then
    some (Uuid.ofHex (digits.map Char.toLower))
  else none

/-- The two groups that an IPv4 address stands for. -/
def Ipv4.groups (address : Ipv4) : List Nat :=
  [256 * address.a.toNat + address.b.toNat, 256 * address.c.toNat + address.d.toNat]

/-- The groups that end an address: the last part may be an IPv4 address. -/
def parseGroups : List (List Char) → Option (List Nat)
  | [] => some []
  | [last] =>
    match Ipv4.parse (.ofList last) with
    | some address => some address.groups
    | none => (parseGroup last).map fun group => [group]
  | part :: rest => do
    let group ← parseGroup part
    let groups ← parseGroups rest
    return group :: groups

/-- The parts between the colons of one side of a `::`, which may be empty. -/
def groupTexts (side : List Char) : List (List Char) := if side = [] then [] else side.splitOn ':'

/-- What is before the first `::` and what is after it. -/
def splitDouble : List Char → Option (List Char × List Char)
  | ':' :: ':' :: rest => some ([], rest)
  | [] => none
  | c :: rest => (splitDouble rest).map fun (front, back) => (c :: front, back)

namespace Ipv6

/-- The address of eight groups. -/
def ofGroups (groups : List Nat) : Ipv6 :=
  ⟨.ofNat 128 (groups.foldl (fun value group => 65536 * value + group) 0)⟩

/-- `FromStr`. -/
def parse (text : String) : Option Ipv6 :=
  match splitDouble text.toList with
  | none => do
    let groups ← parseGroups (text.toList.splitOn ':')
    if groups.length = 8 then some (ofGroups groups) else none
  | some (front, back) => do
    let head ← (groupTexts front).mapM parseGroup
    let tail ← parseGroups (groupTexts back)
    if head.length + tail.length ≤ 7 then
      some (ofGroups (head ++ List.replicate (8 - (head.length + tail.length)) 0 ++ tail))
    else none

end Ipv6

/-! ## The characters of an address -/

/-- The characters of an IPv4 address are digits and dots. -/
theorem Ipv4.parse_chars {text : String} {address : Ipv4} (parsed : parse text = some address) {c : Char}
    (member : c ∈ text.toList) : c.isDigit ∨ c = '.' := by
  rw [← Ipv4.toText_parse parsed, toText, String.toList_ofList] at member
  have octet {value : UInt8} (digit : c ∈ octetDigits value) : c.isDigit :=
    Nat.isDigit_of_mem_toDigits (by decide) (by decide) digit
  simp only [List.intercalate, List.intersperse, List.flatten_cons, List.flatten_nil, List.mem_append,
    List.mem_singleton, List.append_nil] at member
  rcases member with digit | dot | digit | dot | digit | dot | digit
  · exact .inl (octet digit)
  · exact .inr dot
  · exact .inl (octet digit)
  · exact .inr dot
  · exact .inl (octet digit)
  · exact .inr dot
  · exact .inl (octet digit)

/-- A character that an IPv6 address can have between its colons. -/
def inGroup (c : Char) : Bool := isHexDigit c || c.isDigit || c == '.'

/-- The characters of a group are hexadecimal digits. -/
theorem parseGroup_chars {digits : List Char} {group : Nat} (parsed : parseGroup digits = some group) :
    ∀ c ∈ digits, inGroup c := by
  intro c member
  unfold parseGroup at parsed
  split at parsed
  · rename_i shape
    have digit := List.all_eq_true.mp shape.2.2 c member
    simp [inGroup, digit]
  · cases parsed

/-- The characters of the groups that end an address. -/
theorem parseGroups_chars {parts : List (List Char)} {groups : List Nat}
    (parsed : parseGroups parts = some groups) : ∀ part ∈ parts, ∀ c ∈ part, inGroup c := by
  induction parts generalizing groups with
  | nil => simp
  | cons part rest ih =>
    cases rest with
    | nil =>
      intro only member c inside
      rw [List.mem_singleton] at member
      subst member
      rw [parseGroups] at parsed
      split at parsed
      · rename_i address quad
        have chars := Ipv4.parse_chars quad (c := c)
        rw [String.toList_ofList] at chars
        rcases chars inside with digit | dot
        · simp [inGroup, digit]
        · simp [inGroup, dot]
      · obtain ⟨group, read, -⟩ := Option.map_eq_some_iff.mp parsed
        exact parseGroup_chars read c inside
    | cons next others =>
      rw [parseGroups] at parsed
      · simp only [Option.bind_eq_bind, Option.bind_eq_some_iff] at parsed
        obtain ⟨group, read, groups, later, -⟩ := parsed
        intro chosen member
        rcases List.mem_cons.mp member with rfl | member
        · exact parseGroup_chars read
        · exact ih later chosen member
      · simp

/-- Two colons are left out where a text is split at them. -/
theorem splitDouble_eq {text front back : List Char} (split : splitDouble text = some (front, back)) :
    text = front ++ ':' :: ':' :: back := by
  induction text using splitDouble.induct generalizing front with
  | case1 rest =>
    rw [splitDouble, Option.some.injEq, Prod.mk.injEq] at split
    obtain ⟨rfl, rfl⟩ := split
    rfl
  | case2 => cases split
  | case3 c rest single ih =>
    rw [splitDouble] at split
    · obtain ⟨⟨before, after⟩, inner, same⟩ := Option.map_eq_some_iff.mp split
      obtain ⟨rfl, rfl⟩ := Prod.mk.inj same
      rw [ih inner]
      rfl
    · exact single

/-- A character of a text is a separator or in one of the parts between them. -/
theorem mem_intercalate {separator c : Char} {parts : List (List Char)}
    (member : c ∈ [separator].intercalate parts) : c = separator ∨ ∃ part ∈ parts, c ∈ part := by
  induction parts with
  | nil => simp at member
  | cons part rest ih =>
    cases rest with
    | nil => exact .inr ⟨part, List.mem_cons_self, by simpa using member⟩
    | cons next others =>
      rw [List.intercalate_cons_cons, List.mem_append, List.mem_append, List.mem_singleton] at member
      rcases member with (first | same) | later
      · exact .inr ⟨part, List.mem_cons_self, first⟩
      · exact .inl same
      · rcases ih later with same | ⟨chosen, listed, inside⟩
        · exact .inl same
        · exact .inr ⟨chosen, List.mem_cons_of_mem _ listed, inside⟩

/-- A text whose parts between colons are made of group characters has those and colons. -/
theorem colons_chars {text : List Char} (parts : ∀ part ∈ text.splitOn ':', ∀ c ∈ part, inGroup c)
    {c : Char} (member : c ∈ text) : inGroup c ∨ c = ':' := by
  have joined : [':'].intercalate (text.splitOn ':') = text := List.intercalate_splitOn ':'
  rw [← joined] at member
  rcases mem_intercalate member with colon | ⟨part, listed, inside⟩
  · exact .inr colon
  · exact .inl (parts part listed c inside)

/-- The same of one side of a `::`. -/
theorem side_chars {side : List Char} (parts : ∀ part ∈ groupTexts side, ∀ c ∈ part, inGroup c) {c : Char}
    (member : c ∈ side) : inGroup c ∨ c = ':' := by
  have some : side ≠ [] := List.ne_nil_of_mem member
  rw [groupTexts, if_neg some] at parts
  exact colons_chars parts member

/-- Where all of a list is read, each of it is. -/
theorem mapM_reads {α β : Type} {read : α → Option β} {given : List α} {results : List β}
    (all : given.mapM read = some results) : ∀ item ∈ given, ∃ result, read item = some result := by
  induction given generalizing results with
  | nil => simp
  | cons first rest ih =>
    rw [List.mapM_cons] at all
    simp only [Option.bind_eq_bind, Option.bind_eq_some_iff] at all
    obtain ⟨result, one, others, later, -⟩ := all
    intro item member
    rcases List.mem_cons.mp member with rfl | member
    · exact ⟨result, one⟩
    · exact ih later item member

/-- At most two groups come of one part. -/
theorem parseGroups_single {part : List Char} {groups : List Nat}
    (parsed : parseGroups [part] = some groups) : groups.length ≤ 2 := by
  rw [parseGroups] at parsed
  split at parsed
  · rw [← Option.some.inj parsed]
    exact Nat.le_refl 2
  · obtain ⟨group, -, rfl⟩ := Option.map_eq_some_iff.mp parsed
    exact Nat.le_succ 1

namespace Ipv6

/-- The characters of an IPv6 address are those of its groups and colons, and it has a colon. -/
theorem parse_chars {text : String} {address : Ipv6} (parsed : parse text = some address) :
    (∀ c ∈ text.toList, inGroup c ∨ c = ':') ∧ ':' ∈ text.toList := by
  unfold parse at parsed
  split at parsed
  · simp only [Option.bind_eq_bind, Option.bind_eq_some_iff] at parsed
    obtain ⟨groups, read, complete⟩ := parsed
    refine ⟨fun c member => colons_chars (parseGroups_chars read) member, ?_⟩
    by_contra plain
    rw [List.splitOn_eq_singleton plain] at read
    have few := parseGroups_single read
    split at complete
    · omega
    · cases complete
  · rename_i front back double
    simp only [Option.bind_eq_bind, Option.bind_eq_some_iff] at parsed
    obtain ⟨head, before, tail, after, -⟩ := parsed
    rw [splitDouble_eq double]
    refine ⟨fun c member => ?_, by simp⟩
    simp only [List.mem_append, List.mem_cons] at member
    rcases member with first | rfl | rfl | last
    · refine side_chars (fun part listed => ?_) first
      obtain ⟨group, read⟩ := mapM_reads before part listed
      exact parseGroup_chars read
    · exact .inr rfl
    · exact .inr rfl
    · exact side_chars (parseGroups_chars after) last

example : parse "fe80::1:192.168.1.2" =
      some ⟨0xfe800000000000000000_0001_c0a8_0102⟩ ∧ parse "1::2::3" = none ∧
    parse "1:2:3:4:5:6:7::" = some ⟨0x00010002000300040005000600070000⟩ ∧
    parse "::" = some ⟨0⟩ ∧ parse "1:2:3:4::5:6:7:8" = none := by
  decide +kernel

end Ipv6

/-! ## Socket addresses -/

namespace Inet

/-- A decimal number below a bound; it may have leading zeros. -/
def parseNumber (bound : Nat) (digits : List Char) : Option Nat :=
  if digits ≠ [] ∧ digits.all Char.isDigit ∧ Nat.ofDigitChars 10 digits 0 < bound then
    some (Nat.ofDigitChars 10 digits 0)
  else none

/-- `std::net::SocketAddr`. -/
inductive SocketAddr where
  | v4 (ip : Ipv4) (port : UInt16)
  | v6 (ip : Ipv6) (port : UInt16) (flowinfo scopeId : UInt32)
  deriving DecidableEq, Repr

/-- `SocketAddr::new`. -/
def SocketAddr.new (ip : IpAddr) (port : UInt16) : SocketAddr :=
  match ip with
  | .v4 address => .v4 address port
  | .v6 address => .v6 address port 0 0

/-- An IPv6 address, with its scope when one is given. -/
def parseScoped (text : List Char) : Option (Ipv6 × UInt32) :=
  match text.splitOn '%' with
  | [address] => (Ipv6.parse (.ofList address)).map fun ip => (ip, 0)
  | [address, scope] => do
    let ip ← Ipv6.parse (.ofList address)
    let scopeId ← parseNumber (2 ^ 32) scope
    return (ip, .ofNat scopeId)
  | _ => none

/-- The same in brackets. -/
def parseBracketed (text : List Char) : Option (Ipv6 × UInt32) :=
  match text with
  | '[' :: inner => if inner.getLast? = some ']' then parseScoped inner.dropLast else none
  | _ => none

/-- What is before the last colon and what is after it. -/
def splitLastColon : List Char → Option (List Char × List Char)
  | [] => none
  | c :: rest =>
    match splitLastColon rest with
    | some (front, back) => some (c :: front, back)
    | none => if c = ':' then some ([], rest) else none

/-- `FromStr` of `SocketAddr`. -/
def SocketAddr.parse (text : String) : Option SocketAddr := do
  let (address, digits) ← splitLastColon text.toList
  let port ← parseNumber (2 ^ 16) digits
  match Ipv4.parse (.ofList address) with
  | some ip => some (.v4 ip (.ofNat port))
  | none => (parseBracketed address).map fun (ip, scopeId) => .v6 ip (.ofNat port) 0 scopeId

/-- No IPv6 address starts with a bracket. -/
theorem parseBracketed_not_ipv6 {text : String} (bracketed : parseBracketed text.toList ≠ none) :
    Ipv6.parse text = none := by
  cases parsed : Ipv6.parse text with
  | none => rfl
  | some address =>
    have chars := (Ipv6.parse_chars parsed).1
    unfold parseBracketed at bracketed
    split at bracketed
    · rename_i inner starts
      have bracket := chars '[' (by rw [starts]; exact List.mem_cons_self)
      exact absurd bracket (by decide)
    · exact absurd rfl bracketed

/-- No IPv4 address is an IPv6 address, bare or in brackets. -/
theorem not_ipv4 {text : String} {address : Ipv4} (parsed : Ipv4.parse text = some address) :
    Ipv6.parse text = none ∧ parseBracketed text.toList = none := by
  have chars {c : Char} := Ipv4.parse_chars parsed (c := c)
  constructor
  · cases other : Ipv6.parse text with
    | none => rfl
    | some address =>
      have colon := chars (Ipv6.parse_chars other).2
      exact absurd colon (by decide)
  · unfold parseBracketed
    split
    · rename_i inner starts
      have bracket := chars (c := '[') (by rw [starts]; exact List.mem_cons_self)
      exact absurd bracket (by decide)
    · rfl

/-- A text is split at a colon that none follows. -/
theorem splitLastColon_append {back : List Char} (plain : ':' ∉ back) (front : List Char) :
    splitLastColon (front ++ ':' :: back) = some (front, back) := by
  have none : splitLastColon back = none := by
    clear front
    induction back with
    | nil => rfl
    | cons c rest ih =>
      have other : c ≠ ':' := fun same => plain (same ▸ List.mem_cons_self)
      rw [splitLastColon, ih fun member => plain (List.mem_cons_of_mem _ member)]
      exact if_neg other
  induction front with
  | nil =>
    rw [List.nil_append, splitLastColon, none]
    rfl
  | cons c rest ih =>
    rw [List.cons_append, splitLastColon, ih]

/-- A number below the bound is read as it is displayed. -/
theorem parseNumber_toDigits {bound value : Nat} (below : value < bound) :
    parseNumber bound (Nat.toDigits 10 value) = some value := by
  have digits : (Nat.toDigits 10 value).all Char.isDigit :=
    List.all_eq_true.mpr fun c member => Nat.isDigit_of_mem_toDigits (by decide) (by decide) member
  have read : Nat.ofDigitChars 10 (Nat.toDigits 10 value) 0 = value := Nat.ofDigitChars_ten_toDigits
  rw [parseNumber, read, if_pos ⟨Nat.toDigits_ne_nil, digits, below⟩]

/-- What comes of an address with a colon and a port pasted to it. -/
theorem SocketAddr.parse_pasted (address : String) (port : UInt16) :
    SocketAddr.parse (address ++ ":" ++ toString port) =
      match Ipv4.parse address with
      | some ip => some (.v4 ip port)
      | none => (parseBracketed address.toList).map fun (ip, scopeId) => .v6 ip port 0 scopeId := by
  have digits : (toString port).toList = Nat.toDigits 10 port.toNat := by
    change (toString port.toNat).toList = _
    rw [Nat.toString_eq_repr, Nat.toList_repr]
  have plain : ':' ∉ Nat.toDigits 10 port.toNat := by
    intro member
    have digit := Nat.isDigit_of_mem_toDigits (by decide) (by decide) member
    exact absurd digit (by decide)
  have text : (address ++ ":" ++ toString port).toList =
      address.toList ++ ':' :: Nat.toDigits 10 port.toNat := by
    rw [String.toList_append, String.toList_append, digits, List.append_assoc]
    rfl
  have number := parseNumber_toDigits port.toNat_lt
  rw [parse, text, splitLastColon_append plain]
  simp only [Option.bind_eq_bind, Option.bind_some]
  rw [number, String.ofList_toList, Option.bind_some, UInt16.ofNat_toNat]

end Inet

end FileDrop
