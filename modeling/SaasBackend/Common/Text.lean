-- Python's operations on strings, as far as Lean's differ from them, and textual IP addresses.
namespace SaasBackend.Text

-- `str.isspace` on a single character.
def isSpace (c : Char) : Bool :=
  let n := c.toNat
  (9 ≤ n ∧ n ≤ 13) ∨ (28 ≤ n ∧ n ≤ 32) ∨ n = 0x85 ∨ n = 0xA0 ∨ n = 0x1680 ∨
  (0x2000 ≤ n ∧ n ≤ 0x200A) ∨ n = 0x2028 ∨ n = 0x2029 ∨ n = 0x202F ∨ n = 0x205F ∨ n = 0x3000

def spaceRanges : List (Nat × Nat) := [
  (9, 13), (28, 32), (0x85, 0x85), (0xA0, 0xA0), (0x1680, 0x1680), (0x2000, 0x200A), (0x2028, 0x2028),
  (0x2029, 0x2029), (0x202F, 0x202F), (0x205F, 0x205F), (0x3000, 0x3000)
]

theorem isSpace_iff {c : Char} :
    isSpace c ↔ ∃ s ∈ spaceRanges, s.1 ≤ c.toNat ∧ c.toNat ≤ s.2 := by
  simp only [isSpace, spaceRanges, decide_eq_true_eq, List.mem_cons, List.not_mem_nil, or_false,
    exists_eq_or_imp, exists_eq_left]
  omega

-- `str.strip()`
def strip (s : String) : String :=
  .ofList <| ((s.toList.dropWhile isSpace).reverse.dropWhile isSpace).reverse

-- `str.split(sep)`, on lists of characters and with a separator of one character.
def split (sep : Char) : List Char → List (List Char)
  | []      => [[]]
  | c :: cs =>
    if c = sep then [] :: split sep cs
    else
      match split sep cs with
      | []          => [[c]]
      | part :: parts => (c :: part) :: parts

-- `bytes.isspace` on a single byte.
def isAsciiSpace (c : Char) : Bool :=
  let n := c.toNat
  (9 ≤ n ∧ n ≤ 13) ∨ n = 32

-- `bytes.split()`
def words (cs : List Char) : List (List Char) :=
  (cs.splitOnP isAsciiSpace).filter (· ≠ [])

-- `s[:n]`
def truncate (s : String) (n : Nat) : String :=
  .ofList <| s.toList.take n

def startsWith (s pre : String) : Bool :=
  pre.toList.isPrefixOf s.toList

def endsWith (s suf : String) : Bool :=
  suf.toList.isSuffixOf s.toList

theorem length_truncate_le (s : String) (n : Nat) : (truncate s n).length ≤ n := by
  rw [truncate, String.length_ofList, List.length_take]
  exact Nat.min_le_left ..

-- Neither the first nor the last character is a space.
structure IsTrimmed (cs : List Char) : Prop where
  head : ∀ c, cs.head? = some c → ¬isSpace c
  last : ∀ c, cs.getLast? = some c → ¬isSpace c

theorem not_isSpace_of_head?_dropWhile {cs : List Char} {c : Char}
    (h : (cs.dropWhile isSpace).head? = some c) : ¬isSpace c := by
  have hn := List.head?_dropWhile_not isSpace cs
  rw [h] at hn
  exact Bool.eq_false_iff.mp hn

theorem isTrimmed_strip (s : String) : IsTrimmed (strip s).toList := by
  rw [strip, String.toList_ofList]
  constructor
  case last =>
    intro c hc
    rw [List.getLast?_reverse] at hc
    exact not_isSpace_of_head?_dropWhile hc
  case head =>
    intro c hc
    -- What is trimmed at the end starts with the same character.
    have ⟨as, ha⟩ := List.dropWhile_suffix (l := (s.toList.dropWhile isSpace).reverse) isSpace
    have ⟨bs, hb⟩ := List.getLast?_eq_some_iff.mp <| List.head?_reverse.symm.trans hc
    rw [hb, ←List.append_assoc] at ha
    have hr := List.reverse_eq_iff.mp ha.symm
    have hh : (s.toList.dropWhile isSpace).head? = some c := by rw [hr, List.reverse_append]; rfl
    exact not_isSpace_of_head?_dropWhile hh

theorem strip_of_isTrimmed {s : String} (h : IsTrimmed s.toList) : strip s = s := by
  have hd : ∀ cs : List Char, (∀ c, cs.head? = some c → ¬isSpace c) → cs.dropWhile isSpace = cs := by
    intro cs hc
    cases cs
    case nil       => rfl
    case cons c cs => exact List.dropWhile_cons_of_neg (hc c rfl)
  have hr : ∀ c, s.toList.reverse.head? = some c → ¬isSpace c :=
    fun c hc => h.last c <| List.head?_reverse.symm.trans hc
  rw [strip, hd _ h.head, hd _ hr, List.reverse_reverse, String.ofList_toList]

theorem strip_eq_self {s : String} (h : ∀ c ∈ s.toList, ¬isSpace c) : strip s = s :=
  strip_of_isTrimmed {
    head c hc := h c <| List.mem_of_head? hc
    last c hc := h c <| List.mem_of_getLast? hc
  }

theorem isTrimmed_iff {s : String} : IsTrimmed s.toList ↔ strip s = s :=
  ⟨strip_of_isTrimmed, fun h => h ▸ isTrimmed_strip s⟩

-- What is cut off from a trimmed string may end in a space, but it does not start with one.
theorem IsTrimmed.take_iff {cs : List Char} (h : IsTrimmed cs) (n : Nat) :
    IsTrimmed (cs.take (n + 1)) ↔ ∀ c, cs[n]? = some c → ¬isSpace c := by
  have hl : (cs.take (n + 1)).getLast? = cs[n]?.or cs.getLast? := by simp [List.getLast?_take]
  constructor
  case mp =>
    intro ht c hc
    exact ht.last c <| by rw [hl, hc]; rfl
  case mpr =>
    intro hn
    constructor
    case head =>
      intro c hc
      exact h.head c <| by simpa [List.head?_take] using hc
    case last =>
      intro c hc
      rw [hl] at hc
      cases hg : cs[n]?
      case none     => exact h.last c <| by simpa [hg] using hc
      case some c'  => exact hn c <| by rw [hg] at hc ⊢; exact hc

theorem length_strip_le (s : String) : (strip s).length ≤ s.length := by
  rw [strip, String.length_ofList, List.length_reverse, ←String.length_toList]
  refine Nat.le_trans (List.dropWhile_suffix _).length_le ?_
  rw [List.length_reverse]
  exact (List.dropWhile_suffix _).length_le

theorem truncate_of_length_le {s : String} {n : Nat} (h : s.length ≤ n) : truncate s n = s := by
  rw [truncate, List.take_of_length_le <| String.length_toList ▸ h, String.ofList_toList]

theorem words_pair {v w : List Char} {c : Char} (hv : ∀ c ∈ v, ¬isAsciiSpace c) (hv' : v ≠ [])
    (hw : ∀ c ∈ w, ¬isAsciiSpace c) (hw' : w ≠ []) (hc : isAsciiSpace c) :
    words (v ++ c :: w) = [v, w] := by
  have hv : ∀ c ∈ v, isAsciiSpace c = false := fun c h => Bool.eq_false_iff.mpr (hv c h)
  have hw : ∀ c ∈ w, isAsciiSpace c = false := fun c h => Bool.eq_false_iff.mpr (hw c h)
  rw [words, List.splitOnP_append_cons_of_forall_mem hv c hc, List.splitOnP_eq_singleton hw]
  simp [hv', hw']

theorem toLower_cases (c : Char) : c.toLower = c ∨ 65 ≤ c.toNat ∧ c.toNat ≤ 90 := by
  unfold Char.toLower
  split
  case isTrue h =>
    exact .inr ⟨UInt32.le_iff_toNat_le.mp h.left, UInt32.le_iff_toNat_le.mp h.right⟩
  case isFalse => exact .inl rfl

section IpAddress

def isDecimal (c : Char) : Bool :=
  '0' ≤ c ∧ c ≤ '9'

def isHexadecimal (c : Char) : Bool :=
  isDecimal c ∨ ('a' ≤ c ∧ c ≤ 'f') ∨ ('A' ≤ c ∧ c ≤ 'F')

def decimal (cs : List Char) : Nat :=
  cs.foldl (fun n c => n * 10 + (c.toNat - '0'.toNat)) 0

-- One of the four numbers of an IPv4 address: no more than 255, and without leading zeros.
def isOctet (cs : List Char) : Bool :=
  cs ≠ [] ∧ cs.all isDecimal ∧ cs.length ≤ 3 ∧ (cs.head? = some '0' → cs.length = 1) ∧
  decimal cs ≤ 255

def isIpv4Address (cs : List Char) : Bool :=
  let octets := split '.' cs
  octets.length = 4 ∧ octets.all isOctet

-- One of the eight numbers of an IPv6 address.
def isHextet (cs : List Char) : Bool :=
  cs ≠ [] ∧ cs.all isHexadecimal ∧ cs.length ≤ 4

-- The parts of an IPv6 address between its colons, where a dotted ending stands for two of them.
def ipv6Parts (cs : List Char) : Option (List (List Char)) :=
  let parts := split ':' cs
  let last  := parts.getLastD []
  if '.' ∈ last then
    if isIpv4Address last then some (parts.dropLast ++ [['0'], ['0']]) else none
  else
    some parts

-- The parts on one side of `::`, which are none if the address starts or ends with it.
def ipv6Side (parts : List (List Char)) : List (List Char) :=
  if parts = [[]] then [] else parts

-- Either there are eight parts, or `::` is used once to leave out at least one of them.
def isIpv6Address (cs : List Char) : Bool :=
  match ipv6Parts cs with
  | none       => false
  | some parts =>
    let inner := (parts.drop 1).dropLast
    match inner.findIdx? (· = []) with
    | none   => parts.length = 8 ∧ parts.all isHextet
    | some i =>
      let left  := ipv6Side (parts.take (i + 1))
      let right := ipv6Side (parts.drop (i + 2))
      left.all isHextet ∧ right.all isHextet ∧ left.length + right.length ≤ 7

-- The scope of an address is dropped from it before it is stored.
def isScopedIpv6Address (cs : List Char) : Bool :=
  match split '%' cs with
  | [address]        => isIpv6Address address
  | [address, scope] => scope ≠ [] ∧ isIpv6Address address
  | _                => false

def isIpAddress (s : String) : Bool :=
  isIpv4Address s.toList ∨ isScopedIpv6Address s.toList

end IpAddress
end SaasBackend.Text
