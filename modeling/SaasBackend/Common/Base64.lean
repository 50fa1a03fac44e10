import Mathlib

-- The URL-safe variant of Base64, with and without padding.
namespace Base64

def alphabet : List Char := [
  'A', 'B', 'C', 'D', 'E', 'F', 'G', 'H', 'I', 'J', 'K', 'L', 'M',
  'N', 'O', 'P', 'Q', 'R', 'S', 'T', 'U', 'V', 'W', 'X', 'Y', 'Z',
  'a', 'b', 'c', 'd', 'e', 'f', 'g', 'h', 'i', 'j', 'k', 'l', 'm',
  'n', 'o', 'p', 'q', 'r', 's', 't', 'u', 'v', 'w', 'x', 'y', 'z',
  '0', '1', '2', '3', '4', '5', '6', '7', '8', '9',
  '-', '_'
]

def padding := '='

def digit (n : Nat) : Char :=
  alphabet.getD n padding

def value (c : Char) : Option Nat :=
  alphabet.idxOf? c

-- The groups of six bits of a sequence of bytes, where the last group is filled up with zeros.
def sextets : List UInt8 → List Nat
  | a :: b :: c :: bs =>
    a.toNat / 4 :: (a.toNat % 4 * 16 + b.toNat / 16) :: (b.toNat % 16 * 4 + c.toNat / 64) ::
      c.toNat % 64 :: sextets bs
  | [a, b]            => [a.toNat / 4, a.toNat % 4 * 16 + b.toNat / 16, b.toNat % 16 * 4]
  | [a]               => [a.toNat / 4, a.toNat % 4 * 16]
  | []                => []

-- The bytes that are made up by groups of six bits. A single group does not make up a byte.
def octets : List Nat → Option (List UInt8)
  | w :: x :: y :: z :: ss =>
    (octets ss).map fun bs =>
      .ofNat (w * 4 + x / 16) :: .ofNat (x % 16 * 16 + y / 4) :: .ofNat (y % 4 * 64 + z) :: bs
  | [w, x, y]              => some [.ofNat (w * 4 + x / 16), .ofNat (x % 16 * 16 + y / 4)]
  | [w, x]                 => some [.ofNat (w * 4 + x / 16)]
  | [_]                    => none
  | []                     => some []

-- `base64.urlsafe_b64encode`
def encode (bs : List UInt8) : List Char :=
  (sextets bs).map digit ++ .replicate ((3 - bs.length % 3) % 3) padding

-- `bytes.rstrip` with a single byte.
def rstrip (c : Char) (cs : List Char) : List Char :=
  (cs.reverse.dropWhile (· = c)).reverse

def encodeUnpadded (bs : List UInt8) : List Char :=
  rstrip padding (encode bs)

def decodeUnpadded (cs : List Char) : Option (List UInt8) :=
  (cs.mapM value).bind octets

theorem rstrip_append {c : Char} {cs : List Char} (h : c ∉ cs) (n : Nat) :
    rstrip c (cs ++ .replicate n c) = cs := by
  have hd : cs.reverse.dropWhile (· = c) = cs.reverse := by
    cases hr : cs.reverse
    case nil       => rfl
    case cons x xs =>
      have hx : x ∈ cs := List.mem_reverse.mp <| hr ▸ List.mem_cons_self
      exact List.dropWhile_cons_of_neg <| by simpa using fun he : x = c => h (he ▸ hx)
  rw [rstrip, List.reverse_append, List.reverse_replicate, List.dropWhile_append_of_pos, hd,
    List.reverse_reverse]
  simp

section Digits

theorem digit_mem {n : Nat} (h : n < 64) : digit n ∈ alphabet := by
  have ha : ∀ n < 64, digit n ∈ alphabet := by decide +kernel
  exact ha n h

theorem value_digit {n : Nat} (h : n < 64) : value (digit n) = some n := by
  have ha : ∀ n < 64, value (digit n) = some n := by decide +kernel
  exact ha n h

theorem mapM_value_digit {ss : List Nat} (h : ∀ s ∈ ss, s < 64) :
    (ss.map digit).mapM value = some ss := by
  induction ss
  case nil       => rfl
  case cons hi   =>
    rw [List.map_cons, List.mapM_cons, value_digit <| h _ List.mem_cons_self,
      hi fun s hs => h s <| List.mem_cons_of_mem _ hs]
    rfl

end Digits

theorem sextets_lt (bs : List UInt8) : ∀ s ∈ sextets bs, s < 64 := by
  induction bs using sextets.induct
  case case1 a b c bs hi =>
    have := a.toNat_lt
    have := b.toNat_lt
    have := c.toNat_lt
    simp only [sextets, List.forall_mem_cons]
    exact ⟨by omega, by omega, by omega, by omega, hi⟩
  case case2 a b         =>
    have := a.toNat_lt
    have := b.toNat_lt
    simp only [sextets, List.forall_mem_cons]
    exact ⟨by omega, by omega, by omega, List.forall_mem_nil _⟩
  case case3 a           =>
    have := a.toNat_lt
    simp only [sextets, List.forall_mem_cons]
    exact ⟨by omega, by omega, List.forall_mem_nil _⟩
  case case4             => exact List.forall_mem_nil _

theorem length_sextets (bs : List UInt8) : (sextets bs).length = (bs.length * 4 + 2) / 3 := by
  induction bs using sextets.induct
  case case1 hi => simp only [sextets, List.length_cons, hi]; omega
  all_goals simp [sextets]

theorem octets_sextets (bs : List UInt8) : octets (sextets bs) = some bs := by
  have byte {a : UInt8} {n : Nat} (h : n = a.toNat) : UInt8.ofNat n = a := h ▸ UInt8.ofNat_toNat
  induction bs using sextets.induct
  case case1 a b c bs hi =>
    have := b.toNat_lt
    have := c.toNat_lt
    simp only [sextets, octets, hi, Option.map_some]
    congr 1
    rw [byte (a := a) (by omega), byte (a := b) (by omega), byte (a := c) (by omega)]
  case case2 a b         =>
    have := b.toNat_lt
    simp only [sextets, octets]
    rw [byte (a := a) (by omega), byte (a := b) (by omega)]
  case case3 a           =>
    simp only [sextets, octets]
    rw [byte (a := a) (by omega)]
  case case4             => rfl

theorem encodeUnpadded_eq (bs : List UInt8) : encodeUnpadded bs = (sextets bs).map digit := by
  refine rstrip_append (fun h => ?_) _
  have ⟨s, hs, hd⟩ := List.mem_map.mp h
  exact absurd (hd ▸ digit_mem (sextets_lt bs s hs)) <| by decide +kernel

theorem encodeUnpadded_subset (bs : List UInt8) : encodeUnpadded bs ⊆ alphabet := by
  intro c hc
  rw [encodeUnpadded_eq] at hc
  have ⟨s, hs, hd⟩ := List.mem_map.mp hc
  exact hd ▸ digit_mem (sextets_lt bs s hs)

theorem length_encodeUnpadded (bs : List UInt8) :
    (encodeUnpadded bs).length = (bs.length * 4 + 2) / 3 := by
  rw [encodeUnpadded_eq, List.length_map, length_sextets]

theorem decodeUnpadded_encodeUnpadded (bs : List UInt8) :
    decodeUnpadded (encodeUnpadded bs) = some bs := by
  rw [decodeUnpadded, encodeUnpadded_eq, mapM_value_digit <| sextets_lt bs]
  exact octets_sextets bs

theorem encodeUnpadded_injective : Function.Injective encodeUnpadded :=
  fun bs bs' h => Option.some.inj <| by
    rw [←decodeUnpadded_encodeUnpadded bs, h, decodeUnpadded_encodeUnpadded]

end Base64
