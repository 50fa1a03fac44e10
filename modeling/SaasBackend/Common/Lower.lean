import Mathlib
import SaasBackend.Common.Text

namespace SaasBackend

-- What is determined by the character properties that Python knows, by Django's validation of email
-- addresses, and by the case-insensitive comparisons of the database.
structure Platform where
  isCased         : Char → Bool
  isCaseIgnorable : Char → Bool
  isDecimal       : Char → Bool
  isAlnum         : Char → Bool
  isEmail         : String → Bool
  iexact          : String → String → Bool

namespace Text

-- The upper-case characters from `first` to `last`, of which there is one at each `step`. The lower
-- case of `first` is `image`, and the others follow at the same distances.
structure CaseRange where
  first : Nat
  last  : Nat
  step  : Nat
  image : Nat

namespace CaseRange

def contains (r : CaseRange) (n : Nat) : Bool :=
  r.first ≤ n ∧ n ≤ r.last ∧ (n - r.first) % r.step = 0

def apply (r : CaseRange) (n : Nat) : Nat :=
  r.image + (n - r.first)

-- The lower-case characters of `r` are not among the upper-case ones of `r'`, which may be in between
-- of them.
def avoids (r r' : CaseRange) : Bool :=
  r'.last < r.image ∨ r.image + (r.last - r.first) < r'.first ∨
  (r.first = r.last ∨ r.step = 2) ∧ r'.step = 2 ∧ (r.image + r'.first) % 2 = 1

theorem not_contains_apply {r r' : CaseRange} {n : Nat} (h : r.avoids r') (hn : r.contains n) :
    ¬r'.contains (r.apply n) := by
  intro hc
  have ⟨h₁, h₂, h₃⟩ := of_decide_eq_true hc
  have ⟨hn₁, hn₂, hn₃⟩ := of_decide_eq_true hn
  simp only [apply] at h₁ h₂ h₃
  rcases of_decide_eq_true h with h | h | ⟨h | h, h', hp⟩
  · omega
  · omega
  · rw [h'] at h₃
    omega
  · rw [h'] at h₃
    rw [h] at hn₃
    omega

end CaseRange

def caseRanges : List CaseRange := [
  ⟨65, 90, 1, 97⟩, ⟨192, 214, 1, 224⟩, ⟨216, 222, 1, 248⟩, ⟨256, 302, 2, 257⟩,
  ⟨306, 310, 2, 307⟩, ⟨313, 327, 2, 314⟩, ⟨330, 374, 2, 331⟩, ⟨376, 376, 1, 255⟩,
  ⟨377, 381, 2, 378⟩, ⟨385, 385, 1, 595⟩, ⟨386, 388, 2, 387⟩, ⟨390, 390, 1, 596⟩,
  ⟨391, 391, 1, 392⟩, ⟨393, 394, 1, 598⟩, ⟨395, 395, 1, 396⟩, ⟨398, 398, 1, 477⟩,
  ⟨399, 399, 1, 601⟩, ⟨400, 400, 1, 603⟩, ⟨401, 401, 1, 402⟩, ⟨403, 403, 1, 608⟩,
  ⟨404, 404, 1, 611⟩, ⟨406, 406, 1, 617⟩, ⟨407, 407, 1, 616⟩, ⟨408, 408, 1, 409⟩,
  ⟨412, 412, 1, 623⟩, ⟨413, 413, 1, 626⟩, ⟨415, 415, 1, 629⟩, ⟨416, 420, 2, 417⟩,
  ⟨422, 422, 1, 640⟩, ⟨423, 423, 1, 424⟩, ⟨425, 425, 1, 643⟩, ⟨428, 428, 1, 429⟩,
  ⟨430, 430, 1, 648⟩, ⟨431, 431, 1, 432⟩, ⟨433, 434, 1, 650⟩, ⟨435, 437, 2, 436⟩,
  ⟨439, 439, 1, 658⟩, ⟨440, 440, 1, 441⟩, ⟨444, 444, 1, 445⟩, ⟨452, 452, 1, 454⟩,
  ⟨453, 453, 1, 454⟩, ⟨455, 455, 1, 457⟩, ⟨456, 456, 1, 457⟩, ⟨458, 458, 1, 460⟩,
  ⟨459, 475, 2, 460⟩, ⟨478, 494, 2, 479⟩, ⟨497, 497, 1, 499⟩, ⟨498, 500, 2, 499⟩,
  ⟨502, 502, 1, 405⟩, ⟨503, 503, 1, 447⟩, ⟨504, 542, 2, 505⟩, ⟨544, 544, 1, 414⟩,
  ⟨546, 562, 2, 547⟩, ⟨570, 570, 1, 11365⟩, ⟨571, 571, 1, 572⟩, ⟨573, 573, 1, 410⟩,
  ⟨574, 574, 1, 11366⟩, ⟨577, 577, 1, 578⟩, ⟨579, 579, 1, 384⟩, ⟨580, 580, 1, 649⟩,
  ⟨581, 581, 1, 652⟩, ⟨582, 590, 2, 583⟩, ⟨880, 882, 2, 881⟩, ⟨886, 886, 1, 887⟩,
  ⟨895, 895, 1, 1011⟩, ⟨902, 902, 1, 940⟩, ⟨904, 906, 1, 941⟩, ⟨908, 908, 1, 972⟩,
  ⟨910, 911, 1, 973⟩, ⟨913, 929, 1, 945⟩, ⟨931, 939, 1, 963⟩, ⟨975, 975, 1, 983⟩,
  ⟨984, 1006, 2, 985⟩, ⟨1012, 1012, 1, 952⟩, ⟨1015, 1015, 1, 1016⟩, ⟨1017, 1017, 1, 1010⟩,
  ⟨1018, 1018, 1, 1019⟩, ⟨1021, 1023, 1, 891⟩, ⟨1024, 1039, 1, 1104⟩, ⟨1040, 1071, 1, 1072⟩,
  ⟨1120, 1152, 2, 1121⟩, ⟨1162, 1214, 2, 1163⟩, ⟨1216, 1216, 1, 1231⟩, ⟨1217, 1229, 2, 1218⟩,
  ⟨1232, 1326, 2, 1233⟩, ⟨1329, 1366, 1, 1377⟩, ⟨4256, 4293, 1, 11520⟩, ⟨4295, 4295, 1, 11559⟩,
  ⟨4301, 4301, 1, 11565⟩, ⟨5024, 5103, 1, 43888⟩, ⟨5104, 5109, 1, 5112⟩, ⟨7312, 7354, 1, 4304⟩,
  ⟨7357, 7359, 1, 4349⟩, ⟨7680, 7828, 2, 7681⟩, ⟨7838, 7838, 1, 223⟩, ⟨7840, 7934, 2, 7841⟩,
  ⟨7944, 7951, 1, 7936⟩, ⟨7960, 7965, 1, 7952⟩, ⟨7976, 7983, 1, 7968⟩, ⟨7992, 7999, 1, 7984⟩,
  ⟨8008, 8013, 1, 8000⟩, ⟨8025, 8031, 2, 8017⟩, ⟨8040, 8047, 1, 8032⟩, ⟨8072, 8079, 1, 8064⟩,
  ⟨8088, 8095, 1, 8080⟩, ⟨8104, 8111, 1, 8096⟩, ⟨8120, 8121, 1, 8112⟩, ⟨8122, 8123, 1, 8048⟩,
  ⟨8124, 8124, 1, 8115⟩, ⟨8136, 8139, 1, 8050⟩, ⟨8140, 8140, 1, 8131⟩, ⟨8152, 8153, 1, 8144⟩,
  ⟨8154, 8155, 1, 8054⟩, ⟨8168, 8169, 1, 8160⟩, ⟨8170, 8171, 1, 8058⟩, ⟨8172, 8172, 1, 8165⟩,
  ⟨8184, 8185, 1, 8056⟩, ⟨8186, 8187, 1, 8060⟩, ⟨8188, 8188, 1, 8179⟩, ⟨8486, 8486, 1, 969⟩,
  ⟨8490, 8490, 1, 107⟩, ⟨8491, 8491, 1, 229⟩, ⟨8498, 8498, 1, 8526⟩, ⟨8544, 8559, 1, 8560⟩,
  ⟨8579, 8579, 1, 8580⟩, ⟨9398, 9423, 1, 9424⟩, ⟨11264, 11311, 1, 11312⟩,
  ⟨11360, 11360, 1, 11361⟩, ⟨11362, 11362, 1, 619⟩, ⟨11363, 11363, 1, 7549⟩,
  ⟨11364, 11364, 1, 637⟩, ⟨11367, 11371, 2, 11368⟩, ⟨11373, 11373, 1, 593⟩,
  ⟨11374, 11374, 1, 625⟩, ⟨11375, 11375, 1, 592⟩, ⟨11376, 11376, 1, 594⟩,
  ⟨11378, 11378, 1, 11379⟩, ⟨11381, 11381, 1, 11382⟩, ⟨11390, 11391, 1, 575⟩,
  ⟨11392, 11490, 2, 11393⟩, ⟨11499, 11501, 2, 11500⟩, ⟨11506, 11506, 1, 11507⟩,
  ⟨42560, 42604, 2, 42561⟩, ⟨42624, 42650, 2, 42625⟩, ⟨42786, 42798, 2, 42787⟩,
  ⟨42802, 42862, 2, 42803⟩, ⟨42873, 42875, 2, 42874⟩, ⟨42877, 42877, 1, 7545⟩,
  ⟨42878, 42886, 2, 42879⟩, ⟨42891, 42891, 1, 42892⟩, ⟨42893, 42893, 1, 613⟩,
  ⟨42896, 42898, 2, 42897⟩, ⟨42902, 42920, 2, 42903⟩, ⟨42922, 42922, 1, 614⟩,
  ⟨42923, 42923, 1, 604⟩, ⟨42924, 42924, 1, 609⟩, ⟨42925, 42925, 1, 620⟩,
  ⟨42926, 42926, 1, 618⟩, ⟨42928, 42928, 1, 670⟩, ⟨42929, 42929, 1, 647⟩,
  ⟨42930, 42930, 1, 669⟩, ⟨42931, 42931, 1, 43859⟩, ⟨42932, 42946, 2, 42933⟩,
  ⟨42948, 42948, 1, 42900⟩, ⟨42949, 42949, 1, 642⟩, ⟨42950, 42950, 1, 7566⟩,
  ⟨42951, 42953, 2, 42952⟩, ⟨42960, 42960, 1, 42961⟩, ⟨42966, 42968, 2, 42967⟩,
  ⟨42997, 42997, 1, 42998⟩, ⟨65313, 65338, 1, 65345⟩, ⟨66560, 66599, 1, 66600⟩,
  ⟨66736, 66771, 1, 66776⟩, ⟨66928, 66938, 1, 66967⟩, ⟨66940, 66954, 1, 66979⟩,
  ⟨66956, 66962, 1, 66995⟩, ⟨66964, 66965, 1, 67003⟩, ⟨68736, 68786, 1, 68800⟩,
  ⟨71840, 71871, 1, 71872⟩, ⟨93760, 93791, 1, 93792⟩, ⟨125184, 125217, 1, 125218⟩
]

def findRange (c : Char) : Option CaseRange :=
  caseRanges.find? (·.contains c.toNat)

-- A capital sigma at the end of a word: it follows a cased character and does not precede one, where
-- some characters are skipped.
def isFinalSigma (p : Platform) (before after : List Char) : Bool :=
  (before.dropWhile p.isCaseIgnorable).head?.any p.isCased &&
  !(after.dropWhile p.isCaseIgnorable).head?.any p.isCased

def lowerChar (isFinal : Bool) (c : Char) : List Char :=
  if c = '\u03A3' then [if isFinal then '\u03C2' else '\u03C3']
  else if c = '\u0130' then ['i', '\u0307']
  else
    match findRange c with
    | some r => [.ofNat <| r.apply c.toNat]
    | none   => [c]

-- The characters before the current one are given in reverse.
def lowerFrom (p : Platform) (before : List Char) : List Char → List Char
  | []      => []
  | c :: cs => lowerChar (isFinalSigma p before cs) c ++ lowerFrom p (c :: before) cs

-- `str.lower()`
def lower (p : Platform) (s : String) : String :=
  .ofList <| lowerFrom p [] s.toList

section Lower

variable {p : Platform} {b : Bool} {c c' : Char} {before cs : List Char}

-- The characters that stay as they are.
def isLower (c : Char) : Bool :=
  findRange c = none ∧ c ≠ '\u0130'

theorem images_lower : ∀ r ∈ caseRanges, r.image + (r.last - r.first) < 0xD800 ∨
    0xDFFF < r.image ∧ r.image + (r.last - r.first) < 0x110000 := by
  decide +kernel

theorem images_avoid : ∀ r ∈ caseRanges, ∀ r' ∈ caseRanges, r.avoids r' := by
  decide +kernel

theorem images_ne : ∀ r ∈ caseRanges, 0x130 < r.image ∨ r.image + (r.last - r.first) < 0x130 := by
  decide +kernel

theorem toNat_ofNat {n : Nat} (h : n.isValidChar) : (Char.ofNat n).toNat = n := by
  rw [Char.ofNat, dif_pos h]
  rfl

theorem findRange_eq_some {r : CaseRange} (h : findRange c = some r) :
    r ∈ caseRanges ∧ r.contains c.toNat :=
  ⟨List.mem_of_find?_eq_some h, by simpa using List.find?_some h⟩

-- The lower case of a character is within the image of its range.
theorem toNat_image {r : CaseRange} (h : findRange c = some r) :
    (Char.ofNat <| r.apply c.toNat).toNat = r.apply c.toNat ∧ r.image ≤ r.apply c.toNat ∧
    r.apply c.toNat ≤ r.image + (r.last - r.first) := by
  have ⟨hr, hc⟩ := findRange_eq_some h
  have ⟨h₁, h₂, _⟩ := of_decide_eq_true hc
  have hi : r.image ≤ r.apply c.toNat := Nat.le_add_right ..
  have hl : r.apply c.toNat ≤ r.image + (r.last - r.first) :=
    Nat.add_le_add_left (Nat.sub_le_sub_right h₂ _) _
  refine ⟨toNat_ofNat ?_, hi, hl⟩
  cases images_lower r hr
  case inl h => exact .inl <| Nat.lt_of_le_of_lt hl h
  case inr h => exact .inr ⟨Nat.lt_of_lt_of_le h.left hi, Nat.lt_of_le_of_lt hl h.right⟩

theorem isLower_image {r : CaseRange} (h : findRange c = some r) :
    isLower <| .ofNat <| r.apply c.toNat := by
  have ⟨hr, hc⟩ := findRange_eq_some h
  have ⟨hn, hi, hl⟩ := toNat_image h
  refine decide_eq_true ⟨List.find?_eq_none.mpr fun r' hr' => ?_, fun he => ?_⟩
  · rw [hn]
    exact CaseRange.not_contains_apply (images_avoid r hr r' hr') hc
  · have he : r.apply c.toNat = 0x130 := hn.symm.trans <| congrArg Char.toNat he
    have := images_ne r hr
    omega

theorem isLower_of_mem_lowerChar (h : c' ∈ lowerChar b c) : isLower c' := by
  unfold lowerChar at h
  split at h
  case isTrue => cases b <;> cases List.mem_singleton.mp h <;> decide +kernel
  case isFalse =>
    split at h
    case isTrue => simp only [List.mem_cons, List.not_mem_nil, or_false] at h; cases h <;> subst c' <;> decide +kernel
    case isFalse hn =>
      split at h
      case h_1 hf => cases List.mem_singleton.mp h; exact isLower_image hf
      case h_2 hf => cases List.mem_singleton.mp h; exact decide_eq_true ⟨hf, hn⟩

theorem lowerChar_of_isLower (h : isLower c) : lowerChar b c = [c] := by
  have ⟨hf, hn⟩ := of_decide_eq_true h
  unfold lowerChar
  split
  case isTrue he => subst he; exact absurd hf (by decide +kernel)
  case isFalse   => simp only [hf]

theorem lowerFrom_of_isLower (h : ∀ c ∈ cs, isLower c) : lowerFrom p before cs = cs := by
  induction cs generalizing before
  case nil          => rfl
  case cons c cs hi =>
    rw [lowerFrom, lowerChar_of_isLower <| h c List.mem_cons_self]
    exact congrArg _ <| hi fun c hc => h c <| List.mem_cons_of_mem _ hc

theorem isLower_of_mem_lowerFrom (h : c ∈ lowerFrom p before cs) : isLower c := by
  induction cs generalizing before
  case nil          => cases h
  case cons c cs hi =>
    cases List.mem_append.mp h
    case inl h => exact isLower_of_mem_lowerChar h
    case inr h => exact hi h

theorem images_not_space : ∀ r ∈ caseRanges, ∀ s ∈ spaceRanges,
    s.2 < r.image ∨ r.image + (r.last - r.first) < s.1 := by
  decide +kernel

theorem not_isSpace_of_mem_lowerChar (hn : ¬isSpace c) (h : c' ∈ lowerChar b c) : ¬isSpace c' := by
  unfold lowerChar at h
  split at h
  case isTrue => cases b <;> cases List.mem_singleton.mp h <;> decide +kernel
  case isFalse =>
    split at h
    case isTrue =>
      simp only [List.mem_cons, List.not_mem_nil, or_false] at h
      cases h <;> subst c' <;> decide +kernel
    case isFalse =>
      split at h
      case h_2    => exact List.mem_singleton.mp h ▸ hn
      case h_1 hf =>
        intro hs
        have ⟨s, hm, h₁, h₂⟩ := isSpace_iff.mp <| List.mem_singleton.mp h ▸ hs
        have ⟨he, hi, hl⟩ := toNat_image hf
        have := images_not_space _ (findRange_eq_some hf).left s hm
        omega

theorem lowerChar_ne_nil (b : Bool) (c : Char) : lowerChar b c ≠ [] := by
  unfold lowerChar
  split
  case isTrue => simp
  case isFalse => split <;> (try split) <;> simp

-- The case of the first and the last character does not matter for trimming.
theorem isTrimmed_lowerFrom (h : IsTrimmed cs) : IsTrimmed (lowerFrom p before cs) := by
  constructor
  case head =>
    intro c hc
    cases cs
    case nil        => cases hc
    case cons d ds  =>
      rw [lowerFrom, List.head?_append_of_ne_nil _ <| lowerChar_ne_nil _ _] at hc
      exact not_isSpace_of_mem_lowerChar (h.head d rfl) <| List.mem_of_head? hc
  case last =>
    intro c hc
    have hl := h.last
    clear h
    induction cs generalizing before
    case nil          => cases hc
    case cons d ds hi =>
      rw [lowerFrom] at hc
      cases ds
      case nil =>
        rw [lowerFrom, List.append_nil] at hc
        exact not_isSpace_of_mem_lowerChar (hl d rfl) <| List.mem_of_getLast? hc
      case cons d' ds =>
        rw [List.getLast?_append_of_ne_nil] at hc
        case x => simp [lowerFrom, lowerChar_ne_nil]
        exact hi hc hl

theorem isTrimmed_lower {s : String} (h : IsTrimmed s.toList) : IsTrimmed (lower p s).toList := by
  rw [lower, String.toList_ofList]
  exact isTrimmed_lowerFrom h

theorem isLower_of_mem_lower {s : String} (h : c ∈ (lower p s).toList) : isLower c := by
  rw [lower, String.toList_ofList] at h
  exact isLower_of_mem_lowerFrom h

theorem lower_of_isLower {s : String} (h : ∀ c ∈ s.toList, isLower c) : lower p s = s := by
  rw [lower, lowerFrom_of_isLower h, String.ofList_toList]

end Lower
end Text

-- The platform as far as ASCII characters are concerned, with a plain form of email addresses.
def Platform.ascii : Platform where
  isCased c         := c.isAlpha
  isCaseIgnorable c := c ∈ ['\x27', '.', ':', '^', '\x60']
  isDecimal c       := c.isDigit
  isAlnum c         := c.isAlphanum
  iexact s t        := s.toList.map Char.toLower = t.toList.map Char.toLower
  isEmail s         :=
    match Text.split '@' s.toList with
    | [name, domain] => name ≠ [] ∧ '.' ∈ domain ∧ (name ++ domain).all fun c => c.isAlphanum || c = '.'
    | _              => false

end SaasBackend
