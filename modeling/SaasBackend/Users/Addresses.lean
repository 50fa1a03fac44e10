import SaasBackend.Users.Serial

open Calendar ReadCommitted ReadCommitted.Service

namespace SaasBackend

namespace Text

variable {p : Platform} {before cs : List Char} {c : Char}

def isAscii (c : Char) : Bool :=
  c.toNat < 128

-- ASCII characters have the lower case that is expected.
theorem lowerChar_ascii : ∀ n : Fin 128, ∀ b, lowerChar b (.ofNat n) = [(Char.ofNat n).toLower] ∧
    isAscii (Char.ofNat n).toLower ∧ (Char.ofNat n).toLower.toLower = (Char.ofNat n).toLower := by
  decide +kernel

theorem lowerChar_of_isAscii (h : isAscii c) (b : Bool) :
    lowerChar b c = [c.toLower] ∧ isAscii c.toLower ∧ c.toLower.toLower = c.toLower := by
  have hc := lowerChar_ascii ⟨c.toNat, of_decide_eq_true h⟩ b
  rwa [Char.ofNat_toNat] at hc

theorem lowerFrom_of_isAscii (h : ∀ c ∈ cs, isAscii c) : lowerFrom p before cs = cs.map Char.toLower := by
  induction cs generalizing before
  case nil          => rfl
  case cons c cs hi =>
    rw [lowerFrom, (lowerChar_of_isAscii (h c List.mem_cons_self) _).left, List.map_cons]
    exact congrArg _ <| hi fun c hc => h c <| List.mem_cons_of_mem _ hc

theorem isAscii_map_toLower (h : ∀ c ∈ cs, isAscii c) : ∀ c ∈ cs.map Char.toLower, isAscii c := by
  intro c hc
  obtain ⟨c', hc', rfl⟩ := List.mem_map.mp hc
  exact (lowerChar_of_isAscii (h c' hc') true).right.left

theorem map_toLower_twice (h : ∀ c ∈ cs, isAscii c) :
    (cs.map Char.toLower).map Char.toLower = cs.map Char.toLower := by
  rw [List.map_map]
  exact List.map_congr_left fun c hc => (lowerChar_of_isAscii (h c hc) true).right.right

end Text

section Address

variable {p : Platform} {email email' : String}

-- Apart from the blanks around it, the address consists of ASCII characters.
structure IsAddress (email : String) : Prop where
  ascii : ∀ c ∈ (Text.strip email).toList, Text.isAscii c
  sign  : '@' ∈ (Text.strip email).toList

-- The addresses are equal up to the case of letters and the blanks around them.
def SameAddress (email email' : String) : Prop :=
  (Text.strip email).toList.map Char.toLower = (Text.strip email').toList.map Char.toLower

-- The database compares ASCII characters without regard to their case.
structure Platform.IgnoresCase (p : Platform) : Prop where
  iexact_iff : ∀ s t : String, (∀ c ∈ s.toList, Text.isAscii c) → (∀ c ∈ t.toList, Text.isAscii c) →
    (p.iexact s t ↔ s.toList.map Char.toLower = t.toList.map Char.toLower)

-- What is stored for a new user.
theorem lower_normalizeEmail (p : Platform) (h : IsAddress email) :
    (Text.lower p <| normalizeEmail p email).toList = (Text.strip email).toList.map Char.toLower := by
  obtain ⟨name, domain, he, hn⟩ := normalizeEmail_split p h.sign
  have hc : ∀ c ∈ name ++ '@' :: domain, Text.isAscii c := he ▸ h.ascii
  have hd : ∀ c ∈ domain, Text.isAscii c := fun c hm => hc c <| List.mem_append_right _ <| List.mem_cons_of_mem _ hm
  have hl : (Text.lower p <| .ofList domain).toList = domain.map Char.toLower := by
    rw [Text.lower, String.toList_ofList, String.toList_ofList, Text.lowerFrom_of_isAscii hd]
  have ha : ∀ c ∈ name ++ '@' :: domain.map Char.toLower, Text.isAscii c := by
    intro c hm
    rcases List.mem_append.mp hm with hm | hm
    · exact hc c <| List.mem_append_left _ hm
    · rcases List.mem_cons.mp hm with rfl | hm
      · rfl
      · exact Text.isAscii_map_toLower hd c hm
  rw [Text.lower, String.toList_ofList, hn, hl, Text.lowerFrom_of_isAscii ha, he, List.map_append, List.map_append,
    List.map_cons, List.map_cons, Text.map_toLower_twice hd]

-- A new user is found by each spelling of the address.
theorem Platform.IgnoresCase.iexact_stored (hp : p.IgnoresCase) (h : IsAddress email) (h' : IsAddress email')
    (hs : SameAddress email email') : p.iexact (Text.lower p <| normalizeEmail p email) (Text.strip email') := by
  have hl := lower_normalizeEmail p h
  refine (hp.iexact_iff _ _ ?_ h'.ascii).mpr ?_
  · rw [hl]
    exact Text.isAscii_map_toLower h.ascii
  · rw [hl, Text.map_toLower_twice h.ascii]
    exact hs

end Address
end SaasBackend
