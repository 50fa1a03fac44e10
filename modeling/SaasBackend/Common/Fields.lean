import SaasBackend.Common.Exceptions
import SaasBackend.Common.Lower

namespace SaasBackend

theorem except_bind_eq_ok {ε α β : Type} {x : Except ε α} {f : α → Except ε β} {b : β} :
    x >>= f = .ok b ↔ ∃ a, x = .ok a ∧ f a = .ok b := by
  cases x <;> simp [Bind.bind, Except.bind]

-- `rest_framework.serializers.CharField`
structure CharField where
  minLength  : Nat := 0
  maxLength  : Option Nat := none
  allowBlank : Bool := false

-- Values are trimmed. A blank one is not subject to other requirements.
def CharField.validate (f : CharField) (value : String) : Except Exn String :=
  let value := Text.strip value
  if value = "" then
    if f.allowBlank then .ok "" else .error .invalidInput
  else if value.length < f.minLength ∨ f.maxLength.any (· < value.length) ∨ '\x00' ∈ value.toList then
    .error .invalidInput
  else
    .ok value

theorem CharField.validate_eq_ok {f : CharField} {value value' : String}
    (h : f.validate value = .ok value') :
    value' = Text.strip value ∧ (f.allowBlank ∨ value' ≠ "") := by
  unfold validate at h
  simp only at h
  split at h
  case isTrue hs =>
    split at h
    case isTrue ha  => cases h; exact ⟨hs.symm, .inl ha⟩
    case isFalse    => cases h
  case isFalse hs =>
    split at h
    case isTrue   => cases h
    case isFalse  => cases h; exact ⟨rfl, .inr hs⟩

-- `rest_framework.serializers.EmailField`
def EmailField.validate (p : Platform) (value : String) : Except Exn String := do
  let value ← CharField.validate {} value
  if p.isEmail value then .ok value else .error .invalidInput

theorem EmailField.validate_eq_ok {p : Platform} {value value' : String}
    (h : validate p value = .ok value') : value' = Text.strip value ∧ value' ≠ "" := by
  have ⟨v, hv, h⟩ := except_bind_eq_ok.mp h
  have ⟨hs, hn⟩ := CharField.validate_eq_ok hv
  split at h
  case isTrue   => cases h; exact ⟨hs, hn.resolve_left nofun⟩
  case isFalse  => cases h

-- The rules for the strength of a password.
def validateStrongPassword (p : Platform) (password : String) : Except String Unit :=
  let cs := password.toList
  if password.length < 10 then
    .error "Password must be at least 10 characters."
  else if !cs.any (fun c => 'a' ≤ c && c ≤ 'z' || 'A' ≤ c && c ≤ 'Z') then
    .error "Password must contain a letter."
  else if !cs.any p.isDecimal then
    .error "Password must contain a digit."
  else if !cs.any (fun c => !(p.isAlnum c || c = '_') && !Text.isSpace c) then
    .error "Password must contain a special character."
  else
    .ok ()

end SaasBackend
