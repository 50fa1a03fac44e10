import SaasBackend.Authentication.Enumeration

open Calendar ReadCommitted

namespace SaasBackend

open Service

-- The field for a new password, and its validation, in all of the serializers which have one.
def NewPasswordField.validate (p : Platform) (value : String) : Except Exn String := do
  let value ← CharField.validate { minLength := 10 } value
  RegistrationSerializer.validatePassword p value

structure ChangePasswordData where
  currentPassword : String
  newPassword     : String

def ChangePasswordSerializer.validate (p : Platform) (data : ChangePasswordData) :
    Except Exn ChangePasswordData := do
  let currentPassword ← CharField.validate {} data.currentPassword
  let newPassword     ← NewPasswordField.validate p data.newPassword
  return ⟨currentPassword, newPassword⟩

def ChangePasswordView.post (p : Platform) (user : User) (data : ChangePasswordData) : Service Response := do
  let data ← ofExcept <| ChangePasswordSerializer.validate p data
  changePassword user data.currentPassword data.newPassword
  return success none "Password changed."

structure PasswordResetData where
  token       : String
  newPassword : String

def PasswordResetConfirmSerializer.validate (p : Platform) (data : PasswordResetData) :
    Except Exn PasswordResetData := do
  let token       ← CharField.validate {} data.token
  let newPassword ← NewPasswordField.validate p data.newPassword
  return ⟨token, newPassword⟩

def PasswordResetConfirmView.post (p : Platform) (data : PasswordResetData) (now usedAt : Instant) :
    Service Response := do
  let data ← ofExcept <| PasswordResetConfirmSerializer.validate p data
  let _ ← confirmPasswordReset data.token data.newPassword now usedAt
  return success none "Password updated."

-- What is demanded of a new password, and done with it, before it is stored.
structure IsStrong (p : Platform) (password : String) : Prop where
  trimmed : Text.strip password = password
  length  : 10 ≤ password.length
  letter  : ∃ c ∈ password.toList, 'a' ≤ c ∧ c ≤ 'z' ∨ 'A' ≤ c ∧ c ≤ 'Z'
  digit   : ∃ c ∈ password.toList, p.isDecimal c
  special : ∃ c ∈ password.toList, ¬p.isAlnum c ∧ c ≠ '_' ∧ ¬Text.isSpace c

variable {p : Platform} {value value' : String}

theorem validatePassword_eq_ok (h : RegistrationSerializer.validatePassword p value = .ok value') :
    value' = value ∧ validateStrongPassword p value = .ok () := by
  unfold RegistrationSerializer.validatePassword at h
  split at h
  case h_1 hv => cases h; exact ⟨rfl, hv⟩
  case h_2    => cases h

theorem isStrong_of_validate (ht : Text.strip value = value) (h : validateStrongPassword p value = .ok ()) :
    IsStrong p value := by
  unfold validateStrongPassword at h
  simp only at h
  split at h
  case isTrue         => cases h
  case isFalse hl     =>
    split at h
    case isTrue       => cases h
    case isFalse ha   =>
      split at h
      case isTrue     => cases h
      case isFalse hd =>
        split at h
        case isTrue       => cases h
        case isFalse hs   =>
          exact {
            trimmed := ht
            length  := not_lt.mp hl
            letter  := by simpa [or_iff_not_imp_left] using ha
            digit   := by simpa using hd
            special := by simpa [and_assoc] using hs
          }

theorem NewPasswordField.validate_eq_ok (h : validate p value = .ok value') :
    value' = Text.strip value ∧ IsStrong p value' := by
  have ⟨v, hv, h⟩ := except_bind_eq_ok.mp h
  have ⟨he, hs⟩ := validatePassword_eq_ok h
  have ht := (CharField.validate_eq_ok hv).left
  subst he ht
  exact ⟨rfl, isStrong_of_validate (Text.strip_of_isTrimmed <| Text.isTrimmed_strip _) hs⟩

theorem RegistrationSerializer.isStrong_of_validate {data valid : RegistrationData}
    (h : validate p data = .ok valid) : IsStrong p valid.password := by
  have ⟨_, _, h⟩ := except_bind_eq_ok.mp h
  have ⟨password, hp, h⟩ := except_bind_eq_ok.mp h
  have ⟨password', hv, h⟩ := except_bind_eq_ok.mp h
  have ⟨_, _, h⟩ := except_bind_eq_ok.mp h
  have ⟨_, _, h⟩ := except_bind_eq_ok.mp h
  have hn : NewPasswordField.validate p data.password = .ok password' :=
    except_bind_eq_ok.mpr ⟨password, hp, hv⟩
  exact Except.ok.inj h ▸ (NewPasswordField.validate_eq_ok hn).right

theorem ChangePasswordSerializer.isStrong_of_validate {data valid : ChangePasswordData}
    (h : validate p data = .ok valid) : IsStrong p valid.newPassword := by
  have ⟨_, _, h⟩ := except_bind_eq_ok.mp h
  have ⟨_, hn, h⟩ := except_bind_eq_ok.mp h
  exact Except.ok.inj h ▸ (NewPasswordField.validate_eq_ok hn).right

theorem PasswordResetConfirmSerializer.isStrong_of_validate {data valid : PasswordResetData}
    (h : validate p data = .ok valid) : IsStrong p valid.newPassword := by
  have ⟨_, _, h⟩ := except_bind_eq_ok.mp h
  have ⟨_, hn, h⟩ := except_bind_eq_ok.mp h
  exact Except.ok.inj h ▸ (NewPasswordField.validate_eq_ok hn).right

end SaasBackend
