import SaasBackend.Authentication.Serial
import SaasBackend.Users.Serial

open Calendar ReadCommitted ReadCommitted.Service

namespace SaasBackend

open Service

section Maintains

variable {I : Database → Database → Prop} [Std.Refl I] [IsTrans Database I]

section Users

variable (hu : ∀ d u u', User.SameAccount u u' → Accepts d ⟨some <| .user u, .user u'⟩ →
  I d (d.put <| .user u'))

include hu

theorem updateProfile_maintains (user : User) (firstName lastName : Option String) :
    (updateProfile user firstName lastName).Maintains I :=
  Maintains.bind (Maintains.save (fun _ => rfl) fun d _ => hu d _ _ rfl) fun _ => Maintains.pure _

omit [IsTrans Database I] in
theorem changePassword_maintains (user : User) (currentPassword newPassword : String) :
    (changePassword user currentPassword newPassword).Maintains I := by
  unfold changePassword
  split
  case isTrue   => exact Maintains.raise _
  case isFalse  => exact Maintains.save (fun _ => rfl) fun d _ => hu d _ _ rfl

end Users

variable (ht : ∀ d t, I d (d.put <| .resetToken t))

include ht

theorem requestPasswordReset_maintains (p : Platform) (email : String) (i : TokenIssue) :
    (requestPasswordReset p email i).Maintains I := by
  apply Maintains.bind (Maintains.select _)
  intro user
  cases user
  case none   => exact Maintains.pure _
  case some u =>
    simp only
    split
    case isTrue   => exact Maintains.pure _
    case isFalse  =>
      exact Maintains.bind (Maintains.ofExcept _) fun _ =>
        Maintains.bind (Maintains.create fun d _ => ht d _) fun _ => Maintains.select _

theorem useOtherTokens_maintains (t : PasswordResetToken) (user : Uuid) (usedAt : Instant) :
    (execute <| useOtherTokens t user usedAt : Service Unit).Maintains I := by
  apply Maintains.execute
  intro d _
  apply Store.applyAll_related
  intro w hw d'
  have ⟨r, _, he⟩ := List.mem_map.mp hw
  subst he
  exact ht d' _

theorem confirmPasswordReset_maintains
    (hu : ∀ d u u', User.SameAccount u u' → Accepts d ⟨some <| .user u, .user u'⟩ →
      I d (d.put <| .user u'))
    (token newPassword : String) (now usedAt : Instant) :
    (confirmPasswordReset token newPassword now usedAt).Maintains I := by
  apply Maintains.atomic
  apply Maintains.bind (Maintains.select _)
  intro found
  cases found
  case none   => exact Maintains.raise _
  case some c =>
    simp only
    split
    case isTrue   => exact Maintains.raise _
    case isFalse  =>
      refine Maintains.bind (Maintains.save (fun _ => rfl) fun d _ => hu d _ _ rfl) fun _ => ?_
      refine Maintains.bind (Maintains.save (fun _ => rfl) fun d _ _ => ht d _) fun _ => ?_
      exact Maintains.bind (useOtherTokens_maintains ht ..) fun _ => Maintains.pure _

end Maintains

variable {p : Platform} {d d' : Database} {email password firstName lastName token : String}
  {e : Enrollment} {i : TokenIssue} {now usedAt : Instant} {user : Uuid} {u : User}

theorem createVerificationToken_run_eq_ok {m : Message}
    (h : (createVerificationToken user i).run d = (.ok m, d')) :
    m = ⟨.emailVerification, user, i.token⟩ ∧ ∃ exp,
      Accepts d (⟨none, .verificationToken <| newToken _ user i exp⟩ : Write) ∧
      d' = d.put (.verificationToken <| newToken _ user i exp) := by
  have ⟨exp, d₁, h₁, h⟩ := run_bind_eq_ok.mp h
  have ⟨_, d₂, h₂, h⟩ := run_bind_eq_ok.mp h
  cases h
  have ⟨_, hd⟩ := run_ofExcept_eq_ok.mp h₁
  subst hd
  exact ⟨rfl, exp, run_create_eq_ok h₂⟩

theorem issueVerificationToken_run_eq_ok (h : (issueVerificationToken user i).run d = (.ok token, d')) :
    token = i.token ∧ ∃ exp,
      Accepts d (⟨none, .verificationToken <| newToken _ user i exp⟩ : Write) ∧
      d' = d.put (.verificationToken <| newToken _ user i exp) := by
  have ⟨m, d₁, h₁, h⟩ := run_bind_eq_ok.mp h
  have ⟨_, d₂, h₂, h⟩ := run_bind_eq_ok.mp h
  have ⟨hm, he⟩ := createVerificationToken_run_eq_ok h₁
  cases h
  cases h₂
  exact ⟨congrArg Message.token hm, he⟩

theorem issueVerificationToken_run_eq_error {x : Exn}
    (h : (issueVerificationToken user i).run d = (.error x, d')) : d' = d := by
  cases run_bind_eq_error.mp h
  case inr h =>
    have ⟨_, _, _, h⟩ := h
    cases h
  case inl h =>
    cases run_bind_eq_error.mp h
    case inl h => exact run_ofExcept_eq_error h
    case inr h =>
      have ⟨_, _, he, h⟩ := h
      have ⟨_, hd⟩ := run_ofExcept_eq_ok.mp he
      subst hd
      cases run_bind_eq_error.mp h
      case inl h => exact run_create_eq_error h
      case inr h =>
        have ⟨_, _, _, h⟩ := h
        cases h

theorem registerUser_run_eq_ok
    (h : (registerUser p email password firstName lastName e i).run d = (.ok u, d')) :
    u = UserManager.newUser p email password (Text.strip firstName) (Text.strip lastName) .customer e.id ∧
    (Row.user u).fits ∧ Accepts d (⟨none, .user u⟩ : Write) ∧ getUserByEmail p d email = none ∧
    ∃ exp d₁, OnlyBills (d.put <| .user u) d₁ ∧
      Accepts d₁ (⟨none, .verificationToken <| newToken _ u.id i exp⟩ : Write) ∧
      d' = d₁.put (.verificationToken <| newToken _ u.id i exp) := by
  have ⟨u', d₁, h₁, h⟩ := run_bind_eq_ok.mp <| run_atomic_eq_ok.mp h
  have ⟨_, d₂, h₂, h⟩ := run_bind_eq_ok.mp h
  cases h
  have ⟨hu, hf, ha, hn, hd⟩ := createUser_run_eq_ok h₁
  have ⟨_, exp, ht, hd'⟩ := issueVerificationToken_run_eq_ok h₂
  exact ⟨hu, hf, ha, hn, exp, d₁, hd, ht, hd'⟩

theorem findVerificationToken_eq_some {hash : Sha256} {t : EmailVerificationToken}
    (h : findVerificationToken d hash = some (t, u)) :
    t ∈ d.verificationTokens ∧ t.tokenHash = hash ∧ u ∈ d.users ∧ u.id = t.userId := by
  obtain ⟨t', ht', h⟩ := List.exists_of_findSome?_eq_some h
  split at h
  case isFalse    => cases h
  case isTrue hh  =>
    obtain ⟨u', hl, h⟩ := Option.map_eq_some_iff.mp h
    obtain ⟨hu, hk⟩ := Table.lookup_eq_some.mp hl
    cases h
    exact ⟨ht', hh, hu, Key.user.inj hk⟩

theorem useVerificationToken_run_eq_ok {t : EmailVerificationToken} (ht : t ∈ d.verificationTokens)
    (hu : u ∈ d.users) (h : (useVerificationToken t u usedAt).run d = (.ok (), d')) :
    d' = (d.put <| .verificationToken { t with usedAt := some usedAt }).put
      (.user { u with isVerified := true }) := by
  have ⟨_, d₁, h₁, h⟩ := run_bind_eq_ok.mp <| run_atomic_eq_ok.mp h
  have ⟨t', ht', hk, hd⟩ := run_save_eq_ok h₁
  rw [Table.eq_of_key ht' ht hk] at hd
  subst hd
  split at h
  case isTrue =>
    have ⟨u', hu', hk, hd⟩ := run_save_eq_ok h
    rw [hd, Table.eq_of_key hu' hu hk]
  case isFalse hv =>
    cases h
    have hv : { u with isVerified := true } = u := by
      cases u
      simpa using hv
    let used := d.put <| .verificationToken { t with usedAt := some usedAt }
    have hm : .user u ∈ used.rows := Database.user_mem_rows.mpr hu
    rw [hv]
    exact (Database.put_of_mem hm).symm

-- A token verifies the user that it belongs to.
theorem verifyEmail_run_eq_ok (h : (verifyEmail token now usedAt).run d = (.ok u, d')) :
    ∃ t u₀, findVerificationToken d (hashToken token) = some (t, u₀) ∧ t.isValid now ∧
      u = { u₀ with isVerified := true } ∧
      d' = (d.put <| .verificationToken { t with usedAt := some usedAt }).put (.user u) := by
  have ⟨found, d₁, h₁, h⟩ := run_bind_eq_ok.mp h
  have ⟨hf, hd⟩ := run_select_eq_ok.mp h₁
  subst hd
  cases found
  case none   => cases h
  case some c =>
    obtain ⟨t, u₀⟩ := c
    have ⟨ht, _, hu, _⟩ := findVerificationToken_eq_some hf
    simp only at h
    split at h
    case isTrue     => cases h
    case isFalse hv =>
      have ⟨_, d₂, h₂, h⟩ := run_bind_eq_ok.mp h
      cases h
      exact ⟨t, u₀, hf, by simpa using hv, rfl, useVerificationToken_run_eq_ok ht hu h₂⟩

theorem verifyEmail_run_eq_error {x : Exn} (h : (verifyEmail token now usedAt).run d = (.error x, d')) :
    d' = d := by
  cases run_bind_eq_error.mp h
  case inl h => cases h
  case inr h =>
    have ⟨found, d₁, h₁, h⟩ := h
    have ⟨_, hd⟩ := run_select_eq_ok.mp h₁
    subst hd
    cases found
    case none   => cases h; rfl
    case some c =>
      simp only at h
      split at h
      case isTrue   => cases h; rfl
      case isFalse  =>
        cases run_bind_eq_error.mp h
        case inl h => exact run_atomic_eq_error h
        case inr h =>
          have ⟨_, _, _, h⟩ := h
          cases h

-- The account to which a further token is sent.
def unverifiedUser (p : Platform) (d : Database) (email : String) : Option User :=
  (getUserByEmail p d email).filter (!·.isVerified)

theorem resendVerification_run (p : Platform) (email : String) (i : TokenIssue) (d : Database) :
    (resendVerification p email i).run d =
      match unverifiedUser p d email with
      | none   => (.ok (), d)
      | some u => (do let _ ← issueVerificationToken u.id i; return ()).run d := by
  rw [resendVerification, run_bind, run_select, unverifiedUser]
  cases getUserByEmail p d email
  case none   => rfl
  case some u => cases hv : u.isVerified <;> simp [hv, Option.filter_some]

theorem resendVerification_run_eq_error {x : Exn}
    (h : (resendVerification p email i).run d = (.error x, d')) : d' = d := by
  rw [resendVerification_run] at h
  split at h
  case h_1 => cases h
  case h_2 =>
    cases run_bind_eq_error.mp h
    case inl h => exact issueVerificationToken_run_eq_error h
    case inr h =>
      have ⟨_, _, _, h⟩ := h
      cases h

end SaasBackend
