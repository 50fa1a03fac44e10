import SaasBackend.ApiKeys.Lookup
import SaasBackend.Authentication.Accounts
import SaasBackend.Authentication.Resets
import SaasBackend.Authentication.Serial
import SaasBackend.Deployment.Operations

open Calendar ReadCommitted ReadCommitted.Service

namespace SaasBackend

open Service

section Refused

variable {d : Database} {t : RefreshToken} {token : String}

theorem refresh_run_of_blacklisted (h : RefreshToken.isBlacklisted t.jti d) (jti : String) (now : Instant)
    (days : Nat) : (RefreshView.post (some t) jti now days).run d = (.error .invalidToken, d) := by
  have hr : (RefreshToken.rotate (some t) jti now days).run d = (.error .tokenError, d) := by
    refine run_bind_of_error _ ?_
    rw [RefreshToken.verify_run, if_neg fun hn => hn.right h]
  rw [RefreshView.post, run_handle, hr]
  rfl

theorem logout_run_of_blacklisted (h : RefreshToken.isBlacklisted t.jti d) (now revokedAt : Instant) :
    (logout (some t) now revokedAt).run d =
      (.error <| .authenticationFailed "Invalid refresh token." "invalid_refresh_token", d) := by
  refine run_bind_of_error _ ?_
  rw [run_handle, RefreshToken.verify_run, if_neg fun hn => hn.right h]
  rfl

theorem resetToken_eq_of_hash (hd : Indexed d) {t₁ t₂ : PasswordResetToken} (h₁ : t₁ ∈ d.resetTokens)
    (h₂ : t₂ ∈ d.resetTokens) (h : t₁.tokenHash = t₂.tokenHash) : t₁ = t₂ := by
  refine Row.resetToken.inj <| hd _ (Database.resetToken_mem_rows.mpr h₁) _
    (Database.resetToken_mem_rows.mpr h₂) (.tokenHash .passwordReset t₁.tokenHash) ?_ ?_
  · exact List.mem_singleton.mpr rfl
  · exact List.mem_singleton.mpr <| by rw [h]

theorem verificationToken_eq_of_hash (hd : Indexed d) {t₁ t₂ : EmailVerificationToken}
    (h₁ : t₁ ∈ d.verificationTokens) (h₂ : t₂ ∈ d.verificationTokens)
    (h : t₁.tokenHash = t₂.tokenHash) : t₁ = t₂ := by
  refine Row.verificationToken.inj <| hd _ (Database.verificationToken_mem_rows.mpr h₁) _
    (Database.verificationToken_mem_rows.mpr h₂) (.tokenHash .emailVerification t₁.tokenHash) ?_ ?_
  · exact List.mem_singleton.mpr rfl
  · exact List.mem_singleton.mpr <| by rw [h]

theorem apiKey_eq_of_hash (hd : Indexed d) {k₁ k₂ : APIKey} (h₁ : k₁ ∈ d.apiKeys) (h₂ : k₂ ∈ d.apiKeys)
    (h : k₁.keyHash = k₂.keyHash) : k₁ = k₂ := by
  refine Row.apiKey.inj <| hd _ (Database.apiKey_mem_rows.mpr h₁) _ (Database.apiKey_mem_rows.mpr h₂)
    (.keyHash k₁.keyHash) ?_ ?_
  · exact List.mem_singleton.mpr rfl
  · exact List.mem_singleton.mpr <| by rw [h]

theorem Token.not_isValid_of_used {kind : TokenKind} {t : Token kind} (h : t.usedAt.isSome) (now : Instant) :
    t.isValid now = false := by
  have hn : t.usedAt ≠ none := Option.isSome_iff_ne_none.mp h
  simp [Token.isValid, hn]

theorem confirmPasswordReset_run_of_used (hd : Indexed d) {r : PasswordResetToken} (hr : r ∈ d.resetTokens)
    (hu : r.usedAt.isSome) (ht : hashToken token = r.tokenHash) (newPassword : String)
    (now usedAt : Instant) :
    (confirmPasswordReset token newPassword now usedAt).run d = (.error invalidResetToken, d) := by
  rw [confirmPasswordReset, run_atomic, run_bind, run_select]
  cases hf : findResetToken d (hashToken token)
  case none       => rfl
  case some found =>
    obtain ⟨r', u⟩ := found
    have ⟨hm, hh, _⟩ := findResetToken_eq_some hf
    have he : r' = r := resetToken_eq_of_hash hd hm hr <| hh.trans ht
    have hv : r'.isValid now = false := Token.not_isValid_of_used (he ▸ hu) now
    simp [hv]

theorem verifyEmail_run_of_used (hd : Indexed d) {r : EmailVerificationToken}
    (hr : r ∈ d.verificationTokens) (hu : r.usedAt.isSome) (ht : hashToken token = r.tokenHash)
    (now usedAt : Instant) : (verifyEmail token now usedAt).run d = (.error invalidVerificationToken, d) := by
  rw [verifyEmail, run_bind, run_select]
  cases hf : findVerificationToken d (hashToken token)
  case none       => rfl
  case some found =>
    obtain ⟨r', u⟩ := found
    have ⟨hm, hh, _⟩ := findVerificationToken_eq_some hf
    have he : r' = r := verificationToken_eq_of_hash hd hm hr <| hh.trans ht
    have hv : r'.isValid now = false := Token.not_isValid_of_used (he ▸ hu) now
    simp [hv]

-- A request that carries the plaintext of a revoked key is not accepted.
theorem authenticate_run_of_revoked (hd : Indexed d) {k : APIKey} (hk : k ∈ d.apiKeys)
    (hr : k.revokedAt.isSome) {request : HttpRequest} {plaintext : String}
    (hp : APIKeyAuthentication.extractKey request = .ok (some plaintext))
    (hh : computeHash plaintext = k.keyHash) (now : Instant) (x : User × APIKey) :
    ((APIKeyAuthentication.authenticate request now).run d).fst ≠ .ok (some x) := by
  intro h
  obtain ⟨u, k'⟩ := x
  have ⟨p, he, hc, hk', _⟩ := APIKeyAuthentication.authenticate_run_eq_ok (Prod.ext h rfl)
  cases hp.symm.trans he
  have ⟨hm, _, hn, _⟩ := APIKeyAuthentication.mem_candidates.mp hc
  have he : k' = k := apiKey_eq_of_hash hd hm hk <| hk'.trans hh
  rw [←he, hn] at hr
  cases hr

end Refused

theorem imp_of_toNat_le {b b' : Bool} (h : b.toNat ≤ b'.toNat) (hb : b) : b' := by
  cases b' <;> simp_all

namespace Row.Precedes

variable {S : Uuid → String → Prop} {r' : Row}

theorem apiKey {k : APIKey} (h : (Row.apiKey k).Precedes S r') :
    ∃ k', r' = .apiKey k' ∧ k'.keyHash = k.keyHash ∧ (k.revokedAt.isSome → k'.revokedAt.isSome) := by
  have ho := h.origin
  cases r' <;> simp only [Row.origin, reduceCtorEq] at ho
  case apiKey k' =>
    have hh := congrArg APIKey.keyHash <| Row.apiKey.inj ho
    exact ⟨k', rfl, hh, imp_of_toNat_le h.progress⟩

theorem resetToken {t : PasswordResetToken} (h : (Row.resetToken t).Precedes S r') :
    ∃ t' : PasswordResetToken, r' = .resetToken t' ∧ t'.userId = t.userId ∧ t'.tokenHash = t.tokenHash ∧
      t'.expiresAt = t.expiresAt ∧ (t.usedAt.isSome → t'.usedAt.isSome) := by
  have ho := h.origin
  cases r' <;> simp only [Row.origin, reduceCtorEq] at ho
  case resetToken t' =>
    have ho := Row.resetToken.inj ho
    have hu := congrArg Token.userId ho
    have hh := congrArg Token.tokenHash ho
    have he := congrArg Token.expiresAt ho
    exact ⟨t', rfl, hu, hh, he, imp_of_toNat_le h.progress⟩

theorem verificationToken {t : EmailVerificationToken} (h : (Row.verificationToken t).Precedes S r') :
    ∃ t' : EmailVerificationToken, r' = .verificationToken t' ∧ t'.tokenHash = t.tokenHash ∧
      (t.usedAt.isSome → t'.usedAt.isSome) := by
  have ho := h.origin
  cases r' <;> simp only [Row.origin, reduceCtorEq] at ho
  case verificationToken t' =>
    have hh := congrArg Token.tokenHash <| Row.verificationToken.inj ho
    exact ⟨t', rfl, hh, imp_of_toNat_le h.progress⟩

theorem blacklistedToken {t : BlacklistedToken} (h : (Row.blacklistedToken t).Precedes S r') :
    r' = .blacklistedToken t := by
  have ho := h.origin
  cases r' <;> simp only [Row.origin, reduceCtorEq] at ho
  exact ho

theorem user {u' : User} {r : Row} (h : r.Precedes S (.user u')) :
    ∃ u, r = .user u ∧ u'.email = u.email ∧ u'.role = u.role ∧ u'.isActive = u.isActive ∧
      (u.isVerified → u'.isVerified) ∧ (u'.password = u.password ∨ S u'.id u'.password.plaintext) := by
  have ho := h.origin
  cases r <;> simp only [Row.origin, reduceCtorEq] at ho
  case user u =>
    have ho := Row.user.inj ho
    have he := congrArg User.email ho
    have hr := congrArg User.role ho
    have ha := congrArg User.isActive ho
    refine ⟨u, rfl, he, hr, ha, imp_of_toNat_le h.progress, ?_⟩
    exact h.password.imp_left Option.some.inj

end Row.Precedes

section Runs

variable {ι : Type} [Fintype ι] [DecidableEq ι]

-- The backend while operations are performed concurrently.
def operating (p : Platform) (d : Database) (os : ι → Operation) : Backend ι Unit :=
  .start d fun i => (os i).service p

theorem operating_evolves (p : Platform) (d : Database) (os : ι → Operation) (as bs : List (Action ι Exn)) :
    Evolves (Row.IsFresh fun _ => IsStrong p) (Row.Precedes fun _ => IsStrong p) ((operating p d os).run as).db
      ((operating p d os).run (as ++ bs)).db :=
  System.Issues.run_evolves (fun _ hw => hw) (fun i => (os i).evolves p) d as bs

-- Whatever is performed concurrently, no row is ever removed, and none goes back.
theorem records_only_advance (p : Platform) (d : Database) (os : ι → Operation) (as bs : List (Action ι Exn))
    (r : Row) (hr : r ∈ ((operating p d os).run as).db.rows) :
    ∃ r' ∈ ((operating p d os).run (as ++ bs)).db.rows,
      r'.key = r.key ∧ r'.origin = r.origin ∧ r.progress ≤ r'.progress :=
  have ⟨r', hm, hk, ho, hp, _⟩ := (operating_evolves p d os as bs).later r hr
  ⟨r', hm, hk, ho, hp⟩

-- What a committed state says about credentials that are not to be accepted anymore.
structure RefusesEnded (d d' : Database) : Prop where
  keys          : ∀ k ∈ d.apiKeys, k.revokedAt.isSome → ∀ request plaintext,
                    APIKeyAuthentication.extractKey request = .ok (some plaintext) →
                    computeHash plaintext = k.keyHash → ∀ now x,
                    ((APIKeyAuthentication.authenticate request now).run d').fst ≠ .ok (some x)
  refreshTokens : ∀ t : RefreshToken, RefreshToken.isBlacklisted t.jti d →
                    (∀ jti now days,
                      (RefreshView.post (some t) jti now days).run d' = (.error .invalidToken, d')) ∧
                    ∀ now revokedAt, ∃ e, (SaasBackend.logout (some t) now revokedAt).run d' = (.error e, d')
  resetTokens   : ∀ t ∈ d.resetTokens, t.usedAt.isSome → ∀ token, hashToken token = t.tokenHash →
                    ∀ newPassword now usedAt, (confirmPasswordReset token newPassword now usedAt).run d' =
                      (.error invalidResetToken, d')
  verifyTokens  : ∀ t ∈ d.verificationTokens, t.usedAt.isSome → ∀ token, hashToken token = t.tokenHash →
                    ∀ now usedAt, (verifyEmail token now usedAt).run d' = (.error invalidVerificationToken, d')

theorem RefusesEnded.of_evolves {d d' : Database} (hd : Indexed d') {p : Platform}
    (h : Evolves (Row.IsFresh fun _ => IsStrong p) (Row.Precedes fun _ => IsStrong p) d d') :
    RefusesEnded d d' where
  keys k hk hr request plaintext hp hh now x := by
    have ⟨_, hm, _, hl⟩ := h.later _ <| Database.apiKey_mem_rows.mpr hk
    have ⟨k', he, hk', hr'⟩ := hl.apiKey
    have hm : k' ∈ d'.apiKeys := Database.apiKey_mem_rows.mp <| he ▸ hm
    exact authenticate_run_of_revoked hd hm (hr' hr) hp (hh.trans hk'.symm) now x
  refreshTokens t ht := by
    have hb : RefreshToken.isBlacklisted t.jti d' := by
      have hm := RefreshToken.isBlacklisted_iff.mp ht
      have ⟨_, hm, _, hl⟩ := h.later _ <| Database.blacklistedToken_mem_rows.mpr hm
      have he := hl.blacklistedToken
      exact RefreshToken.isBlacklisted_iff.mpr <| Database.blacklistedToken_mem_rows.mp <| he ▸ hm
    constructor
    case left   => exact fun jti now days => refresh_run_of_blacklisted hb jti now days
    case right  => exact fun now revokedAt => ⟨_, logout_run_of_blacklisted hb now revokedAt⟩
  resetTokens t ht hu token hh newPassword now usedAt := by
    have ⟨_, hm, _, hl⟩ := h.later _ <| Database.resetToken_mem_rows.mpr ht
    have ⟨t', he, _, ht', _, hu'⟩ := hl.resetToken
    have hm : t' ∈ d'.resetTokens := Database.resetToken_mem_rows.mp <| he ▸ hm
    exact confirmPasswordReset_run_of_used hd hm (hu' hu) (hh.trans ht'.symm) newPassword now usedAt
  verifyTokens t ht hu token hh now usedAt := by
    have ⟨_, hm, _, hl⟩ := h.later _ <| Database.verificationToken_mem_rows.mpr ht
    have ⟨t', he, ht', hu'⟩ := hl.verificationToken
    have hm : t' ∈ d'.verificationTokens := Database.verificationToken_mem_rows.mp <| he ▸ hm
    exact verifyEmail_run_of_used hd hm (hu' hu) (hh.trans ht'.symm) now usedAt

-- Once it is committed that a credential has been revoked, blacklisted or used, it is refused from then on.
theorem ended_credentials_refused (p : Platform) (d : Database) (hd : Indexed d) (os : ι → Operation)
    (as bs : List (Action ι Exn)) :
    RefusesEnded ((operating p d os).run as).db ((operating p d os).run (as ++ bs)).db :=
  .of_evolves (System.Issues.run_indexed (fun i => (os i).evolves p) (as ++ bs) hd) <|
    operating_evolves p d os as bs

section Example

-- A key is created and then revoked, by two requests that are performed at the same time.
def exampleOperations (revokes : Bool) : Operation :=
  if revokes then .revokeApiKey 1 7 (.midnight 739003) else .createApiKey 1 "ci" ⟨"tokenc", 7⟩

def exampleOperating : List (Action Bool Exn) :=
  .replicate 6 (.go false) ++ [.go true]

theorem key_only_advances :
    ∃ r' ∈ ((operating .ascii KeyHistory.exampleAccounts exampleOperations).run
        (exampleOperating ++ .replicate 3 (.go true))).db.rows,
      r'.key = .apiKey 7 ∧ r'.origin = Row.origin (.apiKey <| newApiKey 1 "ci" ⟨"tokenc", 7⟩) ∧
        0 ≤ r'.progress := by
  refine records_only_advance .ascii KeyHistory.exampleAccounts exampleOperations exampleOperating
    (.replicate 3 (.go true)) (.apiKey <| newApiKey 1 "ci" ⟨"tokenc", 7⟩) ?_
  exact Database.apiKey_mem_rows.mpr <| by decide +kernel

def exampleKeyRequest : HttpRequest :=
  ⟨some "GET", "/api/v1/usage/", [("HTTP_X_API_KEY", "sk_live_tokenc")], none, none, none, none, none⟩

theorem revoked_key_refused :
    let d' := ((operating .ascii KeyHistory.exampleAccounts exampleOperations).run
      ((exampleOperating ++ .replicate 3 (.go true)) ++ [])).db
    ∀ now x, ((APIKeyAuthentication.authenticate exampleKeyRequest now).run d').fst ≠ .ok (some x) := by
  refine (ended_credentials_refused .ascii KeyHistory.exampleAccounts (.of_nodup ?_) exampleOperations _ []).keys
    { newApiKey 1 "ci" ⟨"tokenc", 7⟩ with revokedAt := some (.midnight 739003) } ?_ rfl _ "sk_live_tokenc" rfl rfl
  all_goals decide +kernel

def examplePasswordChange (_ : Unit) : Operation :=
  .changePassword Seed.user ⟨"password", " s3cret-word"⟩

end Example

end Runs
end SaasBackend
