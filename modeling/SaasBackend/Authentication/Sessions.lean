import SaasBackend.Authentication.Serial
import SaasBackend.Subscriptions.Seed

open Calendar ReadCommitted ReadCommitted.Service

namespace SaasBackend

open Service

variable {d d' d₀ : Database} {t t' : RefreshToken} {ts : List RefreshToken} {e : LoginEnv}
  {request : HttpRequest} {email password : String}

-- The refresh tokens which are issued by a login and by refreshes with the respective latest token,
-- from the latest token to the first.
inductive Chain (request : HttpRequest) (email password : String) (e : LoginEnv) (d₀ : Database) :
    List RefreshToken → Database → Prop
  | login {pair d} :
    (LoginView.post request email password e).run d₀ = (.ok pair, d) →
    Chain request email password e d₀ [pair.refresh] d
  | refresh {t ts d jti now days pair d'} :
    Chain request email password e d₀ (t :: ts) d →
    (∀ t' ∈ t :: ts, t'.jti ≠ jti) →
    (RefreshView.post (some t) jti now days).run d = (.ok pair, d') →
    Chain request email password e d₀ (pair.refresh :: t :: ts) d'

namespace Chain

theorem singleton (h : Chain request email password e d₀ [t] d) : ∃ s, Opened e s t d₀ d := by
  cases h
  case login h => exact LoginView.post_run_eq_ok h

-- A refresh leaves the session as it was opened.
theorem session (h : Chain request email password e d₀ ts d) :
    ∃ s ∈ d.sessions, s.id = e.sessionId ∧ s.refreshJti = e.jti ∧ s.revokedAt = none := by
  induction h
  case login h =>
    have ⟨s, hs⟩ := LoginView.post_run_eq_ok h
    exact ⟨s, hs.sessions ▸ Table.mem_put_self .., hs.id, hs.refreshJti, hs.active⟩
  case refresh d _ _ _ _ d' _ _ hr hi =>
    have hd : d'.sessions = d.sessions :=
      (RefreshView.post_maintains (fun d _ h _ => Row.put_isToken h d) ..).of_run_eq hr
    have ⟨s, hs, h⟩ := hi
    exact ⟨s, hd.symm ▸ hs, h⟩

theorem jti_mem (h : Chain request email password e d₀ ts d) : ∃ t ∈ ts, t.jti = e.jti := by
  induction h
  case login h =>
    have ⟨_, hs⟩ := LoginView.post_run_eq_ok h
    exact ⟨_, List.mem_cons_self, hs.jti⟩
  case refresh hi =>
    have ⟨t, ht, hj⟩ := hi
    exact ⟨t, List.mem_cons_of_mem _ ht, hj⟩

-- After a refresh, the latest token is no longer the one by which the session can be found.
theorem latest_ne (h : Chain request email password e d₀ (t :: ts) d) (ht : ts ≠ []) :
    t.jti ≠ e.jti := by
  cases h
  case login           => exact absurd rfl ht
  case refresh h hn hr =>
    have ⟨t, hm, hj⟩ := h.jti_mem
    have ⟨_, ht, _⟩ := RefreshView.post_run_eq_ok hr
    exact fun he => hn t hm <| hj.trans <| he.symm.trans ht

end Chain

-- The session of a login is found by a logout which directly follows, as no other session has the
-- same token.
theorem Opened.findOpenSession {s : UserSession} (h : Opened e s t d₀ d) :
    findOpenSession d t.jti = some s := by
  have hu : ∀ s' ∈ d.sessions, s'.refreshJti = t.jti → s' = s := by
    intro s' hs' hj
    rw [h.sessions] at hs'
    cases Table.mem_put.mp hs'
    case inl hs' => exact hs'
    case inr hs' => exact (h.fresh s' hs'.left <| hj.trans h.jti).elim
  cases hf : SaasBackend.findOpenSession d t.jti
  case some s' =>
    have ⟨hs', hj, _⟩ := findOpenSession_eq_some hf
    rw [hu s' hs' hj]
  case none =>
    have hs : s ∈ d.sessions := h.sessions ▸ Table.mem_put_self ..
    have hn := List.find?_eq_none.mp hf s hs
    simp [h.refreshJti, h.jti, h.active] at hn

theorem Opened.logout_run {s : UserSession} {now : Instant} (h : Opened e s t d₀ d) (he : now < t.exp)
    (revokedAt : Instant) :
    ∃ d', (logout (some t) now revokedAt).run d = (.ok (), d') ∧
      { s with revokedAt := some revokedAt } ∈ d'.sessions ∧ RefreshToken.isBlacklisted t.jti d' := by
  have ⟨d₁, hd, hb, hr⟩ := SaasBackend.logout_run he (h.jti.symm ▸ h.valid) revokedAt
  have hl : d₁.sessions.lookup (.session s.id) = some s := by
    rw [hd, h.sessions]
    exact Table.lookup_put_self ..
  have hs : (revoke s revokedAt).run d₁ =
      (.ok (), d₁.put <| .session { s with revokedAt := some revokedAt }) :=
    run_save hl h.fits fun _ hk => hk
  rw [h.findOpenSession] at hr
  exact ⟨_, hr.trans hs, Table.mem_put_self .., RefreshToken.isBlacklisted_put hb _⟩

section Example

def exampleRequest : HttpRequest :=
  ⟨some "POST", "/api/v1/auth/login/", [("REMOTE_ADDR", "10.0.0.1")], none, none, none, none, none⟩

def exampleLogin : LoginEnv where
  jti         := "first"
  sessionId   := 1
  now         := .midnight 739000
  lastLogin   := .midnight 739000
  lastLoginAt := .midnight 739000
  days        := 7

def exampleClaims : Claims :=
  ⟨1, "user@example.com", .customer, true, "free"⟩

def exampleTokens (jti : String) : TokenPair :=
  ⟨⟨jti, .midnight 739007, exampleClaims⟩, ⟨exampleClaims⟩⟩

def exampleAccounts : Database :=
  { Database.empty with users := .put .empty Seed.user }

def exampleSignedIn : Database :=
  ((LoginView.post exampleRequest "user@example.com" "password" exampleLogin).run exampleAccounts).snd

def exampleRotated : Database :=
  ((RefreshView.post (some (exampleTokens "first").refresh) "second" (.midnight 739000) 7).run
    exampleSignedIn).snd

theorem exampleSignedIn_chain :
    Chain exampleRequest "user@example.com" "password" exampleLogin exampleAccounts
      [(exampleTokens "first").refresh] exampleSignedIn :=
  .login <| run_eq_ok <| by decide +kernel

theorem exampleRotated_chain :
    Chain exampleRequest "user@example.com" "password" exampleLogin exampleAccounts
      [(exampleTokens "second").refresh, (exampleTokens "first").refresh] exampleRotated :=
  have hn : ∀ t ∈ [(exampleTokens "first").refresh], t.jti ≠ "second" := by decide
  .refresh exampleSignedIn_chain hn <| run_eq_ok <| by decide +kernel

end Example
end SaasBackend
