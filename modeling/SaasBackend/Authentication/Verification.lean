import SaasBackend.ApiKeys.Serial
import SaasBackend.Authentication.Signup
import SaasBackend.ReadCommitted.Runs

open Calendar ReadCommitted ReadCommitted.Service

namespace SaasBackend

open Service

-- The JWT which authenticates a request is the access token in it, and it was issued for the user.
def JWTAuthentication.Verifies (jwt : JWTAuthentication) (bearer : HttpRequest → Option AccessToken) :
    Prop :=
  ∀ request now d u, jwt.authenticate request now d = .ok (some u) →
    ∃ t ∈ bearer request, t.claims.userId = u.id

-- What has been sent to users and returned to callers.
inductive Fact
  | issued (token : String) (user : Uuid)
  | verified (token : String) (user : Uuid)
  | tokens (pair : TokenPair)
  | key (k : IssuedKey)
  deriving DecidableEq

namespace Fact

-- The users whom a credential belongs to.
def owners : Fact → List Uuid
  | tokens pair => [pair.refresh.claims.userId, pair.access.claims.userId]
  | key k       => [k.apiKey.userId]
  | _           => []

def pair : Fact → Option TokenPair
  | tokens pair => some pair
  | _           => none

end Fact

-- The JWTs that have been returned.
def returned (log : List Fact) : List TokenPair :=
  log.filterMap Fact.pair

-- The calls of services for which a user has to be authenticated.
inductive AccountCall
  | updateProfile (firstName lastName : Option String)
  | changePassword (currentPassword newPassword : String)
  | createApiKey (name : String) (i : Issuing)
  | revokeApiKey (keyId : Uuid) (revokedAt : Instant)
  | rotateApiKey (keyId : Uuid) (revokedAt : Instant) (i : Issuing)

namespace AccountCall

def service (user : User) : AccountCall → Service (List Fact)
  | updateProfile f l   => do let _ ← SaasBackend.updateProfile user f l; return []
  | changePassword c n  => do SaasBackend.changePassword user c n; return []
  | createApiKey name i => do let k ← SaasBackend.createApiKey user.id name i; return [.key k]
  | revokeApiKey k t    => do let _ ← SaasBackend.revokeApiKey user.id k t; return []
  | rotateApiKey k t i  => do let k ← SaasBackend.rotateApiKey user.id k t i; return [.key k]

def dispatch (jwt : JWTAuthentication) (request : HttpRequest) (now : Instant) (c : AccountCall) :
    Service (List Fact) := do
  let user ← isAuthenticated jwt request now
  c.service user

end AccountCall

abbrev Audit := History Database Fact

namespace Audit

inductive Event
  | registerUser (email password firstName lastName : String) (e : Enrollment) (i : TokenIssue)
  | verifyEmail (token : String) (now usedAt : Instant)
  | resendVerification (email : String) (i : TokenIssue)
  | login (request : HttpRequest) (email password : String) (e : LoginEnv)
  | refresh (presented : Presented) (jti : String) (now : Instant) (days : Nat)
  | logout (presented : Presented) (now revokedAt : Instant)
  | requestPasswordReset (email : String) (i : TokenIssue)
  | confirmPasswordReset (token newPassword : String) (now usedAt : Instant)
  | account (request : HttpRequest) (now : Instant) (call : AccountCall)

def step (p : Platform) (jwt : JWTAuthentication) (σ : Audit) : Event → Audit
  | .registerUser email password f l e i              =>
    σ.record (fun u => [.issued i.token u.id]) <|
      (SaasBackend.registerUser p email password f l e i).run σ.db
  | .verifyEmail token now usedAt                     =>
    σ.record (fun u => [.verified token u.id]) <| (SaasBackend.verifyEmail token now usedAt).run σ.db
  | .resendVerification email i                       =>
    σ.record (fun _ => ((unverifiedUser p σ.db email).map fun u => .issued i.token u.id).toList) <|
      (SaasBackend.resendVerification p email i).run σ.db
  | .login request email password e                   =>
    σ.record (fun pair => [.tokens pair]) <| (LoginView.post request email password e).run σ.db
  | .refresh presented jti now days                   =>
    σ.record (fun pair => [.tokens pair]) <| (RefreshView.post presented jti now days).run σ.db
  | .logout presented now revokedAt                   =>
    σ.record (fun _ => []) <| (SaasBackend.logout presented now revokedAt).run σ.db
  | .requestPasswordReset email i                     =>
    σ.record (fun _ => []) <| (SaasBackend.requestPasswordReset p email i).run σ.db
  | .confirmPasswordReset token newPassword now usedAt  =>
    σ.record (fun _ => []) <| (SaasBackend.confirmPasswordReset token newPassword now usedAt).run σ.db
  | .account request now call                         =>
    σ.record id <| (call.dispatch jwt request now).run σ.db

def run (p : Platform) (jwt : JWTAuthentication) (σ : Audit) (es : List Event) : Audit :=
  es.foldl (step p jwt) σ

-- Nobody guesses a JWT which has not been returned before.
def Presents (bearer : HttpRequest → Option AccessToken) (σ : Audit) : Event → Prop
  | .refresh presented .. => ∀ t ∈ presented, ∃ pair ∈ returned σ.log, pair.refresh = t
  | .account request ..   => ∀ t ∈ bearer request, ∃ pair ∈ returned σ.log, pair.access = t
  | _                     => True

instance (bearer : HttpRequest → Option AccessToken) (σ : Audit) :
    (event : Event) → Decidable (Presents bearer σ event)
  | .refresh ..               => inferInstanceAs <| Decidable (∀ t ∈ _, _)
  | .account ..               => inferInstanceAs <| Decidable (∀ t ∈ _, _)
  | .registerUser ..          => isTrue trivial
  | .verifyEmail ..           => isTrue trivial
  | .resendVerification ..    => isTrue trivial
  | .login ..                 => isTrue trivial
  | .logout ..                => isTrue trivial
  | .requestPasswordReset ..  => isTrue trivial
  | .confirmPasswordReset ..  => isTrue trivial

end Audit

-- The user was verified by a token that had been issued to them before.
def IsVerified (log : List Fact) (user : Uuid) : Prop :=
  ∃ token l, .verified token user :: l <:+ log ∧ .issued token user ∈ l

-- The credentials belong to users who had been verified before.
def IsSound (log : List Fact) : Prop :=
  ∀ f l, f :: l <:+ log → ∀ user ∈ f.owners, IsVerified l user

-- What the log tells about the users who are verified, and about those to whom keys and tokens belong.
def Row.IsJustified (log : List Fact) : Row → Prop
  | .user u               => u.isVerified → IsVerified log u.id
  | .apiKey k             => IsVerified log k.userId
  | .verificationToken t  => ∃ token, t.tokenHash = hashToken token ∧ .issued token t.userId ∈ log
  | _                     => True

section Log

variable {log log' : List Fact} {user : Uuid} {r : Row}

theorem IsVerified.mono (h : IsVerified log user) (hl : log <:+ log') : IsVerified log' user :=
  have ⟨token, l, hs, hm⟩ := h
  ⟨token, l, hs.trans hl, hm⟩

theorem Row.IsJustified.mono (h : r.IsJustified log) (hl : log <:+ log') : r.IsJustified log' := by
  cases r
  case user               => exact fun hv => (h hv).mono hl
  case apiKey             => exact IsVerified.mono h hl
  case verificationToken  => exact h.imp fun _ ⟨hh, hm⟩ => ⟨hh, hl.subset hm⟩
  all_goals trivial

theorem Row.isJustified_of_isToken (h : r.isToken) : r.IsJustified log := by
  cases r <;> trivial

theorem IsSound.append {fs : List Fact} (h : IsSound log)
    (hf : ∀ f ∈ fs, ∀ user ∈ f.owners, IsVerified log user) : IsSound (fs ++ log) := by
  induction fs
  case nil          => exact h
  case cons f fs hi =>
    have hi := hi fun f hm => hf f <| List.mem_cons_of_mem _ hm
    intro f' l hl user hu
    cases List.suffix_cons_iff.mp hl
    case inr hl => exact hi f' l hl user hu
    case inl hl =>
      cases hl
      exact (hf f List.mem_cons_self user hu).mono <| List.suffix_append ..

end Log

-- All rows are justified by what happened before.
def IsExplained (log : List Fact) (d : Database) : Prop :=
  ∀ r ∈ d.rows, r.IsJustified log

namespace IsExplained

variable {log log' : List Fact} {d d' : Database}

theorem mono (h : IsExplained log d) (hl : log <:+ log') : IsExplained log' d :=
  fun r hr => (h r hr).mono hl

theorem put {r : Row} (h : IsExplained log d) (hr : r.IsJustified log) : IsExplained log (d.put r) := by
  intro r' hr'
  cases Database.mem_rows_put.mp hr'
  case inl he => exact he ▸ hr
  case inr hm => exact h r' hm.left

theorem onlyBills (h : IsExplained log d) (hb : OnlyBills d d') : IsExplained log d' := by
  rw [hb]
  intro r hr
  cases r
  case subscription | usageQuota => trivial
  all_goals exact h _ <| by simpa using hr

theorem user {u u' : User} (h : IsExplained log d) (hs : User.SameAccount u u')
    (ha : Accepts d ⟨some <| .user u, .user u'⟩) : IsExplained log (d.put <| .user u') := by
  have hu : (Row.user u).IsJustified log := h _ <| Database.user_mem_rows.mpr (accepts_old ha).left
  rw [hs]
  exact h.put hu

theorem writesKey {k k' : APIKey} (h : IsExplained log d)
    (hw : WritesKey ⟨some <| .apiKey k, .apiKey k'⟩) (ha : Accepts d ⟨some <| .apiKey k, .apiKey k'⟩) :
    IsExplained log (d.put <| .apiKey k') := by
  have hk : (Row.apiKey k).IsJustified log := h _ <| Database.apiKey_mem_rows.mpr (accepts_old ha).left
  cases hw
  case changes hk' _ =>
    rw [hk']
    exact h.put hk

theorem login (request : HttpRequest) (email password : String) (e : LoginEnv) :
    (LoginView.post request email password e).Maintains (Kept <| IsExplained log) :=
  LoginView.post_maintains (fun _ _ hr _ h => h.put <| Row.isJustified_of_isToken hr)
    (fun _ _ _ hs ha h => h.user hs ha) (fun _ _ h => h.put trivial) ..

theorem refresh (presented : Presented) (jti : String) (now : Instant) (days : Nat) :
    (RefreshView.post presented jti now days).Maintains (Kept <| IsExplained log) :=
  RefreshView.post_maintains (fun _ _ hr _ h => h.put <| Row.isJustified_of_isToken hr) ..

theorem logout (presented : Presented) (now revokedAt : Instant) :
    (SaasBackend.logout presented now revokedAt).Maintains (Kept <| IsExplained log) :=
  logout_maintains (fun _ _ hr _ h => h.put <| Row.isJustified_of_isToken hr)
    (fun _ _ h => h.put trivial) ..

theorem requestPasswordReset (p : Platform) (email : String) (i : TokenIssue) :
    (SaasBackend.requestPasswordReset p email i).Maintains (Kept <| IsExplained log) :=
  requestPasswordReset_maintains (fun _ _ h => h.put trivial) ..

theorem confirmPasswordReset (token newPassword : String) (now usedAt : Instant) :
    (SaasBackend.confirmPasswordReset token newPassword now usedAt).Maintains (Kept <| IsExplained log) :=
  confirmPasswordReset_maintains (fun _ _ h => h.put trivial) (fun _ _ _ hs ha h => h.user hs ha) ..

theorem isAuthenticated (jwt : JWTAuthentication) (request : HttpRequest) (now : Instant) :
    (SaasBackend.isAuthenticated jwt request now).Maintains (Kept <| IsExplained log) :=
  isAuthenticated_maintains (fun _ _ _ hw ha h => h.writesKey hw ha) ..

theorem service {u : User} (hu : IsVerified log u.id) (c : AccountCall) :
    (c.service u).Maintains (Kept <| IsExplained log) := by
  have hn : ∀ d k, k.userId = u.id → WritesKey ⟨none, .apiKey k⟩ → Accepts d ⟨none, .apiKey k⟩ →
      Kept (IsExplained log) d (d.put <| .apiKey k) := by
    intro d k hk _ _ h
    have hk : IsVerified log k.userId := hk ▸ hu
    exact h.put hk
  have hc : ∀ d k k', WritesKey ⟨some <| .apiKey k, .apiKey k'⟩ →
      Accepts d ⟨some <| .apiKey k, .apiKey k'⟩ → Kept (IsExplained log) d (d.put <| .apiKey k') :=
    fun _ _ _ hw ha h => h.writesKey hw ha
  have hs : ∀ d u u', User.SameAccount u u' → Accepts d ⟨some <| .user u, .user u'⟩ →
      Kept (IsExplained log) d (d.put <| .user u') := fun _ _ _ hs ha h => h.user hs ha
  cases c <;> refine Maintains.bind ?_ fun _ => Maintains.pure _
  case updateProfile    => exact updateProfile_maintains hs ..
  case changePassword   => exact changePassword_maintains hs ..
  case createApiKey     => exact createApiKey_maintains hn ..
  case revokeApiKey     => exact revokeApiKey_maintains hc ..
  case rotateApiKey     => exact rotateApiKey_maintains hn hc ..

theorem registerUser {p : Platform} {email password firstName lastName : String} {e : Enrollment}
    {i : TokenIssue} {u : User} (h : IsExplained log d)
    (hr : (SaasBackend.registerUser p email password firstName lastName e i).run d = (.ok u, d')) :
    IsExplained (.issued i.token u.id :: log) d' := by
  have ⟨hu, _, _, _, exp, d₁, hb, _, hd⟩ := registerUser_run_eq_ok hr
  have hn : (Row.user u).IsJustified log := by
    intro hv
    rw [hu] at hv
    cases hv
  have h₁ := ((h.put hn).onlyBills hb).mono <| List.suffix_cons (.issued i.token u.id) log
  rw [hd]
  exact h₁.put ⟨i.token, rfl, List.mem_cons_self⟩

theorem verifyEmail {token : String} {now usedAt : Instant} {u : User} (h : IsExplained log d)
    (hr : (SaasBackend.verifyEmail token now usedAt).run d = (.ok u, d')) :
    IsExplained (.verified token u.id :: log) d' := by
  have ⟨t, u₀, hf, _, hu, hd⟩ := verifyEmail_run_eq_ok hr
  have ⟨ht, hh, _, hi⟩ := findVerificationToken_eq_some hf
  have ⟨token', hh', hm⟩ := h _ <| Database.verificationToken_mem_rows.mpr ht
  -- The hash determines the token.
  have he : token' = token := congrArg Sha256.preimage <| hh'.symm.trans hh
  rw [he, ←hi] at hm
  have hv : IsVerified (.verified token u.id :: log) u.id :=
    ⟨token, log, List.suffix_refl _, hu ▸ hm⟩
  have h₁ := h.mono <| List.suffix_cons (.verified token u.id) log
  have ht : (Row.verificationToken t).IsJustified (.verified token u.id :: log) :=
    h₁ _ <| Database.verificationToken_mem_rows.mpr ht
  rw [hd]
  exact (h₁.put (r := .verificationToken { t with usedAt := some usedAt }) ht).put fun _ => hv

theorem resendVerification {p : Platform} {email : String} {i : TokenIssue} (h : IsExplained log d)
    (hr : (SaasBackend.resendVerification p email i).run d = (.ok (), d')) :
    IsExplained (((unverifiedUser p d email).map fun u => .issued i.token u.id).toList ++ log) d' := by
  rw [resendVerification_run] at hr
  cases hu : unverifiedUser p d email
  case none =>
    rw [hu] at hr
    cases hr
    exact h
  case some u =>
    rw [hu] at hr
    have ⟨token, d₁, ht, hr⟩ := run_bind_eq_ok.mp hr
    have ⟨_, exp, _, hd⟩ := issueVerificationToken_run_eq_ok ht
    cases hr
    rw [hd]
    exact (h.mono <| List.suffix_cons ..).put ⟨i.token, rfl, List.mem_cons_self⟩

end IsExplained

section Credentials

variable {d d' : Database} {log : List Fact} {pair : TokenPair}

theorem mem_returned : pair ∈ returned log ↔ .tokens pair ∈ log := by
  rw [returned, List.mem_filterMap]
  constructor
  case mpr => exact fun hp => ⟨_, hp, rfl⟩
  case mp  =>
    intro ⟨f, hf, hp⟩
    cases f <;> cases hp
    exact hf

theorem IsSound.isVerified_of_mem (h : IsSound log) {f : Fact} {user : Uuid} (hf : f ∈ log)
    (hu : user ∈ f.owners) : IsVerified log user := by
  have ⟨l₁, l₂, hl⟩ := List.append_of_mem hf
  subst hl
  have hl : l₂ <:+ l₁ ++ f :: l₂ := (List.suffix_cons f l₂).trans (List.suffix_append ..)
  exact (h f l₂ (List.suffix_append ..) user hu).mono hl

-- A login is answered with tokens of a user who is verified.
theorem IsExplained.isVerified_of_login {request : HttpRequest} {email password : String} {e : LoginEnv}
    (h : IsExplained log d) (hr : (LoginView.post request email password e).run d = (.ok pair, d')) :
    ∀ user ∈ (Fact.tokens pair).owners, IsVerified log user := by
  have ⟨u, d₁, hv⟩ := LoginView.post_run_validate hr
  have ⟨ha, hv, _, hc, hp⟩ := CustomTokenObtainPairSerializer.validate_run_claims hv
  have hu : IsVerified log u.id :=
    h _ (Database.user_mem_rows.mpr (ModelBackend.authenticate_eq_some ha).left) hv
  simp [Fact.owners, hp, RefreshToken.accessToken, hc, CustomTokenObtainPairSerializer.claims, hu]

-- A refresh is answered with tokens of the user whom the presented token belongs to.
theorem IsSound.isVerified_of_refresh {presented : Presented} {jti : String} {now : Instant} {days : Nat}
    (h : IsSound log) (hp : ∀ t ∈ presented, ∃ pair ∈ returned log, pair.refresh = t)
    (hr : (RefreshView.post presented jti now days).run d = (.ok pair, d')) :
    ∀ user ∈ (Fact.tokens pair).owners, IsVerified log user := by
  have ⟨t, ht, hc, ha⟩ := RefreshView.post_run_claims hr
  have ⟨old, hm, ho⟩ := hp t ht
  have hu : IsVerified log t.claims.userId :=
    h.isVerified_of_mem (mem_returned.mp hm) <| ho ▸ List.mem_cons_self
  simp [Fact.owners, ha, RefreshToken.accessToken, hc, hu]

-- Only users who are verified are authenticated.
theorem IsExplained.isVerified_of_isAuthenticated {jwt : JWTAuthentication}
    {bearer : HttpRequest → Option AccessToken} {request : HttpRequest} {now : Instant} {u : User}
    (h : IsExplained log d) (hs : IsSound log) (hj : jwt.Verifies bearer)
    (hb : ∀ t ∈ bearer request, ∃ pair ∈ returned log, pair.access = t)
    (hr : (SaasBackend.isAuthenticated jwt request now).run d = (.ok u, d')) : IsVerified log u.id := by
  cases isAuthenticated_run_eq_ok hr
  case inl ha =>
    have ⟨t, ht, hi⟩ := hj request now d u ha.left
    have ⟨pair, hm, hp⟩ := hb t ht
    exact hs.isVerified_of_mem (mem_returned.mp hm) <| by simp [Fact.owners, hp, hi]
  case inr ha =>
    have ⟨_, k, ha⟩ := ha
    have ⟨_, _, hm, _⟩ := APIKeyAuthentication.authenticate_run_eq_ok ha
    have ⟨hk, _, _, _, hi⟩ := APIKeyAuthentication.mem_candidates.mp hm
    have hk : IsVerified log k.userId := h _ <| Database.apiKey_mem_rows.mpr hk
    exact hi ▸ hk

-- The keys that are returned belong to the user who is authenticated.
theorem AccountCall.owners_of_service {u : User} {c : AccountCall} {fs : List Fact}
    (hr : (c.service u).run d = (.ok fs, d')) : ∀ f ∈ fs, ∀ user ∈ f.owners, user = u.id := by
  cases c <;> have ⟨_, _, hc, hr⟩ := run_bind_eq_ok.mp hr <;> cases hr
  case createApiKey =>
    have ⟨_, hk, _⟩ := createApiKey_run_eq_ok hc
    simp [Fact.owners, hk, newApiKey]
  case rotateApiKey =>
    have ⟨_, _, _, _, _, hc⟩ := rotateApiKey_run_eq_ok hc
    have ⟨_, hk, _⟩ := createApiKey_run_eq_ok hc
    simp [Fact.owners, hk, newApiKey]
  all_goals exact List.forall_mem_nil _

end Credentials

namespace Audit

structure IsConsistent (σ : Audit) : Prop where
  explained : IsExplained σ.log σ.db
  sound     : IsSound σ.log

namespace IsConsistent

variable {α : Type} {σ : Audit} {facts : α → List Fact}

theorem record {r : Except Exn α × Database} (h : σ.IsConsistent)
    (he : ∀ x d, r = (.error x, d) → IsExplained σ.log d)
    (ho : ∀ a d, r = (.ok a, d) → IsExplained (facts a ++ σ.log) d ∧
      ∀ f ∈ facts a, ∀ user ∈ f.owners, IsVerified σ.log user) :
    IsConsistent (σ.record facts r) := by
  apply History.record_cases
  case he => exact fun x d hr => ⟨he x d hr, h.sound⟩
  case ho =>
    intro a d hr
    have ⟨hd, hf⟩ := ho a d hr
    exact ⟨hd, h.sound.append hf⟩

theorem record_maintains {s : Service α} (h : σ.IsConsistent)
    (hs : s.Maintains <| Kept <| IsExplained σ.log)
    (hf : ∀ a d, s.run σ.db = (.ok a, d) →
      ∀ f ∈ facts a, ∀ user ∈ f.owners, IsVerified σ.log user) :
    IsConsistent (σ.record facts <| s.run σ.db) := by
  apply h.record
  case he => exact fun _ _ hr => hs.of_run_eq hr h.explained
  case ho =>
    intro a d hr
    exact ⟨(hs.of_run_eq hr h.explained).mono <| List.suffix_append .., hf a d hr⟩

theorem account {jwt : JWTAuthentication} {bearer : HttpRequest → Option AccessToken}
    (h : σ.IsConsistent) (hj : jwt.Verifies bearer) {request : HttpRequest}
    (hb : ∀ t ∈ bearer request, ∃ pair ∈ returned σ.log, pair.access = t) (now : Instant)
    (c : AccountCall) : IsConsistent (σ.record id <| (c.dispatch jwt request now).run σ.db) := by
  have ha : ∀ u d, (isAuthenticated jwt request now).run σ.db = (.ok u, d) →
      IsVerified σ.log u.id ∧ IsExplained σ.log d := fun u d ha =>
    ⟨h.explained.isVerified_of_isAuthenticated h.sound hj hb ha,
     (IsExplained.isAuthenticated ..).of_run_eq ha h.explained⟩
  apply h.record
  case he =>
    intro x d hr
    cases run_bind_eq_error.mp hr
    case inl hr => exact (IsExplained.isAuthenticated ..).of_run_eq hr h.explained
    case inr hr =>
      have ⟨u, d₁, h₁, hr⟩ := hr
      have ⟨hu, hd⟩ := ha u d₁ h₁
      exact (IsExplained.service hu c).of_run_eq hr hd
  case ho =>
    intro fs d hr
    have ⟨u, d₁, h₁, hr⟩ := run_bind_eq_ok.mp hr
    have ⟨hu, hd⟩ := ha u d₁ h₁
    refine ⟨((IsExplained.service hu c).of_run_eq hr hd).mono <| List.suffix_append .., ?_⟩
    intro f hf user ho
    rw [AccountCall.owners_of_service hr f hf user ho]
    exact hu

theorem step {p : Platform} {jwt : JWTAuthentication} {bearer : HttpRequest → Option AccessToken}
    (h : σ.IsConsistent) (hj : jwt.Verifies bearer) {event : Event} (hp : Presents bearer σ event) :
    (σ.step p jwt event).IsConsistent := by
  cases event
  case registerUser =>
    apply h.record
    case he => exact fun _ _ hr => run_atomic_eq_error hr ▸ h.explained
    case ho => exact fun _ _ hr => ⟨h.explained.registerUser hr, by simp [Fact.owners]⟩
  case verifyEmail =>
    apply h.record
    case he => exact fun _ _ hr => verifyEmail_run_eq_error hr ▸ h.explained
    case ho => exact fun _ _ hr => ⟨h.explained.verifyEmail hr, by simp [Fact.owners]⟩
  case resendVerification =>
    apply h.record
    case he => exact fun _ _ hr => resendVerification_run_eq_error hr ▸ h.explained
    case ho => exact fun _ _ hr => ⟨h.explained.resendVerification hr, by simp [Fact.owners]⟩
  case login =>
    apply h.record_maintains (IsExplained.login ..)
    exact fun _ _ hr => List.forall_mem_singleton.mpr <| h.explained.isVerified_of_login hr
  case refresh =>
    apply h.record_maintains (IsExplained.refresh ..)
    exact fun _ _ hr => List.forall_mem_singleton.mpr <| h.sound.isVerified_of_refresh hp hr
  case logout               =>
    exact h.record_maintains (IsExplained.logout ..) fun _ _ _ => List.forall_mem_nil _
  case requestPasswordReset =>
    exact h.record_maintains (IsExplained.requestPasswordReset ..) fun _ _ _ => List.forall_mem_nil _
  case confirmPasswordReset =>
    exact h.record_maintains (IsExplained.confirmPasswordReset ..) fun _ _ _ => List.forall_mem_nil _
  case account              => exact h.account hj hp ..

end IsConsistent

-- Without any users, there are no rows which belong to a user.
structure NoUsers (d : Database) : Prop where
  users   : d.users.rows = []
  apiKeys : d.apiKeys.rows = []
  tokens  : d.verificationTokens.rows = []

theorem NoUsers.isConsistent {d : Database} (h : NoUsers d) : IsConsistent (.start d) where
  sound _ _ hl := (List.cons_ne_nil _ _ <| List.suffix_nil.mp hl).elim
  explained := by
    intro r hr
    cases r
    case user u =>
      have hu : u ∈ d.users.rows := Database.user_mem_rows.mp hr
      simp [h.users] at hu
    case apiKey k =>
      have hk : k ∈ d.apiKeys.rows := Database.apiKey_mem_rows.mp hr
      simp [h.apiKeys] at hk
    case verificationToken t =>
      have ht : t ∈ d.verificationTokens.rows := Database.verificationToken_mem_rows.mp hr
      simp [h.tokens] at ht
    all_goals trivial

-- Every JWT and every API key which is returned belongs to a user who was verified before, by a token
-- that had been issued to that user.
theorem credentials_of_verified_users (p : Platform) (jwt : JWTAuthentication)
    (bearer : HttpRequest → Option AccessToken) (d : Database) (es : List Event)
    (hj : jwt.Verifies bearer) (hd : NoUsers d)
    (he : Throughout (step p jwt) (Presents bearer) (.start d) es) :
    ∀ f l, f :: l <:+ (run p jwt (.start d) es).log → ∀ user ∈ f.owners, IsVerified l user :=
  (he.induction hd.isConsistent fun _ _ hp h => h.step hj hp).sound

section Example

def exampleBearer (request : HttpRequest) : Option AccessToken :=
  match request.header "HTTP_AUTHORIZATION" with
  | some "Bearer access"  => some ⟨1, "user@example.com", .customer, true, "free"⟩
  | _                     => none

def exampleJWTAuthentication : JWTAuthentication where
  authenticate request _ d :=
    match exampleBearer request with
    | none    => .ok none
    | some t  =>
      match d.users.lookup <| .user t.claims.userId with
      | none    => .error <| .unauthenticated "User not found"
      | some u  => if u.isActive then .ok (some u) else .error <| .unauthenticated "User is inactive"

theorem exampleJWTAuthentication_verifies : exampleJWTAuthentication.Verifies exampleBearer := by
  intro request now d u h
  simp only [exampleJWTAuthentication] at h
  split at h
  case h_1      => cases h
  case h_2 t ht =>
    split at h
    case h_1        => cases h
    case h_2 u' hl  =>
      split at h
      case isFalse => cases h
      case isTrue  =>
        cases h
        exact ⟨t, ht, (Key.user.inj (Table.lookup_eq_some.mp hl).right).symm⟩

def exampleRequest (headers : List (String × String)) : HttpRequest where
  method               := some "POST"
  path                 := "/api/v1/"
  headers              := headers
  user                 := none
  auth                 := none
  subscription         := none
  subscriptionPlanSlug := none
  durationMs           := none

-- A user registers, verifies the address, logs in, and creates a key.
def exampleEvents : List Event := [
  .registerUser "user@example.com" "StrongPass!123" "A" "" exampleEnrollment exampleIssue,
  .verifyEmail "token" (.midnight 739000) (.midnight 739000),
  .login (exampleRequest []) "user@example.com" "StrongPass!123" exampleLoginEnv,
  .account (exampleRequest [("HTTP_AUTHORIZATION", "Bearer access")]) (.midnight 739001) <|
    .createApiKey "deploy" ⟨"secret", 1⟩
]

theorem credentials_of_registered_user :
    let σ := run .ascii exampleJWTAuthentication (.start Seed.database) exampleEvents
    σ.log.flatMap Fact.owners = [1, 1, 1] ∧
    ∀ f l, f :: l <:+ σ.log → ∀ user ∈ f.owners, IsVerified l user :=
  ⟨by decide +kernel, credentials_of_verified_users .ascii exampleJWTAuthentication exampleBearer _ _
    exampleJWTAuthentication_verifies ⟨rfl, rfl, rfl⟩ <| by decide +kernel⟩

end Example
end Audit
end SaasBackend
