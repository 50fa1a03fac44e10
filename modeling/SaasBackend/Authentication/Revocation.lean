import SaasBackend.Authentication.Sessions

open Calendar ReadCommitted ReadCommitted.Service

namespace SaasBackend

open Service

-- Sessions are never deleted, and a token that is blacklisted remains so.
structure Persists (d d' : Database) : Prop where
  session   : ∀ s ∈ d.sessions, ∃ s' ∈ d'.sessions, s'.id = s.id
  blacklist : ∀ jti, RefreshToken.isBlacklisted jti d → RefreshToken.isBlacklisted jti d'

namespace Persists

instance : Std.Refl Persists where
  refl _ := ⟨fun s hs => ⟨s, hs, rfl⟩, fun _ => id⟩

instance : IsTrans Database Persists where
  trans _ _ _ h₁ h₂ := {
    session s hs  :=
      have ⟨s', hs', hi⟩ := h₁.session s hs
      have ⟨s'', hs'', hi'⟩ := h₂.session s' hs'
      ⟨s'', hs'', hi'.trans hi⟩
    blacklist jti := h₂.blacklist jti ∘ h₁.blacklist jti
  }

theorem put (d : Database) (r : Row) : Persists d (d.put r) where
  blacklist _ h := RefreshToken.isBlacklisted_put h r
  session s hs  := by
    cases r
    case session n =>
      have ⟨s', hs', hk⟩ := Table.exists_mem_put n hs
      exact ⟨s', hs', Key.session.inj hk⟩
    all_goals exact ⟨s, hs, rfl⟩

theorem login (request : HttpRequest) (email password : String) (e : LoginEnv) :
    (LoginView.post request email password e).Maintains Persists :=
  LoginView.post_maintains (fun d r _ _ => put d r) (fun d _ _ _ _ => put d _) (fun d _ => put d _) ..

theorem refresh (presented : Presented) (jti : String) (now : Instant) (days : Nat) :
    (RefreshView.post presented jti now days).Maintains Persists :=
  RefreshView.post_maintains (fun d r _ _ => put d r) ..

theorem logout (presented : Presented) (now revokedAt : Instant) :
    (SaasBackend.logout presented now revokedAt).Maintains Persists :=
  logout_maintains (fun d r _ _ => put d r) (fun d _ => put d _) ..

end Persists

-- The database, and the refresh tokens on the devices of all users: those of each session, from the
-- latest token to the first.
structure Devices where
  db     : Database
  chains : Uuid → List RefreshToken

namespace Devices

inductive Event
  | login (request : HttpRequest) (email password : String) (e : LoginEnv)
  | refresh (session : Uuid) (jti : String) (now : Instant)
  | logout (presented : Presented) (now revokedAt : Instant)
  | revokeSession (user sessionId : Uuid) (revokedAt : Instant)

def Event.time : Event → Instant
  | login _ _ _ e       => e.now
  | refresh _ _ now     => now
  | logout _ now _      => now
  | revokeSession _ _ t => t

-- No tokens have been issued yet.
def start (d : Database) : Devices where
  db       := d
  chains _ := []

def assign (σ : Devices) (session : Uuid) (chain : List RefreshToken) (d : Database) : Devices where
  db     := d
  chains := Function.update σ.chains session chain

-- A device stores the refresh token with which it is answered.
def receive (σ : Devices) (session : Uuid) (chain : List RefreshToken) :
    Except Exn TokenPair × Database → Devices
  | (.ok pair, d) => σ.assign session (pair.refresh :: chain) d
  | (.error _, d) => { σ with db := d }

-- A refresh is requested with the latest token of a session. The `REFRESH_TOKEN_LIFETIME` is `days`.
def step (days : Nat) (σ : Devices) : Event → Devices
  | .login request email password e =>
    σ.receive e.sessionId [] <| (LoginView.post request email password e).run σ.db
  | .refresh session jti now =>
    match σ.chains session with
    | []      => σ
    | t :: ts => σ.receive session (t :: ts) <| (RefreshView.post (some t) jti now days).run σ.db
  | .logout presented now revokedAt =>
    { σ with db := ((SaasBackend.logout presented now revokedAt).run σ.db).snd }
  | .revokeSession user sessionId revokedAt =>
    { σ with db := ((SaasBackend.revokeSession user sessionId revokedAt).run σ.db).snd }

def run (days : Nat) (σ : Devices) (es : List Event) : Devices :=
  es.foldl (step days) σ

-- No token of the session is accepted from the given time on.
def Refuses (days : Nat) (σ : Devices) (session : Uuid) (time : Instant) : Prop :=
  ∀ t ∈ σ.chains session, ∀ jti now, time ≤ now →
    ¬((RefreshView.post (some t) jti now days).run σ.db).fst.isOk

-- What an event does to the database and the devices.
inductive Answers (days : Nat) (σ : Devices) : Event → Devices → Prop
  | nothing {event d} :
    Persists σ.db d →
    Answers days σ event { σ with db := d }
  | login {request email password e pair d} :
    (LoginView.post request email password e).run σ.db = (.ok pair, d) →
    Answers days σ (.login request email password e)
      (σ.assign e.sessionId [pair.refresh] d)
  | refresh {session t ts jti now pair d} :
    σ.chains session = t :: ts →
    (RefreshView.post (some t) jti now days).run σ.db = (.ok pair, d) →
    Answers days σ (.refresh session jti now)
      (σ.assign session (pair.refresh :: t :: ts) d)

variable {σ σ' : Devices} {session session' : Uuid} {chain : List RefreshToken} {d : Database}
  {days : Nat} {event : Event} {time : Instant}

@[simp]
theorem assign_db : (σ.assign session chain d).db = d :=
  rfl

@[simp]
theorem assign_chains_self : (σ.assign session chain d).chains session = chain :=
  Function.update_self ..

theorem assign_chains_of_ne (h : session ≠ session') :
    (σ.assign session' chain d).chains session = σ.chains session :=
  Function.update_of_ne h ..

theorem Answers.of_receive {r : Except Exn TokenPair × Database} (hp : Persists σ.db r.snd)
    (h : ∀ pair d, r = (.ok pair, d) →
      Answers days σ event (σ.assign session (pair.refresh :: chain) d)) :
    Answers days σ event (σ.receive session chain r) := by
  obtain ⟨x, d⟩ := r
  cases x
  case error    => exact .nothing hp
  case ok pair  => exact h pair d rfl

theorem step_answers (days : Nat) (σ : Devices) (event : Event) :
    Answers days σ event (σ.step days event) := by
  cases event
  case login =>
    apply Answers.of_receive
    case hp => exact (Persists.login ..).related σ.db
    case h  => exact fun _ _ hr => .login hr
  case refresh session jti now =>
    simp only [step]
    split
    case h_1 => exact .nothing <| Std.Refl.refl _
    case h_2 hc =>
      apply Answers.of_receive
      case hp => exact (Persists.refresh ..).related σ.db
      case h  => exact fun _ _ hr => .refresh hc hr
  case logout           => exact .nothing <| (Persists.logout ..).related _
  case revokeSession    =>
    exact .nothing <| (revokeSession_maintains (fun d s => Persists.put d _) ..).related _

theorem Answers.persists (h : Answers days σ event σ') : Persists σ.db σ'.db := by
  cases h
  case nothing h    => exact h
  case login h      => exact (Persists.login ..).of_run_eq h
  case refresh _ h  =>
    exact (Persists.refresh ..).of_run_eq h

-- All tokens of a session but the latest one are blacklisted.
def Rotated (σ : Devices) : Prop :=
  ∀ session, ∀ t ∈ (σ.chains session).tail, RefreshToken.isBlacklisted t.jti σ.db

theorem Rotated.start (d : Database) : (start d).Rotated :=
  fun _ _ ht => absurd ht List.not_mem_nil

theorem Rotated.step (h : σ.Rotated) (ha : Answers days σ event σ') : σ'.Rotated := by
  have hp := ha.persists
  intro session t ht
  cases ha
  case nothing => exact hp.blacklist _ <| h session t ht
  case login e _ _ _ =>
    by_cases hs : session = e.sessionId
    case pos => simp [hs] at ht
    case neg =>
      rw [assign_chains_of_ne hs] at ht
      exact hp.blacklist _ <| h session t ht
  case refresh s t' ts _ _ _ _ hc hr =>
    by_cases hs : session = s
    case neg =>
      rw [assign_chains_of_ne hs] at ht
      exact hp.blacklist _ <| h session t ht
    case pos =>
      rw [hs, assign_chains_self] at ht
      cases ht
      case head     => exact (RefreshView.post_run_eq_ok hr).right.right
      case tail ht  => exact hp.blacklist _ <| h s t <| hc.symm ▸ ht

theorem Rotated.run (h : σ.Rotated) (es : List Event) : (σ.run days es).Rotated := by
  induction es generalizing σ
  case nil        => exact h
  case cons hi    => exact hi <| h.step <| step_answers ..

-- The token is not accepted from the given time on.
def IsDead (days : Nat) (time : Instant) (d : Database) (t : RefreshToken) : Prop :=
  t.exp ≤ time ∨ RefreshToken.isBlacklisted t.jti d ∨ time.addDays days = none

theorem IsDead.persists {d' : Database} {t : RefreshToken} (h : IsDead days time d t)
    (hp : Persists d d') : IsDead days time d' t :=
  h.imp_right <| .imp_left <| hp.blacklist _

theorem IsDead.not_isOk {t : RefreshToken} {jti : String} {now : Instant}
    (h : IsDead days time d t) (ht : time ≤ now) :
    ¬((RefreshView.post (some t) jti now days).run d).fst.isOk := by
  intro ha
  have ⟨he, hb, hd⟩ := RefreshView.post_isOk_iff.mp ha
  cases h
  case inl h => exact absurd (h.trans ht) <| not_le.mpr he
  case inr h =>
    cases h
    case inl h => exact hb h
    case inr h =>
      have hd := Instant.addDays_isSome_of_le ht hd
      rw [h] at hd
      cases hd

-- A session that is known to the database, and whose tokens are not accepted any more.
structure Ended (days : Nat) (session : Uuid) (time : Instant) (σ : Devices) : Prop where
  known : ∃ s ∈ σ.db.sessions, s.id = session
  dead  : ∀ t ∈ σ.chains session, IsDead days time σ.db t

namespace Ended

theorem refuses (h : Ended days session time σ) : σ.Refuses days session time :=
  fun t ht _ _ hn => (h.dead t ht).not_isOk hn

-- No further token is issued for the session: the id of the session is in use, and none of its tokens
-- can be refreshed.
theorem step (h : Ended days session time σ) (ha : Answers days σ event σ')
    (ht : time ≤ event.time) : Ended days session time σ' := by
  have hp := ha.persists
  have ⟨s, hs, hi⟩ := h.known
  constructor
  case known =>
    have ⟨s', hs', hi'⟩ := hp.session s hs
    exact ⟨s', hs', hi'.trans hi⟩
  case dead =>
    have hd : ∀ t ∈ σ.chains session, IsDead days time σ'.db t :=
      fun t ht => (h.dead t ht).persists hp
    cases ha
    case nothing => exact hd
    case login e _ _ hr =>
      have ⟨_, ho⟩ := LoginView.post_run_eq_ok hr
      have hn : session ≠ e.sessionId := hi ▸ ho.new s hs
      rwa [assign_chains_of_ne hn]
    case refresh session' t ts jti now _ _ hc hr =>
      have ht : time ≤ now := ht
      have hn : session ≠ session' := by
        intro hn
        have hd := h.dead t <| hn ▸ hc ▸ List.mem_cons_self
        exact hd.not_isOk ht <| by rw [hr]; rfl
      rwa [assign_chains_of_ne hn]

theorem run (h : Ended days session time σ) (es : List Event) (ht : ∀ event ∈ es, time ≤ event.time) :
    Ended days session time (σ.run days es) := by
  induction es generalizing σ
  case nil              => exact h
  case cons event es hi =>
    have h := h.step (step_answers days σ event) <| ht _ List.mem_cons_self
    exact hi h fun event he => ht event <| List.mem_cons_of_mem _ he

end Ended

theorem revokeSession_isOk {user sessionId : Uuid} {revokedAt : Instant}
    (h : ((revokeSession user sessionId revokedAt).run d).fst.isOk) :
    ∃ s ∈ d.sessions, s.id = sessionId := by
  cases hr : (revokeSession user sessionId revokedAt).run d
  case mk x d' =>
    rw [hr] at h
    cases x
    case error  => cases h
    case ok     =>
      have ⟨found, _, hs, h⟩ := run_bind_eq_ok.mp hr
      have ⟨hf, _⟩ := run_select_eq_ok.mp hs
      cases found
      case none   => cases h
      case some s => exact ⟨s, (findSession_eq_some hf).imp_right And.left⟩

section Example

def exampleSignIn : Event :=
  .login exampleRequest "user@example.com" "password" exampleLogin

end Example

end Devices
end SaasBackend
