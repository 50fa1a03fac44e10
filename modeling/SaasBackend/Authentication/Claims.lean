import SaasBackend.Authentication.Sessions
import SaasBackend.Subscriptions.Serial

open Calendar ReadCommitted ReadCommitted.Service

namespace SaasBackend

open Service

-- The role of a user, unless there is no such user.
def roleOf (d : Database) (user : Uuid) : Option UserRole :=
  (d.users.lookup <| .user user).map (·.role)

-- The slug of the active plan of a user, which is the free one if there is none.
def planSlug (d : Database) (user : Uuid) : String :=
  ((getActiveSubscription d user).map (·.plan.slug)).getD "free"

-- A role that is changed in the administration.
def setRole (user : Uuid) (role : UserRole) : Service Unit :=
  save Database.users .user (.user user) fun u => { u with role := role }

-- No user has got another role or another plan.
structure SameStanding (d d' : Database) : Prop where
  role : ∀ user, roleOf d' user = roleOf d user
  plan : ∀ user, planSlug d' user = planSlug d user

namespace SameStanding

instance : Std.Refl SameStanding where
  refl _ := ⟨fun _ => rfl, fun _ => rfl⟩

instance : IsTrans Database SameStanding where
  trans _ _ _ h₁ h₂ := ⟨fun u => (h₂.role u).trans <| h₁.role u, fun u => (h₂.plan u).trans <| h₁.plan u⟩

variable {d d' : Database}

theorem of_tables (hu : d'.users = d.users) (hs : d'.subscriptions = d.subscriptions) (hp : d'.plans = d.plans) :
    SameStanding d d' where
  role user := by rw [roleOf, hu, roleOf]
  plan user := by rw [planSlug, getActiveSubscription_congr hs hp, planSlug]

theorem put_isToken {r : Row} (h : r.isToken) (d : Database) : SameStanding d (d.put r) := by
  cases r
  all_goals first | exact of_tables rfl rfl rfl | cases h

theorem put_user {u u' : User} (h : User.SameAccount u u') (hu : u ∈ d.users) :
    SameStanding d (d.put <| .user u') := by
  have hi : u'.id = u.id := by rw [h]
  have hr : u'.role = u.role := by rw [h]
  constructor
  case plan =>
    intro user
    have ha : getActiveSubscription (d.put <| .user u') user = getActiveSubscription d user :=
      getActiveSubscription_congr rfl rfl user
    rw [planSlug, ha, planSlug]
  case role =>
    intro user
    by_cases he : user = u.id
    case pos =>
      have hl : d.users.lookup (.user u.id) = some u := Table.lookup_eq_some.mpr ⟨hu, rfl⟩
      have hl' : (d.users.put u').lookup (.user u'.id) = some u' := Table.lookup_put_self ..
      rw [he, roleOf, roleOf, hl, ←hi]
      exact (congrArg _ hl').trans <| congrArg some hr
    case neg =>
      have hl : (d.users.put u').lookup (.user user) = d.users.lookup (.user user) :=
        Table.lookup_put_of_ne fun hk => he <| (Key.user.inj hk).symm.trans hi
      exact congrArg _ hl

theorem login (request : HttpRequest) (email password : String) (e : LoginEnv) :
    (LoginView.post request email password e).Maintains SameStanding :=
  LoginView.post_maintains (fun d _ h _ => put_isToken h d)
    (fun _ _ _ h ha => put_user h (accepts_old ha).left)
    (fun _ _ => of_tables rfl rfl rfl) ..

theorem refresh (presented : Presented) (jti : String) (now : Instant) (days : Nat) :
    (RefreshView.post presented jti now days).Maintains SameStanding :=
  RefreshView.post_maintains (fun d _ h _ => put_isToken h d) ..

end SameStanding

-- The tokens with which a login or a refresh is answered, the database when it was requested and when
-- it was answered, and the one in which the login was requested from which the tokens descend.
structure Answer where
  pair   : TokenPair
  login  : Database
  before : Database
  after  : Database

namespace Answer

-- The access token says which role and plan its user has.
structure IsCurrent (a : Answer) : Prop where
  role : roleOf a.after a.pair.access.claims.userId = some a.pair.access.claims.role
  plan : planSlug a.after a.pair.access.claims.userId = a.pair.access.claims.plan

-- The user has the role and the plan that they had when they logged in.
structure IsUnchanged (a : Answer) : Prop where
  role : roleOf a.before a.pair.access.claims.userId = roleOf a.login a.pair.access.claims.userId
  plan : planSlug a.before a.pair.access.claims.userId = planSlug a.login a.pair.access.claims.userId

-- The claims of the tokens are those of the login from which they descend.
structure Descends (a : Answer) : Prop where
  access   : a.pair.access = a.pair.refresh.accessToken
  role     : roleOf a.login a.pair.refresh.claims.userId = some a.pair.refresh.claims.role
  plan     : planSlug a.login a.pair.refresh.claims.userId = a.pair.refresh.claims.plan
  standing : SameStanding a.before a.after

theorem Descends.isCurrent_iff {a : Answer} (h : a.Descends) : a.IsCurrent ↔ a.IsUnchanged := by
  have hr := h.role
  have hp := h.plan
  have hc : a.pair.refresh.claims = a.pair.access.claims := (congrArg AccessToken.claims h.access).symm
  rw [hc] at hr hp
  constructor
  case mp   =>
    intro hn
    exact ⟨(h.standing.role _).symm.trans <| hn.role.trans hr.symm,
      (h.standing.plan _).symm.trans <| hn.plan.trans hp.symm⟩
  case mpr  =>
    intro hn
    exact ⟨(h.standing.role _).trans <| hn.role.trans hr, (h.standing.plan _).trans <| hn.plan.trans hp⟩

end Answer

-- The database, and what has been answered to the clients so far.
structure TokenHistory where
  db      : Database
  answers : List Answer

namespace TokenHistory

-- A refresh is requested with the refresh token of the answer with the given number, or with something
-- else that is not a token.
inductive Event
  | login (request : HttpRequest) (email password : String) (e : LoginEnv)
  | refresh (answer : Nat) (jti : String) (now : Instant) (days : Nat)
  | subscribe (user : Uuid) (planSlug : String) (canceledAt : Instant) (o : Opening)
  | cancel (user : Uuid) (canceledAt : Instant) (o : Opening)
  | expireDueSubscriptions (now : Instant) (openings : Uuid → Opening)
  | setRole (user : Uuid) (role : UserRole)

def start (d : Database) : TokenHistory where
  db      := d
  answers := []

def answer (σ : TokenHistory) (login : Database) : Except Exn TokenPair × Database → TokenHistory
  | (.ok pair, d) => ⟨d, σ.answers ++ [⟨pair, login, σ.db, d⟩]⟩
  | (.error _, d) => { σ with db := d }

def step (σ : TokenHistory) : Event → TokenHistory
  | .login request email password e => σ.answer σ.db <| (LoginView.post request email password e).run σ.db
  | .refresh i jti now days         =>
    match σ.answers[i]? with
    | none   => { σ with db := ((RefreshView.post none jti now days).run σ.db).snd }
    | some a => σ.answer a.login <| (RefreshView.post (some a.pair.refresh) jti now days).run σ.db
  | .subscribe u p t o              => { σ with db := ((SaasBackend.subscribe u p t o).run σ.db).snd }
  | .cancel u t o                   => { σ with db := ((SaasBackend.cancel u t o).run σ.db).snd }
  | .expireDueSubscriptions now os  => { σ with db := ((SaasBackend.expireDueSubscriptions now os).run σ.db).snd }
  | .setRole u role                 => { σ with db := ((SaasBackend.setRole u role).run σ.db).snd }

def run (σ : TokenHistory) (es : List Event) : TokenHistory :=
  es.foldl step σ

def Inv (σ : TokenHistory) : Prop :=
  ∀ a ∈ σ.answers, a.Descends

variable {σ : TokenHistory}

theorem Inv.answer {login : Database} {r : Except Exn TokenPair × Database} (h : σ.Inv)
    (hr : ∀ pair d, r = (.ok pair, d) → Answer.Descends ⟨pair, login, σ.db, d⟩) : (σ.answer login r).Inv := by
  obtain ⟨x, d⟩ := r
  cases x
  case error    => exact h
  case ok pair  =>
    intro a ha
    rcases List.mem_append.mp ha with ha | ha
    · exact h a ha
    · exact List.mem_singleton.mp ha ▸ hr pair d rfl

theorem Inv.step (h : σ.Inv) (event : Event) : (σ.step event).Inv := by
  cases event
  case login request email password e =>
    refine h.answer fun pair d hr => ?_
    obtain ⟨user, d₁, hv⟩ := LoginView.post_run_validate hr
    obtain ⟨ha, _, _, hc, hp⟩ := CustomTokenObtainPairSerializer.validate_run_claims hv
    obtain ⟨hm, _⟩ := ModelBackend.authenticate_eq_some ha
    have hl : σ.db.users.lookup (.user user.id) = some user := Table.lookup_eq_some.mpr ⟨hm, rfl⟩
    constructor
    case access   => exact hp
    case standing => exact (SameStanding.login ..).of_run_eq hr
    case role     => simp only [hc, CustomTokenObtainPairSerializer.claims, roleOf, hl, Option.map_some]
    case plan     =>
      simp only [hc, CustomTokenObtainPairSerializer.claims, planSlug]
      cases getActiveSubscription σ.db user.id <;> rfl
  case refresh i jti now days =>
    simp only [TokenHistory.step]
    split
    case h_1      => exact h
    case h_2 a hi =>
      refine h.answer fun pair d hr => ?_
      obtain ⟨t, ht, hc, hp⟩ := RefreshView.post_run_claims hr
      cases ht
      have ha := h a <| List.mem_of_getElem? hi
      constructor
      case access   =>
        rw [hp, RefreshToken.accessToken, RefreshToken.accessToken, hc]
      case standing => exact (SameStanding.refresh ..).of_run_eq hr
      case role     => exact hc ▸ ha.role
      case plan     => exact hc ▸ ha.plan
  all_goals exact h

theorem Inv.run (h : σ.Inv) (es : List Event) : (σ.run es).Inv := by
  induction es generalizing σ
  case nil              => exact h
  case cons event es hi => exact hi <| h.step event

end TokenHistory

-- An access token is current exactly if its user has not got another role or another plan since the login
-- from which it descends, whatever has been requested in between.
theorem claims_current_iff (d : Database) (es : List TokenHistory.Event) (a : Answer)
    (ha : a ∈ ((TokenHistory.start d).run es).answers) : a.IsCurrent ↔ a.IsUnchanged := by
  have hs : (TokenHistory.start d).Inv := fun a ha => absurd ha List.not_mem_nil
  exact (hs.run es a ha).isCurrent_iff

section Example

def exampleRefreshes : List TokenHistory.Event := [
  .login exampleRequest "user@example.com" "password" exampleLogin,
  .refresh 0 "second" (.midnight 739001) 7]

theorem refreshed_claims_current :
    ∃ a ∈ ((TokenHistory.start exampleAccounts).run exampleRefreshes).answers,
      a.pair.refresh.jti = "second" ∧ a.IsCurrent := by
  have h : ∃ a ∈ ((TokenHistory.start exampleAccounts).run exampleRefreshes).answers,
      a.pair.refresh.jti = "second" ∧
      roleOf a.before a.pair.access.claims.userId = roleOf a.login a.pair.access.claims.userId ∧
      planSlug a.before a.pair.access.claims.userId = planSlug a.login a.pair.access.claims.userId := by
    decide +kernel
  obtain ⟨a, ha, hj, hr, hp⟩ := h
  exact ⟨a, ha, hj, (claims_current_iff _ _ a ha).mpr ⟨hr, hp⟩⟩

-- A customer becomes an administrator before the token is refreshed.
def examplePromotion : List TokenHistory.Event := [
  .login exampleRequest "user@example.com" "password" exampleLogin,
  .setRole 1 .admin,
  .refresh 0 "second" (.midnight 739001) 7]

theorem refreshed_claims_stale :
    ¬∀ (d : Database) (es : List TokenHistory.Event), ∀ a ∈ ((TokenHistory.start d).run es).answers,
      a.IsCurrent := by
  intro h
  have h := h exampleAccounts examplePromotion
  have hn : ¬∀ a ∈ ((TokenHistory.start exampleAccounts).run examplePromotion).answers,
      roleOf a.after a.pair.access.claims.userId = some a.pair.access.claims.role := by
    decide +kernel
  exact hn fun a ha => (h a ha).role

end Example
end SaasBackend
