import SaasBackend.Authentication.Views
import SaasBackend.Statements

open Calendar ReadCommitted ReadCommitted.Service

namespace SaasBackend

open Service

-- The rows of the app `token_blacklist`.
def Row.isToken : Row → Bool
  | .outstandingToken _ | .blacklistedToken _ => true
  | _                                         => false

-- The user remains who they are, with the same address and the same rights.
def User.SameAccount (u u' : User) : Prop :=
  u' = { u with
    password    := u'.password
    firstName   := u'.firstName
    lastName    := u'.lastName
    lastLogin   := u'.lastLogin
    lastLoginAt := u'.lastLoginAt }

section Maintains

variable {I : Database → Database → Prop} [Std.Refl I] [IsTrans Database I]

theorem getOrCreate_maintains {r : Row} (h : ∀ d : Database, Accepts d ⟨none, r⟩ → I d (d.put r))
    (exists_ : Database → Bool) : (getOrCreate exists_ r).Maintains I := by
  apply Maintains.bind (Maintains.select _)
  intro found
  split
  case isTrue   => exact Maintains.pure _
  case isFalse  =>
    apply Maintains.handle (Maintains.atomic <| Maintains.create h)
    intro e
    split
    case h_2 => exact Maintains.raise _
    case h_1 =>
      apply Maintains.bind (Maintains.select _)
      intro found
      split
      case isTrue   => exact Maintains.pure _
      case isFalse  => exact Maintains.raise _

section Tokens

variable (ht : ∀ d r, r.isToken → Accepts d ⟨none, r⟩ → I d (d.put r))

namespace RefreshToken

theorem verify_maintains (presented : Presented) (now : Instant) :
    (verify presented now).Maintains I := by
  unfold verify
  split
  case h_1 => exact Maintains.raise _
  case h_2 =>
    split
    case isTrue   => exact Maintains.raise _
    case isFalse  =>
      apply Maintains.bind (Maintains.select _)
      intro found
      split
      case isTrue   => exact Maintains.raise _
      case isFalse  => exact Maintains.pure _

include ht

theorem blacklist_maintains (t : RefreshToken) : t.blacklist.Maintains I :=
  Maintains.bind (getOrCreate_maintains (fun d => ht d _ rfl) _) fun _ =>
    getOrCreate_maintains (fun d => ht d _ rfl) _

theorem forUser_maintains (claims : Claims) (jti : String) (now : Instant) (days : Nat) :
    (forUser claims jti now days).Maintains I :=
  Maintains.bind (Maintains.ofExcept _) fun _ =>
    Maintains.bind (Maintains.create fun d => ht d _ rfl) fun _ => Maintains.pure _

theorem rotate_maintains (presented : Presented) (jti : String) (now : Instant) (days : Nat) :
    (rotate presented jti now days).Maintains I :=
  Maintains.bind (verify_maintains ..) fun _ =>
    Maintains.bind (blacklist_maintains ht _) fun _ =>
      Maintains.bind (Maintains.ofExcept _) fun _ => Maintains.pure _

end RefreshToken

include ht in
theorem RefreshView.post_maintains (presented : Presented) (jti : String) (now : Instant) (days : Nat) :
    (post presented jti now days).Maintains I := by
  apply Maintains.handle (RefreshToken.rotate_maintains ht ..)
  intro e
  split <;> exact Maintains.raise _

omit [IsTrans Database I] in
theorem revoke_maintains (hs : ∀ d s, I d (d.put <| .session s)) (session : UserSession)
    (revokedAt : Instant) : (revoke session revokedAt).Maintains I :=
  Maintains.save (fun _ => rfl) fun d _ _ => hs d _

theorem revokeSession_maintains (hs : ∀ d s, I d (d.put <| .session s)) (user sessionId : Uuid)
    (revokedAt : Instant) : (revokeSession user sessionId revokedAt).Maintains I := by
  apply Maintains.bind (Maintains.select _)
  intro session
  cases session
  case none   => exact Maintains.raise _
  case some s =>
    simp only
    split
    case isTrue   => exact Maintains.raise _
    case isFalse  => exact revoke_maintains hs ..

include ht in
theorem logout_maintains (hs : ∀ d s, I d (d.put <| .session s)) (presented : Presented)
    (now revokedAt : Instant) : (logout presented now revokedAt).Maintains I := by
  refine Maintains.bind (Maintains.handle (RefreshToken.verify_maintains ..) fun e => ?_) fun t => ?_
  · split <;> exact Maintains.raise _
  · apply Maintains.bind (RefreshToken.blacklist_maintains ht t)
    intro _
    apply Maintains.bind (Maintains.select _)
    intro session
    cases session
    case none   => exact Maintains.pure _
    case some s => exact revoke_maintains hs ..

section Users

variable (hu : ∀ d u u', User.SameAccount u u' → Accepts d ⟨some <| .user u, .user u'⟩ →
  I d (d.put <| .user u'))

include ht hu

theorem CustomTokenObtainPairSerializer.validate_maintains (email password : String) (e : LoginEnv) :
    (validate email password e).Maintains I := by
  unfold validate
  simp only
  split
  case isTrue   => exact Maintains.raise _
  case isFalse  =>
    apply Maintains.bind (Maintains.select _)
    intro user
    cases user
    case none   => exact Maintains.raise _
    case some u =>
      apply Maintains.bind (Maintains.select _)
      intro claims
      apply Maintains.bind (RefreshToken.forUser_maintains ht ..)
      intro _
      refine Maintains.bind (Maintains.save (fun _ => rfl) fun d _ => hu d _ _ rfl) fun _ => ?_
      split
      case isTrue   => exact Maintains.raise _
      case isFalse  =>
        split
        case isTrue   => exact Maintains.raise _
        case isFalse  => exact Maintains.pure _

theorem LoginView.post_maintains (hs : ∀ d s, I d (d.put <| .session s)) (request : HttpRequest)
    (email password : String) (e : LoginEnv) : (post request email password e).Maintains I := by
  refine Maintains.bind ?_ fun (user, data) => ?_
  · exact CustomTokenObtainPairSerializer.validate_maintains ht hu ..
  · apply Maintains.bind (RefreshToken.verify_maintains ..)
    intro _
    refine Maintains.bind ?_ fun _ => Maintains.bind ?_ fun _ => Maintains.pure _
    · exact Maintains.bind (Maintains.create fun d _ => hs d _) fun _ => Maintains.pure _
    · exact Maintains.save (fun _ => rfl) fun d _ => hu d _ _ rfl

end Users
end Tokens
end Maintains

section Run

variable {d d' : Database} {t t' : RefreshToken} {now : Instant}

theorem RefreshToken.isBlacklisted_iff {jti : String} :
    isBlacklisted jti d ↔ ⟨jti⟩ ∈ d.blacklistedTokens := by
  unfold isBlacklisted
  rw [Option.isSome_iff_exists]
  constructor
  case mp =>
    intro ⟨b, hb⟩
    have ⟨hm, hk⟩ := Table.lookup_eq_some.mp hb
    have hj : b.jti = jti := Key.blacklistedToken.inj hk
    exact hj ▸ hm
  case mpr => exact fun h => ⟨_, Table.lookup_eq_some.mpr ⟨h, rfl⟩⟩

-- No write removes a token from the blacklist.
theorem RefreshToken.isBlacklisted_put {jti : String} (h : isBlacklisted jti d) (r : Row) :
    isBlacklisted jti (d.put r) := by
  cases r
  case blacklistedToken b =>
    have hm := isBlacklisted_iff.mp h
    refine isBlacklisted_iff.mpr <| Table.mem_put.mpr ?_
    by_cases hk : jti = b.jti
    case pos => exact .inl <| hk ▸ rfl
    case neg => exact .inr ⟨hm, fun h => hk <| Key.blacklistedToken.inj h⟩
  all_goals exact h

namespace RefreshToken

theorem verify_run (t : RefreshToken) (now : Instant) (d : Database) :
    (verify (some t) now).run d =
      (if now < t.exp ∧ ¬isBlacklisted t.jti d then .ok t else .error .tokenError, d) := by
  unfold verify
  by_cases he : t.exp ≤ now
  case pos => simp [he, not_lt.mpr he]
  case neg =>
    have he' : now < t.exp := not_le.mp he
    simp only [he, if_false, run_bind, run_select]
    cases hb : isBlacklisted t.jti d <;> simp [he']

theorem verify_run_eq_ok :
    (verify (some t) now).run d = (.ok t', d') ↔
      now < t.exp ∧ ¬isBlacklisted t.jti d ∧ t = t' ∧ d = d' := by
  rw [verify_run]
  split
  case isTrue h   => simp [h]
  case isFalse h  =>
    constructor
    case mp   => exact fun h => by cases h
    case mpr  => exact fun ⟨he, hb, _⟩ => (h ⟨he, hb⟩).elim

end RefreshToken

theorem RefreshToken.forUser_run_eq_ok {claims : Claims} {jti : String} {days : Nat}
    (h : (forUser claims jti now days).run d = (.ok t, d')) : t.jti = jti ∧ t.claims = claims := by
  have ⟨_, _, _, h⟩ := run_bind_eq_ok.mp h
  have ⟨_, _, _, h⟩ := run_bind_eq_ok.mp h
  cases h
  exact ⟨rfl, rfl⟩

theorem getOrCreate_run (exists_ : Database → Bool) (r : Row) (d : Database) :
    (getOrCreate exists_ r).run d =
      if exists_ d then (.ok (), d)
      else
        match (create r).run d with
        | (.ok _, d')     => (.ok (), d')
        | (.error e, _)   => (.error e, d) := by
  rw [getOrCreate, run_bind, run_select]
  dsimp only
  split
  case isTrue     => rfl
  case isFalse he =>
    rw [run_handle, run_atomic]
    cases hr : (create r).run d
    case mk x d' =>
      cases x
      case ok     => rfl
      case error e  => cases e <;> simp [run_bind, he]

theorem getOrCreate_run_of_exists {exists_ : Database → Bool} {r : Row} (h : exists_ d) :
    (getOrCreate exists_ r).run d = (.ok (), d) := by
  rw [getOrCreate_run, if_pos h]

theorem getOrCreate_run_of_create {exists_ : Database → Bool} {r : Row} (h : ¬exists_ d)
    (hc : (create r).run d = (.ok (), d')) : (getOrCreate exists_ r).run d = (.ok (), d') := by
  rw [getOrCreate_run, if_neg h, hc]

theorem getOrCreate_run_eq_ok {exists_ : Database → Bool} {r : Row}
    (h : (getOrCreate exists_ r).run d = (.ok (), d')) : exists_ d' ∨ d' = d.put r := by
  rw [getOrCreate_run] at h
  split at h
  case isTrue he => cases h; exact .inl he
  case isFalse   =>
    split at h
    case h_1 d₁ hc  => cases h; exact .inr (run_create_eq_ok hc).right
    case h_2        => cases h

namespace RefreshToken

theorem isBlacklisted_of_blacklist (h : t.blacklist.run d = (.ok (), d')) :
    isBlacklisted t.jti d' := by
  have ⟨_, d₁, _, h⟩ := run_bind_eq_ok.mp h
  cases getOrCreate_run_eq_ok h
  case inl hb => exact hb
  case inr hd => exact isBlacklisted_iff.mpr <| hd ▸ Table.mem_put_self ..

-- A token can be blacklisted if it is not yet.
theorem blacklist_run (h : ¬isBlacklisted t.jti d) : ∃ d', t.blacklist.run d = (.ok (), d') := by
  have hb : ∀ d₁ : Database, d₁.blacklistedTokens = d.blacklistedTokens →
      ∃ d', (getOrCreate (isBlacklisted t.jti) (.blacklistedToken ⟨t.jti⟩)).run d₁ = (.ok (), d') := by
    intro d₁ hd
    have hn : ¬isBlacklisted t.jti d₁ := by simpa [isBlacklisted, hd] using h
    refine ⟨_, getOrCreate_run_of_create hn <| run_create_of_fits rfl (fun b hb hk => hn ?_) ?_⟩
    · exact isBlacklisted_iff.mpr <| (Key.blacklistedToken.inj hk : b.jti = t.jti) ▸ hb
    · exact fun _ _ _ hk => by cases hk
  by_cases ho : isOutstanding t.jti d
  case pos =>
    obtain ⟨d', hd'⟩ := hb d rfl
    exact ⟨d', run_bind_eq_ok.mpr ⟨_, _, getOrCreate_run_of_exists ho, hd'⟩⟩
  case neg =>
    have hc : (create <| .outstandingToken ⟨t.jti, none, t.exp⟩).run d =
        (.ok (), d.put <| .outstandingToken ⟨t.jti, none, t.exp⟩) :=
      run_create_of_fits rfl
        (fun o ho' hk => ho <| Option.isSome_iff_exists.mpr ⟨o, Table.lookup_eq_some.mpr ⟨ho', hk⟩⟩)
        (fun _ _ _ hk => by cases hk)
    obtain ⟨d', hd'⟩ := hb (d.put <| .outstandingToken ⟨t.jti, none, t.exp⟩) rfl
    exact ⟨d', run_bind_eq_ok.mpr ⟨_, _, getOrCreate_run_of_create ho hc, hd'⟩⟩

end RefreshToken

theorem RefreshToken.expiry_eq_ok {days : Nat} {exp : Instant} :
    expiry now days = .ok exp ↔ now.addDays days = some exp := by
  unfold expiry
  cases now.addDays days <;> simp

namespace RefreshView

variable {jti : String} {days : Nat}

theorem post_run_eq_ok {pair : TokenPair}
    (h : (post (some t) jti now days).run d = (.ok pair, d')) :
    (now < t.exp ∧ ¬RefreshToken.isBlacklisted t.jti d ∧ (now.addDays days).isSome) ∧
    pair.refresh.jti = jti ∧ RefreshToken.isBlacklisted t.jti d' := by
  rw [post, run_handle] at h
  split at h
  case h_2 => split at h <;> cases h
  case h_1 hr =>
    cases h
    have ⟨t₁, d₁, h₁, h⟩ := run_bind_eq_ok.mp hr
    have ⟨_, d₂, h₂, h⟩ := run_bind_eq_ok.mp h
    have ⟨exp, d₃, h₃, h⟩ := run_bind_eq_ok.mp h
    have ⟨he, hb, ht, hd⟩ := RefreshToken.verify_run_eq_ok.mp h₁
    have ⟨hx, h₃⟩ := run_ofExcept_eq_ok.mp h₃
    have hx := RefreshToken.expiry_eq_ok.mp hx
    subst ht hd h₃
    cases h
    exact ⟨⟨he, hb, by rw [hx]; rfl⟩, rfl, RefreshToken.isBlacklisted_of_blacklist h₂⟩

-- The claims of a token are those of the token for which it is exchanged.
theorem post_run_claims {presented : Presented} {pair : TokenPair}
    (h : (post presented jti now days).run d = (.ok pair, d')) :
    ∃ t ∈ presented, pair.refresh.claims = t.claims ∧ pair.access = t.accessToken := by
  rw [post, run_handle] at h
  split at h
  case h_2 => split at h <;> cases h
  case h_1 hr =>
    cases h
    cases presented
    case none   => cases hr
    case some t =>
      have ⟨t₁, d₁, h₁, h⟩ := run_bind_eq_ok.mp hr
      have ⟨_, d₂, h₂, h⟩ := run_bind_eq_ok.mp h
      have ⟨exp, d₃, h₃, h⟩ := run_bind_eq_ok.mp h
      have ⟨_, _, ht, _⟩ := RefreshToken.verify_run_eq_ok.mp h₁
      cases h
      exact ⟨t, rfl, ht ▸ rfl, ht ▸ rfl⟩

theorem post_run (he : now < t.exp) (hb : ¬RefreshToken.isBlacklisted t.jti d)
    (hd : (now.addDays days).isSome) (jti : String) :
    ∃ pair d', (post (some t) jti now days).run d = (.ok pair, d') := by
  have ⟨d', hr⟩ := RefreshToken.blacklist_run hb
  have ⟨exp, hx⟩ := Option.isSome_iff_exists.mp hd
  have hv := RefreshToken.verify_run_eq_ok.mpr ⟨he, hb, rfl, rfl⟩
  have hr : (RefreshToken.rotate (some t) jti now days).run d =
      (.ok ⟨{ t with jti := jti, exp := exp }, t.accessToken⟩, d') :=
    run_bind_eq_ok.mpr ⟨_, _, hv, run_bind_eq_ok.mpr ⟨_, _, hr, run_bind_eq_ok.mpr
      ⟨exp, d', run_ofExcept_eq_ok.mpr ⟨RefreshToken.expiry_eq_ok.mpr hx, rfl⟩, rfl⟩⟩⟩
  exact ⟨_, d', by rw [post, run_handle, hr]⟩

-- Exactly the tokens which have neither expired nor been blacklisted are accepted, as long as an
-- expiry can be represented for the next one.
theorem post_isOk_iff :
    ((post (some t) jti now days).run d).fst.isOk ↔
      now < t.exp ∧ ¬RefreshToken.isBlacklisted t.jti d ∧ (now.addDays days).isSome := by
  constructor
  case mp =>
    intro h
    cases hr : (post (some t) jti now days).run d
    case mk x d' =>
      cases x
      case error    => simp [hr, Except.isOk, Except.toBool] at h
      case ok pair  => exact (post_run_eq_ok hr).left
  case mpr =>
    intro ⟨he, hb, hd⟩
    have ⟨_, _, hr⟩ := post_run he hb hd jti
    rw [hr]
    rfl

end RefreshView

section Login

theorem Row.put_isToken {r : Row} (h : r.isToken) (d : Database) :
    Preserved (·.sessions) d (d.put r) := by
  cases r <;> first | rfl | cases h

theorem ModelBackend.authenticate_eq_some {email password : String} {u : User}
    (h : authenticate d email password = some u) :
    u ∈ d.users ∧ u.email = email ∧ u.password = ⟨password⟩ ∧ u.isActive := by
  have ⟨hf, hu⟩ := Option.filter_eq_some_iff.mp h
  have ⟨hp, ha⟩ := of_decide_eq_true hu
  exact ⟨List.mem_of_find?_eq_some hf, by simpa using List.find?_some hf, hp, ha⟩

namespace CustomTokenObtainPairSerializer

variable {email password : String} {e : LoginEnv} {user : User} {data : TokenPair}

-- A login yields tokens with the current claims, for an account which is active and verified.
theorem validate_run_claims (h : (validate email password e).run d = (.ok (user, data), d')) :
    ModelBackend.authenticate d (Text.strip email) (Text.strip password) = some user ∧
    user.isVerified ∧ data.refresh.jti = e.jti ∧ data.refresh.claims = claims d user ∧
    data.access = data.refresh.accessToken := by
  unfold validate at h
  simp only at h
  split at h
  case isTrue => cases h
  case isFalse =>
    have ⟨found, d₁, h₁, h⟩ := run_bind_eq_ok.mp h
    have ⟨hf, hd⟩ := run_select_eq_ok.mp h₁
    subst hd
    cases found
    case none => cases h
    case some u =>
      have ⟨_, d₂, h₂, h⟩ := run_bind_eq_ok.mp h
      have ⟨hc, hd⟩ := run_select_eq_ok.mp h₂
      subst hd hc
      have ⟨refresh, d₃, h₃, h⟩ := run_bind_eq_ok.mp h
      have ⟨_, d₄, _, h⟩ := run_bind_eq_ok.mp h
      have ⟨hj, hc⟩ := RefreshToken.forUser_run_eq_ok h₃
      split at h
      case isTrue => cases h
      case isFalse =>
        split at h
        case isTrue     => cases h
        case isFalse hv => cases h; exact ⟨hf, by simpa using hv, hj, hc, rfl⟩

theorem validate_run_eq_ok (h : (validate email password e).run d = (.ok (user, data), d')) :
    data.refresh.jti = e.jti ∧ d'.sessions = d.sessions :=
  ⟨(validate_run_claims h).right.right.left,
   (validate_maintains (fun d _ hr _ => Row.put_isToken hr d) (fun _ _ _ _ _ => rfl) ..).of_run_eq h⟩

-- A login of an active and verified user succeeds, if the tokens can be issued.
theorem validate_run
    (ha : ModelBackend.authenticate d (Text.strip email) (Text.strip password) = some user)
    (he : Text.strip email ≠ "") (hp : Text.strip password ≠ "") (hv : user.isVerified)
    (hf : (Row.user user).fits) (hx : (e.now.addDays e.days).isSome)
    (hj : ¬RefreshToken.isOutstanding e.jti d) :
    ∃ data, ((validate email password e).run d).fst = .ok (user, data) := by
  have ⟨hm, _, _, hact⟩ := ModelBackend.authenticate_eq_some ha
  have ⟨exp, hx⟩ := Option.isSome_iff_exists.mp hx
  let refresh : RefreshToken := ⟨e.jti, exp, claims d user⟩
  let issued := d.put <| .outstandingToken ⟨e.jti, some user.id, exp⟩
  have hc : (create <| .outstandingToken ⟨e.jti, some user.id, exp⟩).run d = (.ok (), issued) :=
    run_create_of_fits rfl
      (fun o ho hk => hj <| Option.isSome_iff_exists.mpr ⟨o, Table.lookup_eq_some.mpr ⟨ho, hk⟩⟩)
      (fun _ _ _ hk => by cases hk)
  have hr : (RefreshToken.forUser (claims d user) e.jti e.now e.days).run d = (.ok refresh, issued) :=
    run_bind_eq_ok.mpr ⟨exp, d, run_ofExcept_eq_ok.mpr ⟨RefreshToken.expiry_eq_ok.mpr hx, rfl⟩,
      run_bind_eq_ok.mpr ⟨(), issued, hc, rfl⟩⟩
  have hl : issued.users.lookup (.user user.id) = some user := Table.lookup_eq_some.mpr ⟨hm, rfl⟩
  let saved := issued.put <| .user { user with lastLogin := some e.lastLogin }
  have hs : (save Database.users .user (.user user.id) fun u =>
      { u with lastLogin := some e.lastLogin }).run issued = (.ok (), saved) :=
    run_save hl hf (List.Subset.refl _)
  suffices ∃ d', (validate email password e).run d = (.ok (user, ⟨refresh, refresh.accessToken⟩), d') by
    have ⟨d', hd⟩ := this
    exact ⟨_, congrArg Prod.fst hd⟩
  unfold validate
  simp only [he, hp, or_self, if_false]
  refine ⟨saved, run_bind_eq_ok.mpr ⟨_, d, run_select_eq_ok.mpr ⟨ha, rfl⟩, ?_⟩⟩
  refine run_bind_eq_ok.mpr ⟨_, d, run_select_eq_ok.mpr ⟨rfl, rfl⟩, ?_⟩
  refine run_bind_eq_ok.mpr ⟨_, _, hr, run_bind_eq_ok.mpr ⟨_, _, hs, ?_⟩⟩
  simp only [hact, hv, Bool.not_true, Bool.false_eq_true, if_false, run_pure]

end CustomTokenObtainPairSerializer

-- The session `s` is opened by the login `e` which returned the token `t`.
structure Opened (e : LoginEnv) (s : UserSession) (t : RefreshToken) (d d' : Database) : Prop where
  jti         : t.jti = e.jti
  id          : s.id = e.sessionId
  refreshJti  : s.refreshJti = e.jti
  active      : s.revokedAt = none
  fits        : (Row.session s).fits
  new         : ∀ r ∈ d.sessions, r.id ≠ e.sessionId
  fresh       : ∀ r ∈ d.sessions, r.refreshJti ≠ e.jti
  sessions    : d'.sessions = d.sessions.put s
  valid       : ¬RefreshToken.isBlacklisted e.jti d'

theorem recordSession_run_eq_ok {user id : Uuid} {userAgent ipAddress : String} {s : UserSession}
    (h : (recordSession user t userAgent ipAddress id).run d = (.ok s, d')) :
    s.id = id ∧ s.refreshJti = t.jti ∧ s.revokedAt = none ∧ (Row.session s).fits ∧
    Accepts d (⟨none, .session s⟩ : Write) ∧ d' = d.put (.session s) := by
  have ⟨_, _, hc, h⟩ := run_bind_eq_ok.mp h
  cases h
  exact ⟨rfl, rfl, rfl, fits_of_run_create hc, run_create_eq_ok hc⟩

theorem LoginView.post_run_validate {request : HttpRequest} {email password : String} {e : LoginEnv}
    {pair : TokenPair} (h : (post request email password e).run d = (.ok pair, d')) :
    ∃ user d₁, (CustomTokenObtainPairSerializer.validate email password e).run d =
      (.ok (user, pair), d₁) := by
  have ⟨⟨user, data⟩, d₁, h₁, h⟩ := run_bind_eq_ok.mp h
  have ⟨_, _, _, h⟩ := run_bind_eq_ok.mp h
  have ⟨_, _, _, h⟩ := run_bind_eq_ok.mp h
  have ⟨_, _, _, h⟩ := run_bind_eq_ok.mp h
  cases h
  exact ⟨user, d₁, h₁⟩

theorem LoginView.post_run_eq_ok {request : HttpRequest} {email password : String} {e : LoginEnv}
    {pair : TokenPair} (h : (post request email password e).run d = (.ok pair, d')) :
    ∃ s, Opened e s pair.refresh d d' := by
  have ⟨⟨user, data⟩, d₁, h₁, h⟩ := run_bind_eq_ok.mp h
  have ⟨t, d₂, h₂, h⟩ := run_bind_eq_ok.mp h
  have ⟨s, d₃, h₃, h⟩ := run_bind_eq_ok.mp h
  have ⟨_, d₄, h₄, h⟩ := run_bind_eq_ok.mp h
  have ⟨hj, hd⟩ := CustomTokenObtainPairSerializer.validate_run_eq_ok h₁
  have ⟨_, hb, ht, hd₂⟩ := RefreshToken.verify_run_eq_ok.mp h₂
  have ⟨hi, hr, hn, hf, ha, hd₃⟩ := recordSession_run_eq_ok h₃
  have ⟨_, _, _, hd₄⟩ := run_save_eq_ok h₄
  cases h
  subst ht hd₂ hd₃ hd₄
  refine ⟨s, hj, hi, hr.trans hj, hn, hf, fun r hm hk => ?_, fun r hm hk => ?_,
    congrArg (Table.put · s) hd, hj ▸ hb⟩
  · exact accepts_new ha r (hd ▸ hm) <| congrArg Key.session <| hk.trans hi.symm
  · exact accepts_fresh ha r (hd ▸ hm) _ List.mem_cons_self <|
      List.mem_singleton.mpr <| congrArg Key.refreshJti <| (hr.trans hj).trans hk.symm

end Login

section Logout

theorem findOpenSession_eq_some {jti : String} {s : UserSession} (h : findOpenSession d jti = some s) :
    s ∈ d.sessions ∧ s.refreshJti = jti ∧ s.revokedAt = none :=
  ⟨List.mem_of_find?_eq_some h, by simpa using List.find?_some h⟩

theorem findSession_eq_some {id user : Uuid} {s : UserSession} (h : findSession d id user = some s) :
    s ∈ d.sessions ∧ s.id = id ∧ s.userId = user :=
  ⟨List.mem_of_find?_eq_some h, by simpa using List.find?_some h⟩

-- A logout with a token that has expired or been blacklisted is refused.
theorem logout_run_of_refused (h : ¬(now < t.exp ∧ ¬RefreshToken.isBlacklisted t.jti d))
    (revokedAt : Instant) : ((logout (some t) now revokedAt).run d).snd = d := by
  simp only [logout, run_bind, run_handle, RefreshToken.verify_run, h, if_false, run_raise]

theorem logout_run (he : now < t.exp) (hb : ¬RefreshToken.isBlacklisted t.jti d)
    (revokedAt : Instant) :
    ∃ d₁ : Database, d₁.sessions = d.sessions ∧ RefreshToken.isBlacklisted t.jti d₁ ∧
      (logout (some t) now revokedAt).run d =
        match findOpenSession d t.jti with
        | some s => (revoke s revokedAt).run d₁
        | none   => (.ok (), d₁) := by
  have ⟨d₁, h₁⟩ := RefreshToken.blacklist_run hb
  have hd : d₁.sessions = d.sessions :=
    (RefreshToken.blacklist_maintains (fun d _ hr _ => Row.put_isToken hr d) t).of_run_eq h₁
  refine ⟨d₁, hd, RefreshToken.isBlacklisted_of_blacklist h₁, ?_⟩
  have hv : (RefreshToken.verify (some t) now).run d = (.ok t, d) :=
    RefreshToken.verify_run_eq_ok.mpr ⟨he, hb, rfl, rfl⟩
  have hs : findOpenSession d₁ t.jti = findOpenSession d t.jti := by
    rw [findOpenSession, hd, findOpenSession]
  rw [logout, run_bind, run_handle, hv]
  dsimp only
  rw [run_bind, h₁]
  dsimp only
  rw [run_bind, run_select, hs]
  cases findOpenSession d t.jti <;> rfl

-- Only a session with the presented token is revoked by a logout.
theorem mem_logout_run {s : UserSession} (hs : s ∈ d.sessions) (hj : s.refreshJti ≠ t.jti)
    (now revokedAt : Instant) : s ∈ ((logout (some t) now revokedAt).run d).snd.sessions := by
  by_cases h : now < t.exp ∧ ¬RefreshToken.isBlacklisted t.jti d
  case neg => exact (logout_run_of_refused h revokedAt).symm ▸ hs
  case pos =>
    have ⟨d₁, hd, _, hr⟩ := logout_run h.left h.right revokedAt
    rw [hr]
    cases hf : findOpenSession d t.jti
    case none     => exact hd.symm ▸ hs
    case some s'  =>
      have ⟨hs', hj', _⟩ := findOpenSession_eq_some hf
      refine mem_run_save (fun _ => rfl) (hd.symm ▸ hs) fun hk => hj ?_
      rw [Table.eq_of_key hs hs' hk, hj']

end Logout

end Run
end SaasBackend
