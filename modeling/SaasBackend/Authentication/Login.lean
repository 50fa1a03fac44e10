import SaasBackend.Authentication.Sessions

open Calendar ReadCommitted ReadCommitted.Service

namespace SaasBackend

open Service

-- The credentials are those of the user, and a token is stored for them.
structure Mints (email password : String) (e : LoginEnv) (user : User) (d : Database) : Prop where
  nonblank    : Text.strip email ≠ "" ∧ Text.strip password ≠ ""
  credentials : ModelBackend.authenticate d (Text.strip email) (Text.strip password) = some user
  expiry      : (e.now.addDays e.days).isSome
  jti         : ¬RefreshToken.isOutstanding e.jti d

-- What is required of the account, the address of the client and the generated ids after that.
structure Completes (request : HttpRequest) (e : LoginEnv) (user : User) (d : Database) : Prop where
  verified  : user.isVerified
  address   : clientIp request = "" ∨ Text.isIpAddress (clientIp request)
  stored    : (Row.user user).fits
  unexpired : ∀ exp, e.now.addDays e.days = some exp → e.now < exp
  valid     : ¬RefreshToken.isBlacklisted e.jti d
  length    : e.jti.length ≤ 64
  fresh     : ∀ s ∈ d.sessions, s.id ≠ e.sessionId ∧ s.refreshJti ≠ e.jti

-- A login either is answered with a token for which there is exactly one new session, or it leaves no
-- trace.
def RecordedOrUnchanged (request : HttpRequest) (email password : String) (e : LoginEnv)
    (d : Database) : Prop :=
  match (LoginView.post request email password e).run d with
  | (.ok pair, d')  => ∃ s, s ∉ d.sessions ∧ s.refreshJti = pair.refresh.jti ∧
                        ∀ r, r ∈ d'.sessions ↔ r = s ∨ r ∈ d.sessions
  | (.error _, d')  => d' = d

namespace LoginView

variable {request : HttpRequest} {email password : String} {e : LoginEnv} {user : User} {d d' : Database}

-- What is left of the validation once the token is stored.
def settle (e : LoginEnv) (user : User) (refresh : RefreshToken) : Service (User × TokenPair) := do
  save Database.users .user (.user user.id) fun u => { u with lastLogin := some e.lastLogin }
  if !user.isActive then
    raise <| .authenticationFailed "Account is disabled." "account_disabled"
  else if !user.isVerified then
    raise <| .authenticationFailed
      "Email not verified. Please verify your email before logging in." "email_not_verified"
  else
    return (user, ⟨refresh, refresh.accessToken⟩)

-- What follows the validation.
def record (request : HttpRequest) (e : LoginEnv) (x : User × TokenPair) : Service TokenPair := do
  let refresh ← RefreshToken.verify (some x.2.refresh) e.now
  let _ ← recordSession x.1.id refresh ((request.header "HTTP_USER_AGENT").getD "")
    (clientIp request) e.sessionId
  save Database.users .user (.user x.1.id) fun u => { u with lastLoginAt := some e.lastLoginAt }
  return x.2

theorem post_eq : post request email password e =
    (CustomTokenObtainPairSerializer.validate email password e >>= record request e) := by
  rfl

def mintedToken (e : LoginEnv) (user : User) (exp : Instant) (d : Database) : RefreshToken :=
  ⟨e.jti, exp, CustomTokenObtainPairSerializer.claims d user⟩

def minted (e : LoginEnv) (user : User) (exp : Instant) (d : Database) : Database :=
  d.put <| .outstandingToken ⟨e.jti, some user.id, exp⟩

theorem validate_run_of_mints (h : Mints email password e user d) :
    ∃ exp, e.now.addDays e.days = some exp ∧
      (CustomTokenObtainPairSerializer.validate email password e).run d =
        (settle e user <| mintedToken e user exp d).run (minted e user exp d) := by
  have ⟨exp, hx⟩ := Option.isSome_iff_exists.mp h.expiry
  refine ⟨exp, hx, ?_⟩
  have hc : (create <| .outstandingToken ⟨e.jti, some user.id, exp⟩).run d = (.ok (), minted e user exp d) :=
    run_create_of_fits rfl
      (fun o ho hk => h.jti <| Option.isSome_iff_exists.mpr ⟨o, Table.lookup_eq_some.mpr ⟨ho, hk⟩⟩)
      (fun _ _ _ hk => by cases hk)
  have hr : (RefreshToken.forUser (CustomTokenObtainPairSerializer.claims d user) e.jti e.now e.days).run d =
      (.ok <| mintedToken e user exp d, minted e user exp d) :=
    run_bind_eq_ok.mpr ⟨exp, d, run_ofExcept_eq_ok.mpr ⟨RefreshToken.expiry_eq_ok.mpr hx, rfl⟩,
      run_bind_eq_ok.mpr ⟨(), minted e user exp d, hc, rfl⟩⟩
  unfold CustomTokenObtainPairSerializer.validate
  simp only [h.nonblank.left, h.nonblank.right, or_self, if_false]
  rw [run_bind, run_select, h.credentials]
  dsimp only
  rw [run_bind, run_select]
  dsimp only
  rw [run_bind_of_ok hr]
  rfl

theorem mints_of_forUser {claims : Claims} {jti : String} {now : Instant} {days : Nat} {t : RefreshToken}
    (h : (RefreshToken.forUser claims jti now days).run d = (.ok t, d')) :
    (now.addDays days).isSome ∧ ¬RefreshToken.isOutstanding jti d := by
  have ⟨exp, d₁, h₁, h⟩ := run_bind_eq_ok.mp h
  have ⟨_, d₂, h₂, h⟩ := run_bind_eq_ok.mp h
  have ⟨hx, hd⟩ := run_ofExcept_eq_ok.mp h₁
  subst hd
  have ⟨ha, _⟩ := run_create_eq_ok h₂
  refine ⟨by simp [RefreshToken.expiry_eq_ok.mp hx], fun hj => ?_⟩
  have ⟨o, ho⟩ := Option.isSome_iff_exists.mp hj
  have ⟨ho, hk⟩ := Table.lookup_eq_some.mp ho
  exact accepts_new ha o ho hk

theorem forUser_run_eq_error {claims : Claims} {jti : String} {now : Instant} {days : Nat} {x : Exn}
    (h : (RefreshToken.forUser claims jti now days).run d = (.error x, d')) : d' = d := by
  cases run_bind_eq_error.mp h
  case inl h => exact run_ofExcept_eq_error h
  case inr h =>
    have ⟨exp, d₁, h₁, h⟩ := h
    have ⟨_, hd⟩ := run_ofExcept_eq_ok.mp h₁
    subst hd
    cases run_bind_eq_error.mp h
    case inl h => exact run_create_eq_error h
    case inr h => have ⟨_, _, _, h⟩ := h; cases h

theorem post_run_of_not_mints (request : HttpRequest) (h : ∀ user, ¬Mints email password e user d) :
    ∃ x, (post request email password e).run d = (.error x, d) := by
  suffices ∃ x, (CustomTokenObtainPairSerializer.validate email password e).run d = (.error x, d) by
    have ⟨x, hx⟩ := this
    exact ⟨x, run_bind_of_error _ hx⟩
  unfold CustomTokenObtainPairSerializer.validate
  dsimp only
  by_cases hb : Text.strip email = "" ∨ Text.strip password = ""
  case pos => exact ⟨.invalidInput, by simp only [hb, if_true, run_raise]⟩
  case neg =>
    simp only [hb, if_false]
    rw [run_bind, run_select]
    dsimp only
    cases hu : ModelBackend.authenticate d (Text.strip email) (Text.strip password)
    case none       => exact ⟨.noActiveAccount, run_raise ..⟩
    case some user  =>
      dsimp only
      rw [run_bind, run_select]
      dsimp only
      cases hr : (RefreshToken.forUser (CustomTokenObtainPairSerializer.claims d user) e.jti e.now e.days).run d
      case mk r d' =>
        cases r
        case error x  =>
          have hd := forUser_run_eq_error hr
          exact ⟨x, run_bind_of_error _ <| hr.trans <| by rw [hd]⟩
        case ok t     =>
          have ⟨hx, hj⟩ := mints_of_forUser hr
          exact (h user ⟨not_or.mp hb, hu, hx, hj⟩).elim

theorem isOutstanding_iff {jti : String} :
    RefreshToken.isOutstanding jti d ↔ ∃ t ∈ d.outstandingTokens, t.jti = jti := by
  simp [RefreshToken.isOutstanding, Option.isSome_iff_exists, Table.lookup_eq_some, Entity.key]

theorem isOutstanding_put {jti : String} (h : RefreshToken.isOutstanding jti d) (r : Row) :
    RefreshToken.isOutstanding jti (d.put r) := by
  cases r
  case outstandingToken n =>
    have ⟨t, ht, hj⟩ := isOutstanding_iff.mp h
    have ⟨t', ht', hk⟩ := Table.exists_mem_put n ht
    exact isOutstanding_iff.mpr ⟨t', ht', (Key.outstandingToken.inj hk).trans hj⟩
  all_goals exact h

theorem settle_maintains (user : User) (refresh : RefreshToken) :
    (settle e user refresh).Maintains (Kept (RefreshToken.isOutstanding e.jti ·)) := by
  apply Maintains.bind
  case h  => exact Maintains.save (fun _ => rfl) fun d _ _ h => isOutstanding_put h _
  case hf =>
    intro _
    split
    case isTrue   => exact Maintains.raise _
    case isFalse  => split <;> first | exact Maintains.raise _ | exact Maintains.pure _

theorem record_maintains (x : User × TokenPair) :
    (record request e x).Maintains (Kept (RefreshToken.isOutstanding e.jti ·)) := by
  refine Maintains.bind (RefreshToken.verify_maintains ..) fun _ => Maintains.bind ?_ fun _ => ?_
  · exact Maintains.bind (Maintains.create fun d _ h => isOutstanding_put h _) fun _ => Maintains.pure _
  · exact Maintains.bind (Maintains.save (fun _ => rfl) fun d _ _ h => isOutstanding_put h _)
      fun _ => Maintains.pure _

-- The token that was stored is not taken back when the login fails.
theorem isOutstanding_of_mints (request : HttpRequest) (h : Mints email password e user d) :
    RefreshToken.isOutstanding e.jti ((post request email password e).run d).snd := by
  have ⟨exp, _, hv⟩ := validate_run_of_mints h
  have hm : RefreshToken.isOutstanding e.jti (minted e user exp d) :=
    isOutstanding_iff.mpr ⟨_, Table.mem_put_self .., rfl⟩
  have hs := (settle_maintains user (mintedToken e user exp d)).related (minted e user exp d) hm
  rw [←hv] at hs
  rw [post_eq, run_bind]
  split
  case h_1 x d₁ hr => exact (record_maintains x).related d₁ <| by rwa [hr] at hs
  case h_2 hr      => rwa [hr] at hs

-- The tables which a login has not written to before the session is stored.
structure SameBefore (d d₁ : Database) : Prop where
  sessions  : d₁.sessions = d.sessions
  blacklist : d₁.blacklistedTokens = d.blacklistedTokens

theorem settle_run_eq_ok {exp : Instant} {u : User} {pair : TokenPair} (hu : user ∈ d.users)
    (h : (settle e user <| mintedToken e user exp d).run (minted e user exp d) = (.ok (u, pair), d')) :
    user.isVerified ∧ (Row.user user).fits ∧ pair.refresh = mintedToken e user exp d ∧ SameBefore d d' := by
  have ⟨_, d₁, h₁, h⟩ := run_bind_eq_ok.mp h
  have ⟨_, _, _, hd⟩ := run_save_eq_ok h₁
  have hl : (minted e user exp d).users.lookup (.user user.id) = some user :=
    Table.lookup_eq_some.mpr ⟨hu, rfl⟩
  have hf := fits_of_run_save hl h₁
  subst hd
  split at h
  case isTrue   => cases h
  case isFalse  =>
    split at h
    case isTrue     => cases h
    case isFalse hv => cases h; exact ⟨by simpa using hv, hf, rfl, rfl, rfl⟩

theorem settle_run {exp : Instant} (hu : user ∈ d.users) (ha : user.isActive) (hv : user.isVerified)
    (hf : (Row.user user).fits) :
    (settle e user <| mintedToken e user exp d).run (minted e user exp d) =
      (.ok (user, ⟨mintedToken e user exp d, (mintedToken e user exp d).accessToken⟩),
       (minted e user exp d).put <| .user { user with lastLogin := some e.lastLogin }) := by
  have hl : (minted e user exp d).users.lookup (.user user.id) = some user :=
    Table.lookup_eq_some.mpr ⟨hu, rfl⟩
  have hs : (save Database.users .user (.user user.id) fun u => { u with lastLogin := some e.lastLogin }).run
      (minted e user exp d) = (.ok (), (minted e user exp d).put <| .user { user with lastLogin := some e.lastLogin }) :=
    run_save hl hf (List.Subset.refl _)
  rw [settle, run_bind_of_ok hs]
  simp only [ha, hv, Bool.not_true, Bool.false_eq_true, if_false, run_pure]

def newSession (request : HttpRequest) (e : LoginEnv) (user : User) : UserSession where
  id         := e.sessionId
  userId     := user.id
  refreshJti := e.jti
  userAgent  := Text.truncate ((request.header "HTTP_USER_AGENT").getD "") 512
  ipAddress  := if clientIp request = "" then none else some <| clientIp request
  revokedAt  := none

theorem newSession_fits_iff (request : HttpRequest) (e : LoginEnv) (user : User) :
    (Row.session <| newSession request e user).fits ↔
      e.jti.length ≤ 64 ∧ (clientIp request = "" ∨ Text.isIpAddress (clientIp request)) := by
  have ha : (Text.truncate ((request.header "HTTP_USER_AGENT").getD "") 512).length ≤ 512 :=
    Text.length_truncate_le ..
  by_cases hi : clientIp request = "" <;> simp [Row.fits, newSession, ha, hi]

theorem completes_of_ok {pair : TokenPair} (hm : Mints email password e user d)
    (h : (post request email password e).run d = (.ok pair, d')) : Completes request e user d := by
  obtain ⟨_, ho⟩ := post_run_eq_ok h
  obtain ⟨hu, _⟩ := ModelBackend.authenticate_eq_some hm.credentials
  obtain ⟨exp, hx, hv⟩ := validate_run_of_mints hm
  obtain ⟨⟨u, data⟩, d₁, h₁, h⟩ := run_bind_eq_ok.mp h
  obtain ⟨hver, hf, ht, hs⟩ := settle_run_eq_ok hu <| hv.symm.trans h₁
  obtain ⟨t, d₂, h₂, h⟩ := run_bind_eq_ok.mp h
  obtain ⟨s, d₃, h₃, h⟩ := run_bind_eq_ok.mp h
  obtain ⟨he, hb, ht', hd₂⟩ := RefreshToken.verify_run_eq_ok.mp h₂
  subst ht' hd₂
  obtain ⟨_, d₄, h₄, h₅⟩ := run_bind_eq_ok.mp h₃
  obtain ⟨ha, _⟩ := run_create_eq_ok h₄
  have hfs := fits_of_run_create h₄
  simp only [ht] at he hb ha hfs
  obtain ⟨hlen, hip⟩ := (newSession_fits_iff request e u).mp hfs
  constructor
  case verified   => exact hver
  case address    => exact hip
  case stored     => exact hf
  case length     => exact hlen
  case unexpired  => exact fun exp' hx' => Option.some.inj (hx.symm.trans hx') ▸ he
  case valid      => rwa [RefreshToken.isBlacklisted, ←hs.blacklist]
  case fresh      => exact fun s hs => ⟨ho.new s hs, ho.fresh s hs⟩

theorem post_run_of_completes (hm : Mints email password e user d) (hc : Completes request e user d) :
    ∃ pair d', (post request email password e).run d = (.ok pair, d') := by
  have ⟨hu, _, _, ha⟩ := ModelBackend.authenticate_eq_some hm.credentials
  have ⟨exp, hx, hv⟩ := validate_run_of_mints hm
  have hv := hv.trans <| settle_run hu ha hc.verified hc.stored
  let d₁ := (minted e user exp d).put <| .user { user with lastLogin := some e.lastLogin }
  have ht : (RefreshToken.verify (some <| mintedToken e user exp d) e.now).run d₁ =
      (.ok <| mintedToken e user exp d, d₁) :=
    RefreshToken.verify_run_eq_ok.mpr ⟨hc.unexpired exp hx, hc.valid, rfl, rfl⟩
  have hs : (create <| .session <| newSession request e user).run d₁ =
      (.ok (), d₁.put <| .session <| newSession request e user) := by
    refine run_create_of_fits ((newSession_fits_iff ..).mpr ⟨hc.length, hc.address⟩)
      (fun s hs hk => (hc.fresh s hs).left <| Key.session.inj hk) ?_
    intro s hs k hk hk'
    have hk := (List.mem_singleton.mp hk').symm.trans <| List.mem_singleton.mp hk
    exact (hc.fresh s hs).right <| Key.refreshJti.inj hk
  have hr : (recordSession user.id (mintedToken e user exp d)
      ((request.header "HTTP_USER_AGENT").getD "") (clientIp request) e.sessionId).run d₁ =
      (.ok <| newSession request e user, d₁.put <| .session <| newSession request e user) :=
    run_bind_eq_ok.mpr ⟨(), _, hs, rfl⟩
  have hl : (d₁.put <| .session <| newSession request e user).users.lookup (.user user.id) =
      some { user with lastLogin := some e.lastLogin } := Table.lookup_put_self ..
  have hf : (Row.user { user with lastLogin := some e.lastLogin, lastLoginAt := some e.lastLoginAt }).fits :=
    hc.stored
  have hw : (save Database.users .user (.user user.id) fun u => { u with lastLoginAt := some e.lastLoginAt }).run
      (d₁.put <| .session <| newSession request e user) = (.ok (), _) :=
    run_save hl hf (List.Subset.refl _)
  exact ⟨_, _, run_bind_eq_ok.mpr ⟨_, d₁, hv, run_bind_eq_ok.mpr ⟨_, d₁, ht,
    run_bind_eq_ok.mpr ⟨_, _, hr, run_bind_eq_ok.mpr ⟨(), _, hw, rfl⟩⟩⟩⟩⟩

end LoginView

section Example

def unconfirmedUser : User :=
  { Seed.user with isVerified := false }

def unconfirmedAccounts : Database :=
  { Database.empty with users := .put .empty unconfirmedUser }

end Example
end SaasBackend
