import SaasBackend.Authentication.Accounts
import SaasBackend.Authentication.Serializers
import SaasBackend.Subscriptions.Seed

open Calendar ReadCommitted ReadCommitted.Service

namespace SaasBackend

open Service

namespace RegistrationSerializer

variable {p : Platform} {data valid : RegistrationData}

theorem validate_eq_ok (h : validate p data = .ok valid) :
    valid.email = Text.lower p (Text.strip data.email) ∧ valid.password = Text.strip data.password ∧
    Text.strip data.email ≠ "" ∧ Text.strip data.password ≠ "" := by
  have ⟨email, he, h⟩ := except_bind_eq_ok.mp h
  have ⟨password, hp, h⟩ := except_bind_eq_ok.mp h
  have ⟨password', hv, h⟩ := except_bind_eq_ok.mp h
  have ⟨_, _, h⟩ := except_bind_eq_ok.mp h
  have ⟨_, _, h⟩ := except_bind_eq_ok.mp h
  have ⟨he, hne⟩ := EmailField.validate_eq_ok he
  have ⟨hp, hnp⟩ := CharField.validate_eq_ok hp
  unfold validatePassword at hv
  split at hv
  case h_2 => cases hv
  case h_1 =>
    have hd : ⟨validateEmail p email, password', _, _⟩ = valid := Except.ok.inj h
    rw [←Except.ok.inj hv] at hd
    subst hd
    refine ⟨?_, hp, he ▸ hne, hp ▸ hnp.resolve_left nofun⟩
    rw [validateEmail, he, Text.strip_of_isTrimmed (Text.isTrimmed_strip _)]

end RegistrationSerializer

variable {p : Platform} {data : RegistrationData} {e : Enrollment} {i : TokenIssue} {d d₁ d₂ : Database}
  {user v : User} {now usedAt : Instant}

-- The row of a user who has registered with some data, and who is the only one with that address.
structure IsAccount (p : Platform) (data : RegistrationData) (u : User) (d : Database) : Prop where
  mem      : u ∈ d.users
  email    : u.email = Text.lower p (Text.strip data.email)
  unique   : ∀ r ∈ d.users, r.email = u.email → r = u
  password : u.password = ⟨Text.strip data.password⟩
  active   : u.isActive
  fits     : (Row.user u).fits

theorem IsAccount.put {u u' : User} (h : IsAccount p data u d) (hi : u'.id = u.id)
    (he : u'.email = u.email) (hp : u'.password = u.password) (ha : u'.isActive = u.isActive)
    (hf : (Row.user u').fits) : IsAccount p data u' (d.put <| .user u') where
  mem      := Table.mem_put_self ..
  email    := he.trans h.email
  password := hp.trans h.password
  active   := ha.trans h.active
  fits     := hf
  unique r hr hr' := by
    cases Table.mem_put.mp hr
    case inl hr => exact hr
    case inr hr =>
      have hu := h.unique r hr.left <| hr'.trans he
      exact (hr.right <| congrArg Key.user <| hu ▸ hi.symm).elim

-- A registration creates the account, together with a token which is the only one with its hash.
theorem RegisterView.post_run_eq_ok (h : (post p data e i).run d = (.ok user, d₁)) :
    IsAccount p data user d₁ ∧ Text.strip data.email ≠ "" ∧ Text.strip data.password ≠ "" ∧
    ∀ t ∈ d₁.verificationTokens, t.tokenHash = hashToken i.token → t.userId = user.id := by
  have ⟨valid, d', h₁, h⟩ := run_bind_eq_ok.mp h
  have ⟨hv, hd⟩ := run_ofExcept_eq_ok.mp h₁
  subst hd
  have ⟨he, hp, hne, hnp⟩ := RegistrationSerializer.validate_eq_ok hv
  have ⟨hu, hf, ha, _, exp, d₂, hb, ht, hd⟩ := registerUser_run_eq_ok h
  have hus : d₁.users = d.users.put user := by
    rw [hd, hb]
    rfl
  refine ⟨⟨?_, ?_, ?_, ?_, ?_, hf⟩, hne, hnp, ?_⟩
  · exact hus ▸ Table.mem_put_self ..
  · rw [hu, UserManager.newUser, he]
    exact lower_normalizeEmail_lower <| Text.isTrimmed_strip _
  · intro r hr hr'
    cases Table.mem_put.mp (hus ▸ hr)
    case inl hr => exact hr
    case inr hr =>
      have hk : Key.email user.email ∈ Entity.entries r :=
        List.mem_singleton.mpr <| congrArg Key.email hr'.symm
      exact (accepts_fresh ha r hr.left _ (List.mem_singleton.mpr rfl) hk).elim
  · rw [hu, ←hp]
    rfl
  · rw [hu]
    rfl
  · intro t hm hh
    rw [hd] at hm
    cases Table.mem_put.mp hm
    case inl hm => exact hm ▸ rfl
    case inr hm =>
      have hk : Key.tokenHash .emailVerification (hashToken i.token) ∈ Entity.entries t :=
        List.mem_singleton.mpr <| congrArg _ hh.symm
      exact (accepts_fresh ht t hm.left _ (List.mem_singleton.mpr rfl) hk).elim

theorem IsAccount.verifyEmail (h : IsAccount p data user d₁)
    (ht : ∀ t ∈ d₁.verificationTokens, t.tokenHash = hashToken i.token → t.userId = user.id)
    (hv : (verifyEmail i.token now usedAt).run d₁ = (.ok v, d₂)) :
    v = { user with isVerified := true } ∧ IsAccount p data v d₂ := by
  have ⟨t, u₀, hf, _, hv, hd⟩ := verifyEmail_run_eq_ok hv
  have ⟨hm, hh, hu, hi⟩ := findVerificationToken_eq_some hf
  have hu₀ : u₀ = user := Table.eq_of_key hu h.mem <| congrArg Key.user <| hi.trans <| ht t hm hh
  subst hu₀
  have hc : IsAccount p data u₀ (d₁.put <| .verificationToken { t with usedAt := some usedAt }) :=
    ⟨h.mem, h.email, h.unique, h.password, h.active, h.fits⟩
  rw [hd]
  refine ⟨hv, hc.put ?_ ?_ ?_ ?_ ?_⟩
  all_goals subst hv
  · rfl
  · rfl
  · rfl
  · rfl
  · exact h.fits

-- The exact address is looked up by a login, whereas the account has the address in lower case.
theorem IsAccount.authenticate_iff (h : IsAccount p data user d) (u : User) (hi : u.id = user.id) :
    ModelBackend.authenticate d (Text.strip data.email) (Text.strip data.password) = some u ↔
    u = user ∧ Text.lower p (Text.strip data.email) = Text.strip data.email := by
  constructor
  case mp =>
    intro ha
    have ⟨hm, he, _, _⟩ := ModelBackend.authenticate_eq_some ha
    have hu : u = user := Table.eq_of_key hm h.mem <| congrArg Key.user hi
    exact ⟨hu, h.email.symm.trans <| hu ▸ he⟩
  case mpr =>
    intro ⟨hu, hl⟩
    have he : user.email = Text.strip data.email := h.email.trans hl
    have hf : d.users.rows.find? (·.email = Text.strip data.email) = some user := by
      cases hf : d.users.rows.find? (·.email = Text.strip data.email)
      case none   => simpa [he] using List.find?_eq_none.mp hf user h.mem
      case some r =>
        have hr : r.email = Text.strip data.email := by simpa using List.find?_some hf
        rw [h.unique r (List.mem_of_find?_eq_some hf) <| hr.trans he.symm]
    rw [ModelBackend.authenticate, hf, hu]
    exact Option.filter_eq_some_iff.mpr ⟨rfl, decide_eq_true ⟨h.password, h.active⟩⟩

-- The tokens of a login can be issued.
structure LoginEnv.IsReady (l : LoginEnv) (d : Database) : Prop where
  expires : (l.now.addDays l.days).isSome
  fresh   : ¬RefreshToken.isOutstanding l.jti d

-- A user can log in with the address and the password of the registration exactly if the address is in
-- lower case.
theorem login_after_registration_iff (p : Platform) (d d₁ d₂ : Database) (data : RegistrationData)
    (e : Enrollment) (i : TokenIssue) (user v : User) (now usedAt : Instant) (l : LoginEnv)
    (hr : (RegisterView.post p data e i).run d = (.ok user, d₁))
    (hv : (verifyEmail i.token now usedAt).run d₁ = (.ok v, d₂)) (hl : l.IsReady d₂) :
    (∃ u pair, ((CustomTokenObtainPairSerializer.validate data.email data.password l).run d₂).fst =
      .ok (u, pair) ∧ u.id = user.id) ↔
    Text.lower p (Text.strip data.email) = Text.strip data.email := by
  have ⟨ha, hne, hnp, ht⟩ := RegisterView.post_run_eq_ok hr
  have ⟨huv, ha⟩ := ha.verifyEmail ht hv
  have hi : v.id = user.id := by rw [huv]
  constructor
  case mp =>
    intro ⟨u, pair, h, hu⟩
    have ⟨h, _⟩ := CustomTokenObtainPairSerializer.validate_run_claims <|
      run_eq_ok <| congrArg Except.toOption h
    exact ((ha.authenticate_iff u <| hu.trans hi.symm).mp h).right
  case mpr =>
    intro hl'
    have h := (ha.authenticate_iff v rfl).mpr ⟨rfl, hl'⟩
    have hv : v.isVerified := by rw [huv]
    have ⟨pair, hp⟩ := CustomTokenObtainPairSerializer.validate_run h hne hnp hv ha.fits hl.expires hl.fresh
    exact ⟨v, pair, hp, hi⟩

section Example

def exampleData (email : String) : RegistrationData :=
  ⟨email, "StrongPass!123", some "A", none⟩

def exampleEnrollment : Enrollment :=
  ⟨1, .midnight 739000, 1, 1⟩

def exampleIssue : TokenIssue :=
  ⟨"token", 1, .midnight 739000⟩

def exampleUser : User :=
  UserManager.newUser .ascii "user@example.com" "StrongPass!123" "A" "" .customer 1

def exampleRegistered (email : String) : Database :=
  ((RegisterView.post .ascii (exampleData email) exampleEnrollment exampleIssue).run Seed.database).snd

def exampleVerified (email : String) : Database :=
  ((verifyEmail "token" (.midnight 739000) (.midnight 739000)).run (exampleRegistered email)).snd

def exampleLoginEnv : LoginEnv where
  jti         := "first"
  sessionId   := 1
  now         := .midnight 739001
  lastLogin   := .midnight 739001
  lastLoginAt := .midnight 739001
  days        := 7

theorem login_with_lower_case_address :
    ∃ u pair, ((CustomTokenObtainPairSerializer.validate " user@example.com" "StrongPass!123"
      exampleLoginEnv).run (exampleVerified " user@example.com")).fst = .ok (u, pair) ∧ u.id = 1 :=
  (login_after_registration_iff .ascii Seed.database _ _ (exampleData " user@example.com")
    exampleEnrollment exampleIssue exampleUser { exampleUser with isVerified := true } _ _ exampleLoginEnv
    (run_eq_ok <| by decide +kernel) (run_eq_ok <| by decide +kernel)
    ⟨by decide +kernel, by decide +kernel⟩).mpr (by decide +kernel)

-- The address is in lower case in the database only.
theorem no_login_with_upper_case_address :
    ¬∀ (p : Platform) (d d₁ d₂ : Database) (data : RegistrationData) (e : Enrollment) (i : TokenIssue)
      (user v : User) (now usedAt : Instant) (l : LoginEnv),
      (RegisterView.post p data e i).run d = (.ok user, d₁) →
      (verifyEmail i.token now usedAt).run d₁ = (.ok v, d₂) → l.IsReady d₂ →
      ∃ u pair, ((CustomTokenObtainPairSerializer.validate data.email data.password l).run d₂).fst =
        .ok (u, pair) ∧ u.id = user.id := by
  intro h
  have ⟨u, pair, hl, _⟩ := h .ascii Seed.database _ _ (exampleData "User@Example.com") exampleEnrollment
    exampleIssue exampleUser { exampleUser with isVerified := true } (.midnight 739000) (.midnight 739000)
    exampleLoginEnv (run_eq_ok <| by decide +kernel) (run_eq_ok <| by decide +kernel)
    ⟨by decide +kernel, by decide +kernel⟩
  have hn : ((CustomTokenObtainPairSerializer.validate "User@Example.com" "StrongPass!123"
    exampleLoginEnv).run (exampleVerified "User@Example.com")).fst.toOption = none := by decide +kernel
  cases (congrArg Except.toOption hl).symm.trans hn

end Example
end SaasBackend
