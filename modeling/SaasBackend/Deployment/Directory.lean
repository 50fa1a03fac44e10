import SaasBackend.Deployment.Passwords

open Calendar ReadCommitted ReadCommitted.Service

namespace SaasBackend

open Service

-- The accounts as they are seen from outside: whom an address and a password let in.
abbrev Directory := String → String → Option Uuid

-- The address of the account is let in with the password of the account, and with no other one.
def Directory.assign (D : Directory) (u : User) : Directory := fun email password =>
  if email = u.email then
    if u.password = ⟨password⟩ ∧ u.isActive then some u.id else none
  else
    D email password

def directory (d : Database) : Directory := fun email password =>
  (ModelBackend.authenticate d email password).map (·.id)

variable {p : Platform} {d d' : Database}

section Users

theorem directory_eq_some (hd : Indexed d) {email password : String} {id : Uuid} :
    directory d email password = some id ↔
      ∃ u ∈ d.users, u.email = email ∧ u.password = ⟨password⟩ ∧ u.isActive ∧ u.id = id := by
  simp [directory, authenticate_iff hd, and_assoc]

-- The other accounts are as they were.
theorem directory_assign (hd : Indexed d) (hd' : Indexed d') {u : User} (hu : u ∈ d'.users)
    (h : ∀ v : User, v.email ≠ u.email → (v ∈ d'.users ↔ v ∈ d.users)) :
    directory d' = (directory d).assign u := by
  funext email password
  refine Option.ext fun id => ?_
  rw [directory_eq_some hd', Directory.assign]
  by_cases he : email = u.email
  case neg =>
    rw [if_neg he, directory_eq_some hd]
    refine exists_congr fun v => and_congr_left fun hr => ?_
    exact h v <| hr.left ▸ he
  case pos =>
    rw [if_pos he]
    constructor
    case mp =>
      rintro ⟨v, hv, hve, hp, ha, hi⟩
      have hvu : v = u := user_eq_of_email hd' hv hu <| hve.trans he
      subst hvu
      simp [hp, ha, hi]
    case mpr =>
      intro h
      split at h
      case isTrue hp  => exact ⟨u, hu, he.symm, hp.left, hp.right, Option.some.inj h⟩
      case isFalse    => cases h

-- Nobody is let in with other credentials unless passwords are set.
theorem directory_of_evolves (hd : Indexed d) (hd' : Indexed d')
    (h : Evolves (Row.IsFresh fun _ _ => False) (Row.Precedes fun _ _ => False) d d') :
    directory d' = directory d := by
  funext email password
  refine Option.ext fun id => ?_
  rw [directory_eq_some hd', directory_eq_some hd]
  constructor
  case mp =>
    rintro ⟨u', hu', he, hp, ha, hi⟩
    obtain ⟨r, hr, hk, hl⟩ := h.former _ <| Database.user_mem_rows.mpr hu'
    obtain ⟨u, rfl, hue, -, hua, -, hup⟩ := hl.user
    have hup : u'.password = u.password := hup.resolve_right not_false
    cases hr
    case inr hf => exact hf.right.right.right.elim
    case inl hr =>
      exact ⟨u, Database.user_mem_rows.mp hr, hue ▸ he, hup ▸ hp, hua ▸ ha, (Key.user.inj hk).trans hi⟩
  case mpr =>
    rintro ⟨u, hu, he, hp, ha, hi⟩
    obtain ⟨r, hr, hk, hl⟩ := h.later _ <| Database.user_mem_rows.mpr hu
    cases r
    case user u' =>
      obtain ⟨_, hu, hue, -, hua, -, hup⟩ := hl.user
      cases hu
      have hup : u'.password = u.password := hup.resolve_right not_false
      exact ⟨u', Database.user_mem_rows.mp hr, hue.trans he, hup.trans hp, hua ▸ ha,
        (Key.user.inj hk).trans hi⟩
    all_goals cases hk

-- The row of a user is replaced by a version with another password.
theorem mem_users_replaced {t u v : User} (ht : t ∈ d.users) (hi : u.id = t.id) (he : u.email = t.email)
    (hv : v.email ≠ u.email) : v ∈ d.users.put u ↔ v ∈ d.users := by
  constructor
  case mp =>
    intro h
    cases Table.mem_put.mp h
    case inl h => exact (hv <| congrArg User.email h).elim
    case inr h => exact h.left
  case mpr =>
    refine fun h => Table.mem_put.mpr <| .inr ⟨h, fun hk => hv ?_⟩
    have hvt : v = t := Table.eq_of_key h ht <| hk.trans <| congrArg Key.user hi
    rw [hvt, he]

end Users

section Operations

variable {x : Except Exn Unit}

-- The operations which set a password when they succeed.
def Operation.setsPassword : Operation → Bool
  | register ..
  | changePassword ..
  | confirmPasswordReset .. => true
  | _                       => false

theorem Operation.run_evolves (p : Platform) (o : Operation) (d : Database) :
    Evolves (Row.IsFresh (o.Sets p)) (Row.Precedes (o.Sets p)) d ((o.service p).run d).2 :=
  ((o.advances p).maintains fun _ _ hw ha => .put hw.evolves ha).related d

theorem Operation.run_indexed (p : Platform) (o : Operation) (hd : Indexed d) :
    Indexed ((o.service p).run d).2 :=
  ((o.advances p).maintains (I := Kept Indexed) fun _ _ _ ha h => h.put ha).related d hd

theorem run_ofExcept_bind_eq_ok {α β : Type} {y : Except Exn α} {f : α → Service β} {b : β}
    (h : (ofExcept y >>= f).run d = (.ok b, d')) : ∃ a, y = .ok a ∧ (f a).run d = (.ok b, d') := by
  cases y
  case error e  => cases h
  case ok a     => exact ⟨a, rfl, h⟩

theorem run_map_eq_ok {α β : Type} {s : Service α} {f : α → β} {b : β}
    (h : (s >>= fun a => pure (f a)).run d = (.ok b, d')) : ∃ a, s.run d = (.ok a, d') := by
  obtain ⟨a, _, hs, h⟩ := run_bind_eq_ok.mp h
  cases h
  exact ⟨a, hs⟩

theorem run_map_eq_error {α β : Type} {s : Service α} {f : α → β} {e : Exn}
    (h : (s >>= fun a => pure (f a)).run d = (.error e, d')) : s.run d = (.error e, d') := by
  cases run_bind_eq_error.mp h
  case inl h => exact h
  case inr h => obtain ⟨_, _, _, h⟩ := h; cases h

theorem run_ofExcept_bind_eq_error {α β : Type} {y : Except Exn α} {f : α → Service β} {e : Exn}
    (h : (ofExcept y >>= f).run d = (.error e, d')) (hf : ∀ a, (f a).run d = (.error e, d') → d' = d) : d' = d := by
  cases y
  case error  => cases h; rfl
  case ok a   => exact hf a h

theorem register_run_eq_ok {data : RegistrationData} {e : Enrollment} {i : TokenIssue}
    (h : ((Operation.register data e i).service p).run d = (.ok (), d')) :
    ∃ u ∈ d'.users, (Operation.register data e i).Authorizes p d' u.id u.password.plaintext ∧
      ∀ v : User, v.email ≠ u.email → (v ∈ d'.users ↔ v ∈ d.users) := by
  obtain ⟨u, h⟩ := run_map_eq_ok h
  obtain ⟨valid, hv, h⟩ := run_ofExcept_bind_eq_ok h
  obtain ⟨hu, _, ha, _, _, d₁, hb, _, hd⟩ := registerUser_run_eq_ok h
  have hd : d'.users = d.users.put u := by rw [hd, hb]; rfl
  rw [hd]
  refine ⟨u, Table.mem_put_self .., ?_, fun v hve => ?_⟩
  · subst hu
    exact ⟨rfl, valid, hv, rfl⟩
  · constructor
    case mp =>
      intro h
      cases Table.mem_put.mp h
      case inl h => exact (hve <| congrArg User.email h).elim
      case inr h => exact h.left
    case mpr => exact fun h => Table.mem_put.mpr <| .inr ⟨h, accepts_new ha v h⟩

theorem changePassword_run_eq_ok {user : User} {data : ChangePasswordData}
    (h : ((Operation.changePassword user data).service p).run d = (.ok (), d')) :
    ∃ u ∈ d'.users, (Operation.changePassword user data).Authorizes p d' u.id u.password.plaintext ∧
      ∀ v : User, v.email ≠ u.email → (v ∈ d'.users ↔ v ∈ d.users) := by
  obtain ⟨_, h⟩ := run_map_eq_ok h
  obtain ⟨valid, hv, h⟩ := run_ofExcept_bind_eq_ok h
  obtain ⟨_, h⟩ := run_map_eq_ok h
  unfold changePassword at h
  split at h
  case isTrue     => cases h
  case isFalse hc =>
    obtain ⟨t, ht, hk, hd⟩ := run_save_eq_ok h
    have hd : d'.users = d.users.put { t with password := ⟨valid.newPassword⟩ } := by rw [hd]; rfl
    rw [hd]
    refine ⟨_, Table.mem_put_self .., ?_, fun v => mem_users_replaced ht rfl rfl⟩
    exact ⟨(Key.user.inj hk).symm, valid, hv, not_not.mp hc, rfl⟩

theorem confirmPasswordReset_run_eq_ok {data : PasswordResetData} {now usedAt : Instant}
    (h : ((Operation.confirmPasswordReset data now usedAt).service p).run d = (.ok (), d')) :
    ∃ u ∈ d'.users,
      (Operation.confirmPasswordReset data now usedAt).Authorizes p d' u.id u.password.plaintext ∧
      ∀ v : User, v.email ≠ u.email → (v ∈ d'.users ↔ v ∈ d.users) := by
  have he : Evolves (Row.IsFresh fun _ => IsStrong p) (Row.Precedes fun _ => IsStrong p) d d' := by
    have he := Operation.run_evolves p (.confirmPasswordReset data now usedAt) d
    rw [h] at he
    exact permit_evolves he fun _ _ => Operation.isStrong_of_sets
  obtain ⟨_, h⟩ := run_map_eq_ok h
  obtain ⟨valid, hv, h⟩ := run_ofExcept_bind_eq_ok h
  obtain ⟨_, h⟩ := run_map_eq_ok h
  obtain ⟨found, _, hs, h⟩ := run_bind_eq_ok.mp <| run_atomic_eq_ok.mp h
  obtain ⟨hf, rfl⟩ := run_select_eq_ok.mp hs
  cases found
  case none       => cases h
  case some found =>
    obtain ⟨t, w⟩ := found
    obtain ⟨ht, hh, _, hw⟩ := findResetToken_eq_some hf
    dsimp only at h
    split at h
    case isTrue     => cases h
    case isFalse hn =>
      have hx : t.usedAt = none ∧ now < t.expiresAt := by simpa [Token.isValid] using hn
      obtain ⟨_, d₁, h₁, h₂⟩ := run_bind_eq_ok.mp h
      obtain ⟨u, hu, hk, hd₁⟩ := run_save_eq_ok h₁
      -- The tokens that are used up do not concern the users.
      have hm : d'.users = d₁.users := by
        have hc : (consume t usedAt).Maintains (Preserved Database.users) :=
          Maintains.save (fun _ => rfl) fun _ _ _ => rfl
        have ho : (execute <| useOtherTokens t w.id usedAt : Service Unit).Maintains (Preserved Database.users) :=
          useOtherTokens_maintains (fun _ _ => rfl) t w.id usedAt
        have hs := (Maintains.bind hc fun _ => Maintains.bind ho fun _ => Maintains.pure
          { w with password := ⟨valid.newPassword⟩ }).related d₁
        rwa [h₂] at hs
      have hd' : d'.users = d.users.put { u with password := ⟨valid.newPassword⟩ } := by rw [hm, hd₁]; rfl
      rw [hd']
      refine ⟨_, Table.mem_put_self .., ?_, fun v => mem_users_replaced hu rfl rfl⟩
      have ha : (Operation.confirmPasswordReset data now usedAt).Authorizes p d u.id valid.newPassword :=
        ⟨valid, hv, rfl, t, ht, hw.symm.trans (Key.user.inj hk).symm, hh, hx.right⟩
      exact ha.later he

theorem setsPassword_run_eq_error {o : Operation} (hs : o.setsPassword) {e : Exn}
    (h : (o.service p).run d = (.error e, d')) : d' = d := by
  cases o
  case register             =>
    exact run_ofExcept_bind_eq_error (run_map_eq_error h) fun _ h => run_atomic_eq_error h
  case confirmPasswordReset =>
    exact run_ofExcept_bind_eq_error (run_map_eq_error h) fun _ h => run_atomic_eq_error <| run_map_eq_error h
  case changePassword       =>
    refine run_ofExcept_bind_eq_error (run_map_eq_error h) fun _ h => ?_
    have h := run_map_eq_error h
    unfold changePassword at h
    split at h
    case isTrue   => cases h; rfl
    case isFalse  => exact run_save_eq_error h
  all_goals cases hs

theorem setsPassword_run_eq_ok {o : Operation} (hs : o.setsPassword) (h : (o.service p).run d = (.ok (), d')) :
    ∃ u ∈ d'.users, o.Authorizes p d' u.id u.password.plaintext ∧
      ∀ v : User, v.email ≠ u.email → (v ∈ d'.users ↔ v ∈ d.users) := by
  cases o
  case register             => exact register_run_eq_ok h
  case changePassword       => exact changePassword_run_eq_ok h
  case confirmPasswordReset => exact confirmPasswordReset_run_eq_ok h
  all_goals cases hs

theorem directory_of_not_setsPassword (hd : Indexed d) {o : Operation} (hs : o.setsPassword = false) :
    directory ((o.service p).run d).2 = directory d := by
  refine directory_of_evolves hd (Operation.run_indexed p o hd) <|
    permit_evolves (Operation.run_evolves p o d) fun user password h => ?_
  cases o
  case register | changePassword | confirmPasswordReset => cases hs
  all_goals exact h

end Operations

section Run

-- The database after some operations have been performed one after another.
def performed (p : Platform) (d : Database) (os : List Operation) : Database :=
  os.foldl (fun d o => ((o.service p).run d).2) d

theorem performed_indexed (hd : Indexed d) (os : List Operation) : Indexed (performed p d os) := by
  induction os generalizing d
  case nil      => exact hd
  case cons hi  => exact hi <| Operation.run_indexed p _ hd

-- Performed from any state that is reached, an operation either assigns one account, which it is entitled
-- to, or it changes nothing about who is let in.
theorem directory_refined (p : Platform) (d : Database) (hd : Indexed d) (os : List Operation) (o : Operation) :
    let d₁ := performed p d os
    let x := (o.service p).run d₁
    (o.setsPassword ∧ x.1.isOk → ∃ u ∈ x.2.users,
      o.Authorizes p x.2 u.id u.password.plaintext ∧ directory x.2 = (directory d₁).assign u) ∧
    (¬(o.setsPassword ∧ x.1.isOk) → directory x.2 = directory d₁) := by
  intro d₁ x
  have hd₁ : Indexed d₁ := performed_indexed hd os
  have hd₂ : Indexed x.2 := Operation.run_indexed p o hd₁
  constructor
  case left =>
    rintro ⟨hs, hr⟩
    have hx : (o.service p).run d₁ = (.ok (), x.2) := by
      refine Prod.ext ?_ rfl
      change x.1 = .ok ()
      cases h : x.1
      case error  => rw [h] at hr; cases hr
      case ok     => rfl
    obtain ⟨u, hu, ha, hv⟩ := setsPassword_run_eq_ok hs hx
    exact ⟨u, hu, ha, directory_assign hd₁ hd₂ hu hv⟩
  case right =>
    intro hn
    cases hs : o.setsPassword
    case false  => exact directory_of_not_setsPassword hd₁ hs
    case true   =>
      cases h : x.1
      case ok       => exact (hn ⟨hs, by rw [h]; rfl⟩).elim
      case error e  =>
        have hx : (o.service p).run d₁ = (.error e, x.2) := Prod.ext h rfl
        rw [setsPassword_run_eq_error hs hx]

section Example

def exampleSecondChange : Operation :=
  .changePassword { Seed.user with password := ⟨"s3cret-word"⟩ } ⟨"s3cret-word", "an0ther-word"⟩

theorem changed_password_assigned :
    let d₁ := performed .ascii KeyHistory.exampleAccounts [examplePasswordChange ()]
    let x := (exampleSecondChange.service .ascii).run d₁
    ∃ u ∈ x.2.users, exampleSecondChange.Authorizes .ascii x.2 u.id u.password.plaintext ∧
      directory x.2 = (directory d₁).assign u := by
  have hd : Indexed KeyHistory.exampleAccounts := .of_nodup <| by decide +kernel
  refine (directory_refined .ascii KeyHistory.exampleAccounts hd [examplePasswordChange ()]
    exampleSecondChange).left ?_
  decide +kernel

end Example

end Run
end SaasBackend
