import SaasBackend.Deployment.Finality
import SaasBackend.ReadCommitted.Restriction

open Calendar ReadCommitted ReadCommitted.Service

namespace SaasBackend

open Service

-- What entitles an operation to set a password: it registers the account, it presents the password that
-- the account has had so far, or it presents a token which was issued for the account.
def Operation.Authorizes (p : Platform) (d : Database) : Operation → Uuid → String → Prop
  | confirmPasswordReset data now _, user, password =>
    ∃ valid, PasswordResetConfirmSerializer.validate p data = .ok valid ∧ valid.newPassword = password ∧
      ∃ t ∈ d.resetTokens, t.userId = user ∧ t.tokenHash = hashToken valid.token ∧ now < t.expiresAt
  | o,                               user, password => o.Sets p user password

section Authorized

variable {ι : Type} {p : Platform} {S S' : Uuid → String → Prop} {os : ι → Operation} {d₀ d d' : Database}
  {user : Uuid} {password : String}

theorem permit_evolves (h : Evolves (Row.IsFresh S) (Row.Precedes S) d d')
    (hs : ∀ user password, S user password → S' user password) :
    Evolves (Row.IsFresh S') (Row.Precedes S') d d' :=
  h.mono (fun _ hr => hr.mono hs) fun _ _ hr => hr.mono hs

theorem Operation.Authorizes.later {o : Operation} (ha : o.Authorizes p d user password)
    (h : Evolves (Row.IsFresh S) (Row.Precedes S) d d') : o.Authorizes p d' user password := by
  cases o
  case confirmPasswordReset =>
    obtain ⟨valid, hv, hp, t, ht, hu, hh, he⟩ := ha
    obtain ⟨r, hm, _, hl⟩ := h.later _ <| Database.resetToken_mem_rows.mpr ht
    obtain ⟨t', rfl, hu', hh', he', _⟩ := hl.resetToken
    have hm : t' ∈ d'.resetTokens := Database.resetToken_mem_rows.mp hm
    exact ⟨valid, hv, hp, t', hm, hu'.trans hu, hh'.trans hh, he' ▸ he⟩
  all_goals exact ha

def Authorized (p : Platform) (os : ι → Operation) (d : Database) (user : Uuid) (password : String) : Prop :=
  ∃ i, (os i).Authorizes p d user password

-- No other passwords are set than those which some operation is entitled to set.
def PasswordsAuthorized (p : Platform) (os : ι → Operation) (d d' : Database) : Prop :=
  Evolves (Row.IsFresh <| Authorized p os d') (Row.Precedes <| Authorized p os d') d d'

instance : Std.Refl (PasswordsAuthorized p os) where
  refl d := by
    unfold PasswordsAuthorized
    exact Std.Refl.refl d

instance : IsTrans Database (PasswordsAuthorized p os) where
  trans d₁ d₂ d₃ h₁ h₂ := by
    unfold PasswordsAuthorized at *
    refine IsTrans.trans d₁ d₂ d₃ (permit_evolves h₁ ?_) h₂
    rintro user password ⟨i, ha⟩
    exact ⟨i, ha.later h₂⟩

-- An operation that may set its passwords in any state.
theorem authorized_of_sets {i : ι} {o : Operation} (hi : os i = o)
    (h : ∀ d user password, o.Sets p user password → o.Authorizes p d user password) :
    (o.service p).Keeps (PasswordsAuthorized p os) d₀ (fun _ _ _ => True) [] d :=
  (o.advances p).keeps fun _ _ hw ha => .put (hw.mono fun _ _ hs => ⟨i, hi ▸ h _ _ _ hs⟩).evolves ha

theorem confirmPasswordReset_authorized {i : ι} {data valid : PasswordResetData} {now usedAt : Instant}
    (hi : os i = .confirmPasswordReset data now usedAt)
    (hv : PasswordResetConfirmSerializer.validate p data = .ok valid) :
    (confirmPasswordReset valid.token valid.newPassword now usedAt).Keeps (PasswordsAuthorized p os) d₀
      (fun _ _ _ => True) [] d := by
  refine Keeps.atomic <| Keeps.bind <| Keeps.select fun d₁ _ _ => ?_
  split
  case h_1        => exact Keeps.raise
  case h_2 t u hf =>
    obtain ⟨ht, hh, -, hu⟩ := findResetToken_eq_some hf
    split
    case isTrue       => exact Keeps.raise
    case isFalse hn   =>
      refine Keeps.bind <| Keeps.save (fun _ => rfl) fun d₂ r h₂ _ hk => ?_
      refine Keeps.bind <| Keeps.save (fun _ => rfl) fun d₃ c h₃ _ _ => ?_
      refine Keeps.bind <| Keeps.execute (honest_useOtherTokens t u.id usedAt) fun d₄ h₄ _ => ?_
      refine Keeps.pure fun ws hw d₅ h₅ hv' => ⟨?_, trivial⟩
      have he : PasswordsAuthorized p os d₁ d₅ := Trans.trans h₂ <| Trans.trans h₃ <| Trans.trans h₄ h₅
      have ha : (os i).Authorizes p d₁ t.userId valid.newPassword := by
        have hx : t.usedAt = none ∧ now < t.expiresAt := by simpa [Token.isValid] using hn
        rw [hi]
        exact ⟨valid, hv, rfl, t, ht, rfl, hh, hx.right⟩
      -- All of the writes set at most this password, for the owner of the token.
      let S : Uuid → String → Prop := fun user password => user = t.userId ∧ password = valid.newPassword
      have hws : ∀ w ∈ ws, Advances S ⟨[], [.users, .resetTokens]⟩ w := by
        obtain rfl := (List.cons.inj hw).left
        have hr : r.id = t.userId := (Key.user.inj hk).trans hu
        refine List.forall_mem_append.mpr ⟨List.forall_mem_append.mpr ⟨?_, ?_⟩, fun w hw => ?_⟩
        · exact List.forall_mem_singleton.mpr <| advances_replace ⟨rfl, le_rfl, .inr ⟨hr, rfl⟩⟩ rfl
        · exact List.forall_mem_singleton.mpr <| advances_replace ⟨rfl, Bool.toNat_le _, .inl rfl⟩ rfl
        · obtain ⟨o, _, rfl⟩ := List.mem_map.mp hw
          exact advances_replace ⟨rfl, Bool.toNat_le _, .inl rfl⟩ rfl
      have hs : Evolves (Row.IsFresh S) (Row.Precedes S) d₅ (Store.applyAll d₅ ws) :=
        hv'.related (fun _ _ hw ha => .put hw.evolves ha) hws
      refine permit_evolves hs ?_
      rintro user password ⟨rfl, rfl⟩
      exact ⟨i, (ha.later he).later hs⟩

theorem Operation.authorized (i : ι) :
    ((os i).service p).Keeps (PasswordsAuthorized p os) d₀ (fun _ _ _ => True) [] d := by
  cases hi : os i
  case confirmPasswordReset =>
    refine Keeps.bind <| Keeps.bind <| Keeps.ofExcept fun valid hv => ?_
    refine Keeps.bind <| (confirmPasswordReset_authorized hi hv).mono fun _ _ _ _ _ => ?_
    exact Keeps.pure <| Keeps.pure trivial
  all_goals exact authorized_of_sets hi fun _ _ _ => id

end Authorized

theorem user_eq_of_email {d : Database} (hd : Indexed d) {u v : User} (hu : u ∈ d.users) (hv : v ∈ d.users)
    (h : u.email = v.email) : u = v := by
  refine Row.user.inj <| hd _ (Database.user_mem_rows.mpr hu) _ (Database.user_mem_rows.mpr hv) (.email u.email) ?_ ?_
  · exact List.mem_singleton.mpr rfl
  · exact List.mem_singleton.mpr <| by rw [h]

theorem authenticate_iff {d : Database} (hd : Indexed d) {email password : String} {u : User} :
    ModelBackend.authenticate d email password = some u ↔
      u ∈ d.users ∧ u.email = email ∧ u.password = ⟨password⟩ ∧ u.isActive := by
  constructor
  case mp => exact ModelBackend.authenticate_eq_some
  case mpr =>
    rintro ⟨hu, he, hp, ha⟩
    have hf : d.users.rows.find? (·.email = email) = some u := by
      cases hf : d.users.rows.find? (·.email = email)
      case none   => simpa [he] using List.find?_eq_none.mp hf u hu
      case some v =>
        have hv : v.email = email := by simpa using List.find?_some hf
        exact congrArg some <| user_eq_of_email hd (List.mem_of_find?_eq_some hf) hu <| hv.trans he.symm
    rw [ModelBackend.authenticate, hf]
    exact Option.filter_eq_some_iff.mpr ⟨rfl, decide_eq_true ⟨hp, ha⟩⟩

section Runs

variable {ι : Type} [Fintype ι] [DecidableEq ι]

-- Whatever is performed concurrently, the credentials of an account are accepted and refused as before
-- unless a registration, the current password or a token of the account entitles to other ones.
theorem logins_follow (p : Platform) (d : Database) (hd : Indexed d) (os : ι → Operation)
    (as bs : List (Action ι Exn)) (email password : String) :
    let d₁ := ((operating p d os).run as).db
    let d₂ := ((operating p d os).run (as ++ bs)).db
    (∀ u', ModelBackend.authenticate d₂ email password = some u' →
      (∃ u, ModelBackend.authenticate d₁ email password = some u ∧ u.id = u'.id) ∨
      Authorized p os d₂ u'.id password) ∧
    ∀ u, ModelBackend.authenticate d₁ email password = some u →
      (∃ u', ModelBackend.authenticate d₂ email password = some u' ∧ u'.id = u.id) ∨
      ∃ password' ≠ password, Authorized p os d₂ u.id password' := by
  intro d₁ d₂
  have h : PasswordsAuthorized p os d₁ d₂ := System.run_related (fun i => Operation.authorized i) as bs
  have hd₁ : Indexed d₁ := System.Issues.run_indexed (fun i => (os i).evolves p) as hd
  have hd₂ : Indexed d₂ := System.Issues.run_indexed (fun i => (os i).evolves p) (as ++ bs) hd
  constructor
  case left =>
    intro u' hu'
    obtain ⟨hm, he, hp, ha⟩ := (authenticate_iff hd₂).mp hu'
    obtain ⟨r, hr, hk, hl⟩ := h.former _ <| Database.user_mem_rows.mpr hm
    obtain ⟨u, rfl, hue, -, hua, -, hup⟩ := hl.user
    have hi : u.id = u'.id := Key.user.inj hk
    cases hup
    case inr hs => exact .inr <| by rwa [hp] at hs
    case inl hs =>
      cases hr
      case inl hr =>
        have hu : u ∈ d₁.users := Database.user_mem_rows.mp hr
        exact .inl ⟨u, (authenticate_iff hd₁).mpr ⟨hu, hue ▸ he, hs ▸ hp, hua ▸ ha⟩, hi⟩
      case inr hf =>
        have hf : Authorized p os d₂ u.id u.password.plaintext := hf.right.right.right
        rw [hi, ←hs, hp] at hf
        exact .inr hf
  case right =>
    intro u hu
    obtain ⟨hm, he, hp, ha⟩ := (authenticate_iff hd₁).mp hu
    obtain ⟨r, hr, hk, hl⟩ := h.later _ <| Database.user_mem_rows.mpr hm
    cases r
    case user u' =>
      obtain ⟨_, hu, hue, -, hua, -, hup⟩ := hl.user
      cases hu
      have hi : u'.id = u.id := Key.user.inj hk
      have hu' : u' ∈ d₂.users := Database.user_mem_rows.mp hr
      by_cases hp' : u'.password = ⟨password⟩
      case pos => exact .inl ⟨u', (authenticate_iff hd₂).mpr ⟨hu', hue.trans he, hp', hua ▸ ha⟩, hi⟩
      case neg =>
        cases hup
        case inl hs => exact (hp' <| hs.trans hp).elim
        case inr hs => exact .inr ⟨_, fun he => hp' <| by rw [←he], hi ▸ hs⟩
    all_goals cases hk

section Example

theorem changed_password_authorized :
    let d₁ := ((operating .ascii KeyHistory.exampleAccounts examplePasswordChange).run []).db
    let d₂ := ((operating .ascii KeyHistory.exampleAccounts examplePasswordChange).run ([] ++ [.go ()])).db
    (∃ u, ModelBackend.authenticate d₁ Seed.user.email "s3cret-word" = some u ∧ u.id = Seed.user.id) ∨
    Authorized .ascii examplePasswordChange d₂ Seed.user.id "s3cret-word" := by
  have hd : Indexed KeyHistory.exampleAccounts := .of_nodup <| by decide +kernel
  refine (logins_follow .ascii KeyHistory.exampleAccounts hd examplePasswordChange [] [.go ()] _ _).left
    { Seed.user with password := ⟨"s3cret-word"⟩ } ?_
  decide +kernel

end Example

end Runs
end SaasBackend
