import SaasBackend.Authentication.Accounts
import SaasBackend.Authentication.Resets
import SaasBackend.ReadCommitted.Runs

open Calendar ReadCommitted ReadCommitted.Service

namespace SaasBackend

open Service

-- The account to which a reset token is sent.
def resettableUser (p : Platform) (d : Database) (email : String) : Option User :=
  (getUserByEmail p d email).filter (·.isActive)

section Request

variable {p : Platform} {d d' : Database} {email : String} {i : TokenIssue}

theorem requestPasswordReset_run_eq_ok (h : (requestPasswordReset p email i).run d = (.ok (), d')) :
    match resettableUser p d email with
    | none   => d' = d
    | some u => ∃ exp, i.now.addHours passwordResetTokenTtlHours = some exp ∧
        Accepts d (⟨none, .resetToken <| newToken _ u.id i exp⟩ : Write) ∧
        d' = d.put (.resetToken <| newToken _ u.id i exp) := by
  have ⟨found, d₁, h₁, h⟩ := run_bind_eq_ok.mp h
  have ⟨hf, hd⟩ := run_select_eq_ok.mp h₁
  subst hd
  rw [resettableUser, hf]
  cases found
  case none   => cases h; rfl
  case some u =>
    simp only at h
    split at h
    case isTrue ha  =>
      cases h
      have ha : u.isActive = false := by simpa using ha
      simp [Option.filter_some, ha]
    case isFalse ha =>
      have ha : u.isActive = true := by simpa using ha
      have ⟨exp, d₂, h₂, h⟩ := run_bind_eq_ok.mp h
      have ⟨_, d₃, h₃, h⟩ := run_bind_eq_ok.mp h
      have ⟨hx, hd⟩ := run_ofExcept_eq_ok.mp h₂
      cases h
      subst hd
      simp only [Option.filter_some, ha, if_true]
      refine ⟨exp, ?_, run_create_eq_ok h₃⟩
      cases he : i.now.addHours passwordResetTokenTtlHours <;> simp_all [defaultExpiry]

theorem requestPasswordReset_run_eq_error {x : Exn}
    (h : (requestPasswordReset p email i).run d = (.error x, d')) : d' = d := by
  cases run_bind_eq_error.mp h
  case inl h => cases h
  case inr h =>
    have ⟨found, d₁, h₁, h⟩ := h
    have ⟨_, hd⟩ := run_select_eq_ok.mp h₁
    subst hd
    cases found
    case none   => cases h
    case some u =>
      simp only at h
      split at h
      case isTrue   => cases h
      case isFalse  =>
        cases run_bind_eq_error.mp h
        case inl h => exact run_ofExcept_eq_error h
        case inr h =>
          have ⟨_, d₂, h₂, h⟩ := h
          have ⟨_, hd⟩ := run_ofExcept_eq_ok.mp h₂
          subst hd
          cases run_bind_eq_error.mp h
          case inl h => exact run_create_eq_error h
          case inr h =>
            have ⟨_, _, _, h⟩ := h
            cases h

end Request

namespace Reset

variable {d d' : Database} {token : String} {t : PasswordResetToken} {u : User} {c : Reset}

theorem setOthersUsed_run :
    (execute <| useOtherTokens t u.id c.usedAt : Service Unit).run
      (Store.applyAll d [c.setPassword u, c.setUsed t]) = (.ok (), c.committed d t u) := by
  have hc : Store.check (Store.applyAll d [c.setPassword u, c.setUsed t])
      (useOtherTokens t u.id c.usedAt <| Store.applyAll d [c.setPassword u, c.setUsed t]) = none :=
    check_setOthersUsed _
  rw [run_execute, hc, committed, Store.applyAll_append]
  rfl

-- A valid token is used by the call.
theorem run (h : IsResetToken d token t u) (hv : t.isValid c.now) :
    (c.service token).run d = (.ok { u with password := ⟨c.newPassword⟩ }, c.committed d t u) := by
  have ⟨ht, _, hu⟩ := found_mem h
  have h₁ : (save Database.users .user (.user u.id) fun r =>
      { r with password := ⟨c.newPassword⟩ }).run d = (.ok (), Store.applyAll d [c.setPassword u]) :=
    run_save (Table.lookup_eq_some.mpr ⟨hu, rfl⟩) h.fits (List.Subset.refl _)
  have h₂ : (consume t c.usedAt).run (Store.applyAll d [c.setPassword u]) =
      (.ok (), Store.applyAll d [c.setPassword u, c.setUsed t]) :=
    run_save (Table.lookup_eq_some.mpr ⟨ht, rfl⟩) rfl (List.Subset.refl _)
  refine run_atomic_eq_ok.mpr <| run_bind_eq_ok.mpr ⟨_, d, run_select_eq_ok.mpr ⟨h.found, rfl⟩, ?_⟩
  simp only [hv, Bool.not_true, Bool.false_eq_true, if_false]
  exact run_bind_eq_ok.mpr ⟨_, _, h₁, run_bind_eq_ok.mpr ⟨_, _, h₂,
    run_bind_eq_ok.mpr ⟨_, _, setOthersUsed_run, rfl⟩⟩⟩

theorem run_eq_ok {a : User} (h : (c.service token).run d = (.ok a, d')) :
    ∃ t u, findResetToken d (hashToken token) = some (t, u) ∧ t.isValid c.now := by
  have ⟨found, d₁, h₁, h⟩ := run_bind_eq_ok.mp <| run_atomic_eq_ok.mp h
  have ⟨hf, hd⟩ := run_select_eq_ok.mp h₁
  cases found
  case none   => cases h
  case some f =>
    obtain ⟨t, u⟩ := f
    simp only at h
    split at h
    case isTrue     => cases h
    case isFalse hv => exact ⟨t, u, hf, by simpa using hv⟩

end Reset

def Token.use {kind : TokenKind} (usedAt : Instant) (t : Token kind) : Token kind :=
  { t with usedAt := some usedAt }

-- The row of a token once the tokens of a user have been used up.
def Token.useUp {kind : TokenKind} (user : Uuid) (usedAt : Instant) (t : Token kind) : Token kind :=
  if t.userId = user ∧ t.usedAt = none then t.use usedAt else t

namespace Token

variable {kind : TokenKind} {user : Uuid} {usedAt : Instant} {t : Token kind}

@[simp]
theorem useUp_id : (t.useUp user usedAt).id = t.id := by
  unfold useUp
  split <;> rfl

@[simp]
theorem useUp_userId : (t.useUp user usedAt).userId = t.userId := by
  unfold useUp
  split <;> rfl

@[simp]
theorem useUp_tokenHash : (t.useUp user usedAt).tokenHash = t.tokenHash := by
  unfold useUp
  split <;> rfl

@[simp]
theorem useUp_expiresAt : (t.useUp user usedAt).expiresAt = t.expiresAt := by
  unfold useUp
  split <;> rfl

@[simp]
theorem useUp_usedAt : (t.useUp user usedAt).usedAt = none ↔ t.userId ≠ user ∧ t.usedAt = none := by
  unfold useUp
  split
  case isTrue h   => simp [Token.use, h.left]
  case isFalse h  => exact ⟨fun hn => ⟨fun hu => h ⟨hu, hn⟩, hn⟩, And.right⟩

theorem useUp_of_ne (h : t.userId ≠ user) : t.useUp user usedAt = t :=
  if_neg fun hu => h hu.left

end Token

namespace Reset

variable {d : Database} {token : String} {t : PasswordResetToken} {u : User}

theorem applyAll_resetTokens (f : PasswordResetToken → PasswordResetToken)
    (ts : List PasswordResetToken) (d : Database) :
    Store.applyAll d (ts.map fun r => (⟨some <| .resetToken r, .resetToken (f r)⟩ : Write)) =
      { d with resetTokens := (ts.map f).foldl Table.put d.resetTokens } := by
  induction ts generalizing d
  case nil      => rfl
  case cons hi  => exact hi _

theorem committed_eq (c : Reset) (d : Database) (t : PasswordResetToken) (u : User) :
    ∃ ts, c.committed d t u =
      { d with users := d.users.put { u with password := ⟨c.newPassword⟩ }, resetTokens := ts } := by
  rw [committed, Store.applyAll_append]
  exact ⟨_, applyAll_resetTokens (Token.use c.usedAt) ..⟩

-- All tokens of the user are used up by a reset.
theorem mem_committed (c : Reset) (ht : t ∈ d.resetTokens) (hu : t.userId = u.id)
    (hn : t.usedAt = none) {r : PasswordResetToken} :
    r ∈ (c.committed d t u).resetTokens ↔ ∃ r₀ ∈ d.resetTokens, r = r₀.useUp u.id c.usedAt := by
  let f : PasswordResetToken → PasswordResetToken := Token.use c.usedAt
  let ts := d.resetTokens.put (f t)
  let others := ts.rows.filter fun r => r.userId = u.id ∧ r.usedAt = none ∧ r.id ≠ t.id
  have hc : (c.committed d t u).resetTokens = (others.map f).foldl Table.put ts := by
    rw [committed, Store.applyAll_append]
    exact congrArg Database.resetTokens <| applyAll_resetTokens f ..
  have ho : ∀ {r}, r ∈ others ↔ r ∈ d.resetTokens ∧ r.userId = u.id ∧ r.usedAt = none ∧ r.id ≠ t.id := by
    intro r
    rw [List.mem_filter, decide_eq_true_eq]
    apply and_congr_left
    rintro ⟨_, hr, hi⟩
    refine Table.mem_put.trans ?_
    constructor
    case mp   => rintro (rfl | h); exacts [(hi rfl).elim, h.left]
    case mpr  => exact fun h => .inr ⟨h, fun hk => hi (Key.token.inj hk).right⟩
  have hf : ∀ r ∈ others, r.useUp u.id c.usedAt = f r := fun r hr =>
    if_pos ⟨(ho.mp hr).right.left, (ho.mp hr).right.right.left⟩
  have hft : t.useUp u.id c.usedAt = f t := if_pos ⟨hu, hn⟩
  rw [hc, Table.mem_foldl_put (f := f) (ts.distinct.filter _) fun _ => rfl]
  constructor
  case mp =>
    rintro (h | ⟨h, hs⟩)
    · obtain ⟨r₀, hr, he⟩ := List.mem_map.mp h
      exact ⟨r₀, (ho.mp hr).left, he.symm.trans (hf r₀ hr).symm⟩
    · cases Table.mem_put.mp h
      case inl h => exact ⟨t, ht, h.trans hft.symm⟩
      case inr h =>
        obtain ⟨hm, hk⟩ := h
        refine ⟨r, hm, (if_neg fun hu => ?_).symm⟩
        exact hs r (ho.mpr ⟨hm, hu.left, hu.right, fun hi => hk <| congrArg (Key.token _) hi⟩) rfl
  case mpr =>
    rintro ⟨r₀, hm, rfl⟩
    by_cases hi : r₀.id = t.id
    case pos =>
      have he : r₀ = t := Table.eq_of_key hm ht <| congrArg (Key.token _) hi
      subst he
      rw [hft]
      exact .inr ⟨Table.mem_put_self .., fun r hr hk =>
        (ho.mp hr).right.right.right (Key.token.inj hk).right.symm⟩
    case neg =>
      by_cases hr : r₀.userId = u.id ∧ r₀.usedAt = none
      case pos =>
        have hr₀ : r₀ ∈ others := ho.mpr ⟨hm, hr.left, hr.right, hi⟩
        exact .inl <| List.mem_map.mpr ⟨r₀, hr₀, (hf r₀ hr₀).symm⟩
      case neg =>
        rw [Token.useUp, if_neg hr]
        refine .inr ⟨Table.mem_put_of_ne hm fun hk => hi (Key.token.inj hk).right, fun r h hk => hr ?_⟩
        obtain ⟨hm', hu, hn, _⟩ := ho.mp h
        rw [Table.eq_of_key hm hm' hk]
        exact ⟨hu, hn⟩

end Reset

-- What is known about the tokens: those which were issued, and the users whose password was reset.
inductive ResetFact
  | issued (token : String) (user : Uuid) (issuedAt : Instant)
  | reset (user : Uuid)
  deriving DecidableEq

-- The token was issued to the user, whose password has not been reset since.
def IsOutstanding (log : List ResetFact) (token : String) (user : Uuid) (issuedAt : Instant) : Prop :=
  ∃ l₁ l₂, log = l₁ ++ .issued token user issuedAt :: l₂ ∧ .reset user ∉ l₁

theorem isOutstanding_cons {f : ResetFact} {log : List ResetFact} {token : String} {user : Uuid}
    {issuedAt : Instant} :
    IsOutstanding (f :: log) token user issuedAt ↔
      f = .issued token user issuedAt ∨ f ≠ .reset user ∧ IsOutstanding log token user issuedAt := by
  constructor
  case mp =>
    intro ⟨l₁, l₂, hl, hn⟩
    cases l₁
    case nil        => exact .inl (List.cons.inj hl).left
    case cons f' l₁ =>
      have ⟨hf, hl⟩ := List.cons.inj hl
      have ⟨hn, hn'⟩ := not_or.mp <| List.mem_cons.not.mp hn
      exact .inr ⟨hf ▸ Ne.symm hn, l₁, l₂, hl, hn'⟩
  case mpr =>
    intro h
    cases h
    case inl h => exact ⟨[], log, h ▸ rfl, List.not_mem_nil⟩
    case inr h =>
      have ⟨hf, l₁, l₂, hl, hn⟩ := h
      exact ⟨f :: l₁, l₂, hl ▸ rfl, List.mem_cons.not.mpr <| not_or.mpr ⟨hf.symm, hn⟩⟩

theorem not_isOutstanding_nil {token : String} {user : Uuid} {issuedAt : Instant} :
    ¬IsOutstanding [] token user issuedAt := by
  intro ⟨_, _, hl, _⟩
  simp at hl

abbrev ResetHistory := History Database ResetFact

namespace ResetHistory

inductive Event
  | request (email : String) (i : TokenIssue)
  | confirm (token : String) (c : Reset)

def step (p : Platform) (σ : ResetHistory) : Event → ResetHistory
  | .request email i =>
    σ.record (fun _ => ((resettableUser p σ.db email).map fun u => .issued i.token u.id i.now).toList) <|
      (requestPasswordReset p email i).run σ.db
  | .confirm token c => σ.record (fun u => [.reset u.id]) <| (c.service token).run σ.db

def run (p : Platform) (σ : ResetHistory) (es : List Event) : ResetHistory :=
  es.foldl (step p) σ

-- How the tables reflect the tokens which have been issued.
structure Reflects (σ : ResetHistory) : Prop where
  fits        : ∀ u ∈ σ.db.users, (Row.user u).fits
  owned       : ∀ t ∈ σ.db.resetTokens, ∃ u ∈ σ.db.users, u.id = t.userId
  unique      : ∀ t₁ ∈ σ.db.resetTokens, ∀ t₂ ∈ σ.db.resetTokens, t₁.tokenHash = t₂.tokenHash → t₁ = t₂
  known       : ∀ token user issuedAt, .issued token user issuedAt ∈ σ.log →
                  ∃ t ∈ σ.db.resetTokens, t.tokenHash = hashToken token ∧ t.userId = user
  expires     : ∀ t ∈ σ.db.resetTokens, ∃ issuedAt,
                  Instant.addHours issuedAt passwordResetTokenTtlHours = some t.expiresAt
  outstanding : ∀ token user issuedAt, IsOutstanding σ.log token user issuedAt ↔
                  ∃ t ∈ σ.db.resetTokens, t.tokenHash = hashToken token ∧ t.userId = user ∧
                    t.usedAt = none ∧ issuedAt.addHours passwordResetTokenTtlHours = some t.expiresAt

-- What an event does.
inductive Answers (p : Platform) (σ : ResetHistory) : Event → ResetHistory → Prop
  | nothing {event} :
    Answers p σ event σ
  | issued {email i u exp} :
    i.now.addHours passwordResetTokenTtlHours = some exp →
    resettableUser p σ.db email = some u →
    Accepts σ.db (⟨none, .resetToken <| newToken _ u.id i exp⟩ : Write) →
    Answers p σ (.request email i)
      ⟨σ.db.put <| .resetToken <| newToken _ u.id i exp, .issued i.token u.id i.now :: σ.log⟩
  | reset {token c t u} :
    IsResetToken σ.db token t u →
    t.isValid c.now →
    Answers p σ (.confirm token c) ⟨c.committed σ.db t u, .reset u.id :: σ.log⟩

variable {p : Platform} {σ σ' : ResetHistory} {event : Event} {token : String} {c : Reset}
  {t : PasswordResetToken} {u : User}

-- The row of a token is the one that is found.
theorem Reflects.isResetToken (h : σ.Reflects) (hf : findResetToken σ.db (hashToken token) = some (t, u)) :
    IsResetToken σ.db token t u where
  found         := hf
  unique r hr hh :=
    have ⟨ht, hh', _⟩ := findResetToken_eq_some hf
    h.unique r hr t ht <| hh.trans hh'.symm
  fits          := h.fits u (findResetToken_eq_some hf).right.right.left

theorem Reflects.step_answers (h : σ.Reflects) (event : Event) : Answers p σ event (σ.step p event) := by
  cases event
  case request email i =>
    apply History.record_cases
    case he =>
      intro x d hr
      rw [requestPasswordReset_run_eq_error hr]
      exact .nothing
    case ho =>
      intro _ d hr
      have hr := requestPasswordReset_run_eq_ok hr
      cases hu : resettableUser p σ.db email
      case none =>
        rw [hu] at hr
        rw [hr]
        exact .nothing
      case some u =>
        rw [hu] at hr
        have ⟨exp, hx, ha, hd⟩ := hr
        rw [hd]
        exact .issued hx hu ha
  case confirm token c =>
    apply History.record_cases
    case he =>
      intro x d hr
      rw [run_atomic_eq_error hr]
      exact .nothing
    case ho =>
      intro a d hr
      have ⟨t, u, hf, hv⟩ := Reset.run_eq_ok hr
      have ht := h.isResetToken hf
      cases hr.symm.trans <| Reset.run ht hv
      exact .reset ht hv

theorem resettableUser_mem {d : Database} {email : String} (h : resettableUser p d email = some u) :
    u ∈ d.users :=
  List.mem_of_find?_eq_some (Option.filter_eq_some_iff.mp h).left

namespace Reflects

theorem start {d : Database} (hd : d.resetTokens.rows = []) (hf : ∀ u ∈ d.users, (Row.user u).fits) :
    Reflects (.start d) := by
  have hn : ∀ t, t ∉ d.resetTokens := by
    intro t ht
    have ht : t ∈ d.resetTokens.rows := ht
    simp [hd] at ht
  exact {
    fits              := hf
    owned t ht        := (hn t ht).elim
    unique t ht       := (hn t ht).elim
    known _ _ _ h     := (List.not_mem_nil h).elim
    expires t ht      := (hn t ht).elim
    outstanding _ _ _ := ⟨fun h => (not_isOutstanding_nil h).elim, fun ⟨t, ht, _⟩ => (hn t ht).elim⟩
  }

theorem issue (h : σ.Reflects) {i : TokenIssue} {exp : Instant}
    (hx : i.now.addHours passwordResetTokenTtlHours = some exp) (hu : u ∈ σ.db.users)
    (ha : Accepts σ.db (⟨none, .resetToken <| newToken _ u.id i exp⟩ : Write)) :
    Reflects ⟨σ.db.put <| .resetToken <| newToken _ u.id i exp, .issued i.token u.id i.now :: σ.log⟩ := by
  have hn : ∀ t ∈ σ.db.resetTokens, t.tokenHash ≠ hashToken i.token := fun t ht hh =>
    accepts_fresh ha t ht _ List.mem_cons_self <|
      List.mem_singleton.mpr <| congrArg (Key.tokenHash _) hh.symm
  have hk : ∀ t ∈ σ.db.resetTokens, t ∈ σ.db.resetTokens.put (newToken _ u.id i exp) := fun t ht =>
    Table.mem_put_of_ne ht <| accepts_new ha t ht
  constructor
  case fits => exact h.fits
  case owned =>
    intro t ht
    cases Table.mem_put.mp ht
    case inl ht => exact ⟨u, hu, ht ▸ rfl⟩
    case inr ht => exact h.owned t ht.left
  case unique =>
    intro t₁ h₁ t₂ h₂ hh
    cases Table.mem_put.mp h₁ <;> cases Table.mem_put.mp h₂
    case inl.inl h₁ h₂ => exact h₁.trans h₂.symm
    case inl.inr h₁ h₂ => exact (hn t₂ h₂.left <| hh.symm.trans <| h₁ ▸ rfl).elim
    case inr.inl h₁ h₂ => exact (hn t₁ h₁.left <| hh.trans <| h₂ ▸ rfl).elim
    case inr.inr h₁ h₂ => exact h.unique t₁ h₁.left t₂ h₂.left hh
  case known =>
    intro token user issuedAt hm
    cases List.mem_cons.mp hm
    case inl he => cases he; exact ⟨_, Table.mem_put_self .., rfl, rfl⟩
    case inr hm =>
      have ⟨t, ht, hh, hu⟩ := h.known token user issuedAt hm
      exact ⟨t, hk t ht, hh, hu⟩
  case expires =>
    intro t ht
    cases Table.mem_put.mp ht
    case inl ht => exact ⟨i.now, ht ▸ hx⟩
    case inr ht => exact h.expires t ht.left
  case outstanding =>
    intro token user issuedAt
    rw [isOutstanding_cons]
    constructor
    case mp =>
      intro ho
      cases ho
      case inl he => cases he; exact ⟨_, Table.mem_put_self .., rfl, rfl, rfl, hx⟩
      case inr ho =>
        have ⟨t, ht, hs⟩ := (h.outstanding token user issuedAt).mp ho.right
        exact ⟨t, hk t ht, hs⟩
    case mpr =>
      intro ⟨t, ht, hh, hi, hun, he⟩
      cases Table.mem_put.mp ht
      case inl ht =>
        subst ht
        have htok : i.token = token := congrArg Sha256.preimage hh
        have hat : i.now = issuedAt := Instant.addHours_inj hx he
        have hi : u.id = user := hi
        exact .inl <| by rw [htok, hat, hi]
      case inr ht =>
        exact .inr ⟨by simp, (h.outstanding token user issuedAt).mpr ⟨t, ht.left, hh, hi, hun, he⟩⟩

theorem reset (h : σ.Reflects) (ht : IsResetToken σ.db token t u) (hv : t.isValid c.now) :
    Reflects ⟨c.committed σ.db t u, .reset u.id :: σ.log⟩ := by
  have ⟨hm, _, hu, hi⟩ := findResetToken_eq_some ht.found
  have hn : t.usedAt = none := (of_decide_eq_true hv).left
  have ⟨ts, hc⟩ := Reset.committed_eq c σ.db t u
  have hk : ∀ {r}, r ∈ (c.committed σ.db t u).resetTokens ↔
      ∃ r₀ ∈ σ.db.resetTokens, r = r₀.useUp u.id c.usedAt := Reset.mem_committed c hm hi.symm hn
  have hus : (c.committed σ.db t u).users = σ.db.users.put { u with password := ⟨c.newPassword⟩ } := by
    rw [hc]
  constructor
  case fits =>
    intro v hv
    rw [hus] at hv
    cases Table.mem_put.mp hv
    case inl hv => exact hv ▸ ht.fits
    case inr hv => exact h.fits v hv.left
  case owned =>
    intro r hr
    have ⟨r₀, hr₀, he⟩ := hk.mp hr
    have ⟨v, hv, hi⟩ := h.owned r₀ hr₀
    have ⟨v', hv', hi'⟩ := Table.exists_mem_put { u with password := ⟨c.newPassword⟩ } hv
    refine ⟨v', hus ▸ hv', ?_⟩
    rw [he, Token.useUp_userId, ←hi]
    exact Key.user.inj hi'
  case unique =>
    intro r₁ h₁ r₂ h₂ hh
    have ⟨r₁', h₁', he₁⟩ := hk.mp h₁
    have ⟨r₂', h₂', he₂⟩ := hk.mp h₂
    rw [he₁, he₂, Token.useUp_tokenHash, Token.useUp_tokenHash] at hh
    rw [he₁, he₂, h.unique r₁' h₁' r₂' h₂' hh]
  case known =>
    intro token user issuedAt hm
    have hm := (List.mem_cons.mp hm).resolve_left (by simp)
    have ⟨r, hr, hh, hu⟩ := h.known token user issuedAt hm
    exact ⟨_, hk.mpr ⟨r, hr, rfl⟩, by simp [hh], by simp [hu]⟩
  case expires =>
    intro r hr
    have ⟨r₀, hr₀, he⟩ := hk.mp hr
    rw [he, Token.useUp_expiresAt]
    exact h.expires r₀ hr₀
  case outstanding =>
    intro token user issuedAt
    rw [isOutstanding_cons, h.outstanding]
    constructor
    case mp =>
      intro ho
      have ⟨hne, r, hr, hh, hi, hun, hx⟩ := ho.resolve_left (by simp)
      have hne : r.userId ≠ u.id := fun he => hne <| by rw [←he, hi]
      refine ⟨r, hk.mpr ⟨r, hr, (Token.useUp_of_ne hne).symm⟩, hh, hi, hun, hx⟩
    case mpr =>
      intro ⟨r, hr, hh, hi, hun, hx⟩
      have ⟨r₀, hr₀, he⟩ := hk.mp hr
      rw [he, Token.useUp_usedAt] at hun
      rw [he, Token.useUp_of_ne hun.left] at hh hi hx
      exact .inr ⟨by simp [←hi, hun.left.symm], r₀, hr₀, hh, hi, hun.right, hx⟩

theorem step (h : σ.Reflects) (ha : Answers p σ event σ') : σ'.Reflects := by
  cases ha
  case nothing          => exact h
  case issued hx hu ha  => exact h.issue hx (resettableUser_mem hu) ha
  case reset ht hv      => exact h.reset ht hv

theorem run (h : σ.Reflects) (es : List Event) : (σ.run p es).Reflects := by
  induction es generalizing σ
  case nil        => exact h
  case cons hi    => exact hi <| h.step (h.step_answers _)

end Reflects
-- The token is known, but has been used or invalidated.
def IsSpent (token : String) (d : Database) : Prop :=
  ∃ t ∈ d.resetTokens, t.tokenHash = hashToken token ∧ t.usedAt ≠ none

theorem isSpent_committed {d : Database} (ht : IsResetToken d token t u) (hv : t.isValid c.now)
    {token' : String} {r : PasswordResetToken} (hr : r ∈ d.resetTokens)
    (hh : r.tokenHash = hashToken token') (hu : r.userId = u.id ∨ r.usedAt ≠ none) :
    IsSpent token' (c.committed d t u) := by
  have ⟨hm, _, _, hi⟩ := findResetToken_eq_some ht.found
  have hn : t.usedAt = none := (of_decide_eq_true hv).left
  refine ⟨_, (Reset.mem_committed c hm hi.symm hn).mpr ⟨r, hr, rfl⟩, by simp [hh], ?_⟩
  rw [ne_eq, Token.useUp_usedAt]
  exact fun h => hu.elim h.left (· h.right)

namespace IsSpent

theorem step (h : IsSpent token σ.db) (ha : Answers p σ event σ') : IsSpent token σ'.db := by
  have ⟨r, hr, hh, hn⟩ := h
  cases ha
  case nothing          => exact h
  case issued ha        => exact ⟨r, Table.mem_put_of_ne hr <| accepts_new ha r hr, hh, hn⟩
  case reset ht hv      => exact isSpent_committed ht hv hr hh <| .inr hn

theorem run (h : IsSpent token σ.db) (hσ : σ.Reflects) (es : List Event) :
    IsSpent token (σ.run p es).db := by
  induction es generalizing σ
  case nil              => exact h
  case cons event _ hi  =>
    have ha := hσ.step_answers (p := p) event
    exact hi (h.step ha) (hσ.step ha)

theorem refuses (h : IsSpent token σ.db) (hσ : σ.Reflects) (c : Reset) :
    ¬((c.service token).run σ.db).fst.isOk := by
  intro hr
  have ⟨a, hr⟩ : ∃ a, ((c.service token).run σ.db).fst.toOption = some a := by
    cases hx : ((c.service token).run σ.db).fst
    case error  => rw [hx] at hr; cases hr
    case ok a   => exact ⟨a, rfl⟩
  have ⟨t, u, hf, hv⟩ := Reset.run_eq_ok <| run_eq_ok hr
  have ⟨r, hr, hh, hn⟩ := h
  have he : r = t := (hσ.isResetToken hf).unique r hr hh
  exact hn <| he ▸ (of_decide_eq_true hv).left

end IsSpent

-- What is achieved when the password of the user is reset by a token.
structure Resets (p : Platform) (σ σ' : ResetHistory) (token : String) (c : Reset) (u : User) : Prop where
  outstanding : ∃ issuedAt exp, IsOutstanding σ.log token u.id issuedAt ∧
                  issuedAt.addHours passwordResetTokenTtlHours = some exp ∧ c.now < exp
  password    : u.password = ⟨c.newPassword⟩ ∧ σ'.db.users.lookup (.user u.id) = some u
  otherUsers  : ∀ v : User, v.id ≠ u.id → (v ∈ σ'.db.users ↔ v ∈ σ.db.users)
  otherTokens : ∀ t : PasswordResetToken, t.userId ≠ u.id →
                  (t ∈ σ'.db.resetTokens ↔ t ∈ σ.db.resetTokens)
  unusable    : ∀ token' issuedAt, .issued token' u.id issuedAt ∈ σ.log → ∀ es (c' : Reset),
                  ¬((c'.service token').run (σ'.run p es).db).fst.isOk

theorem Reflects.resets (h : σ.Reflects) (ht : IsResetToken σ.db token t u) (hv : t.isValid c.now) :
    Resets p σ ⟨c.committed σ.db t u, .reset u.id :: σ.log⟩ token c
      { u with password := ⟨c.newPassword⟩ } := by
  have ⟨hm, hh, hu, hi⟩ := findResetToken_eq_some ht.found
  have ⟨hn, hx⟩ := of_decide_eq_true hv
  have ⟨ts, hc⟩ := Reset.committed_eq c σ.db t u
  have hk : ∀ {r}, r ∈ (c.committed σ.db t u).resetTokens ↔
      ∃ r₀ ∈ σ.db.resetTokens, r = r₀.useUp u.id c.usedAt := Reset.mem_committed c hm hi.symm hn
  constructor
  case outstanding =>
    have ⟨issuedAt, hx'⟩ := h.expires t hm
    exact ⟨issuedAt, t.expiresAt, (h.outstanding ..).mpr ⟨t, hm, hh, hi.symm, hn, hx'⟩, hx', hx⟩
  case password =>
    refine ⟨rfl, ?_⟩
    rw [hc]
    exact Table.lookup_put_self ..
  case otherUsers =>
    intro v hv
    rw [hc]
    refine Table.mem_put.trans ⟨fun h => ?_, fun h => .inr ⟨h, fun hk => hv <| Key.user.inj hk⟩⟩
    exact (h.resolve_left fun he => hv <| he ▸ rfl).left
  case otherTokens =>
    intro r hr
    refine hk.trans ⟨fun ⟨r₀, hr₀, he⟩ => ?_, fun hm => ⟨r, hm, (Token.useUp_of_ne hr).symm⟩⟩
    rw [he, Token.useUp_userId] at hr
    rwa [he, Token.useUp_of_ne hr]
  case unusable =>
    intro token' issuedAt hi' es c'
    have ⟨r, hr, hh', hu'⟩ := h.known token' _ issuedAt hi'
    have hs : IsSpent token' (c.committed σ.db t u) := isSpent_committed ht hv hr hh' <| .inl hu'
    have hσ : Reflects ⟨c.committed σ.db t u, .reset u.id :: σ.log⟩ := h.reset ht hv
    exact IsSpent.refuses (hs.run (σ := ⟨c.committed σ.db t u, .reset u.id :: σ.log⟩) hσ es) (hσ.run es) c'

theorem Reflects.found (h : σ.Reflects) (ht : t ∈ σ.db.resetTokens) (hh : t.tokenHash = hashToken token) :
    ∃ u, findResetToken σ.db (hashToken token) = some (t, u) := by
  cases hf : findResetToken σ.db (hashToken token)
  case none =>
    have ⟨u, hu, hi⟩ := h.owned t ht
    have hl : σ.db.users.lookup (.user t.userId) = some u :=
      Table.lookup_eq_some.mpr ⟨hu, congrArg Key.user hi⟩
    have hn := List.findSome?_eq_none_iff.mp hf t ht
    simp [hh, hl] at hn
  case some f =>
    have he : t = f.1 := (h.isResetToken hf).unique t ht hh
    exact ⟨f.2, by rw [he]⟩

theorem Reflects.confirm_run (h : σ.Reflects) (token : String) (c : Reset) :
    (∃ t u, IsResetToken σ.db token t u ∧ t.isValid c.now ∧
      (c.service token).run σ.db =
        (.ok { u with password := ⟨c.newPassword⟩ }, c.committed σ.db t u)) ∨
    (∃ x, (c.service token).run σ.db = (.error x, σ.db)) := by
  cases hr : (c.service token).run σ.db
  case mk r d =>
    cases r
    case error x  => exact .inr ⟨x, by rw [run_atomic_eq_error hr]⟩
    case ok a     =>
      have ⟨t, u, hf, hv⟩ := Reset.run_eq_ok hr
      have ht := h.isResetToken hf
      exact .inl ⟨t, u, ht, hv, hr.symm.trans <| Reset.run ht hv⟩

-- A reset succeeds exactly for a token that was issued within the last hour to a user whose password
-- has not been reset since. It uses up all tokens of the user.
theorem confirm_password_reset_iff (p : Platform) (d : Database) (es : List Event) (token : String)
    (c : Reset) (hd : d.resetTokens.rows = []) (hf : ∀ u ∈ d.users, (Row.user u).fits) :
    let σ := run p (.start d) es
    let r := (confirmPasswordReset token c.newPassword c.now c.usedAt).run σ.db
    (r.fst.isOk ↔ ∃ user issuedAt exp, IsOutstanding σ.log token user issuedAt ∧
      issuedAt.addHours passwordResetTokenTtlHours = some exp ∧ c.now < exp) ∧
    (∀ u, r.fst = .ok u → Resets p σ (σ.step p <| .confirm token c) token c u) ∧
    (∀ x, r.fst = .error x → r.snd = σ.db) := by
  intro σ r
  have h : σ.Reflects := (Reflects.start hd hf).run es
  refine ⟨⟨fun hr => ?_, fun ⟨user, issuedAt, exp, ho, hx, hn⟩ => ?_⟩, fun u hr => ?_, fun x hr => ?_⟩
  · cases h.confirm_run token c
    case inr hx =>
      have ⟨x, hx⟩ := hx
      rw [show r = (.error x, σ.db) from hx] at hr
      cases hr
    case inl ho =>
      have ⟨t, u, ht, hv, _⟩ := ho
      have ⟨issuedAt, exp, hs⟩ := (h.resets (p := p) ht hv).outstanding
      exact ⟨u.id, issuedAt, exp, hs⟩
  · have ⟨t, ht, hh, hi, hun, hx'⟩ := (h.outstanding token user issuedAt).mp ho
    cases hx.symm.trans hx'
    have ⟨u, hf⟩ := h.found ht hh
    have hr : r = _ := Reset.run (h.isResetToken hf) <| decide_eq_true ⟨hun, hn⟩
    rw [hr]
    rfl
  · cases h.confirm_run token c
    case inr hx =>
      have ⟨x, hx⟩ := hx
      cases hr.symm.trans <| congrArg Prod.fst hx
    case inl ho =>
      have ⟨t, u', ht, hv, ho⟩ := ho
      cases hr.symm.trans <| congrArg Prod.fst ho
      rw [step, ho]
      exact h.resets ht hv
  · exact run_atomic_eq_error <| Prod.ext hr rfl

section Example

-- Two tokens are issued, of which the second one is used.
def exampleRequests : List Event := [
  .request "user@example.com" ⟨"first", 1, .midnight 739000⟩,
  .request "user@example.com" ⟨"second", 2, .midnight 739000⟩,
  .confirm "second" ⟨"new-password", .midnight 739000, .midnight 739000⟩
]

def exampleAccount : Database :=
  { Database.empty with users := .put .empty Seed.user }

theorem first_token_is_invalidated :
    let σ := run .ascii (.start exampleAccount) exampleRequests
    let c : Reset := ⟨"other-password", .midnight 739000, .midnight 739000⟩
    let r := (confirmPasswordReset "first" c.newPassword c.now c.usedAt).run σ.db
    σ.log = [.reset 1, .issued "second" 1 (.midnight 739000), .issued "first" 1 (.midnight 739000)] ∧
    (r.fst.isOk ↔ ∃ user issuedAt exp, IsOutstanding σ.log "first" user issuedAt ∧
      issuedAt.addHours passwordResetTokenTtlHours = some exp ∧ c.now < exp) ∧
    (∀ u, r.fst = .ok u → Resets .ascii σ (σ.step .ascii <| .confirm "first" c) "first" c u) ∧
    (∀ x, r.fst = .error x → r.snd = σ.db) :=
  ⟨by decide +kernel, confirm_password_reset_iff .ascii exampleAccount exampleRequests "first" _ rfl <| by
    decide⟩

end Example
end ResetHistory
end SaasBackend
