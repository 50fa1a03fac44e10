import SaasBackend.Analytics.Concurrency
import SaasBackend.ApiKeys.Serial
import SaasBackend.QuerySet
import SaasBackend.ReadCommitted.Evolution
import SaasBackend.Subscriptions.SeedPlans
import SaasBackend.Users.Views

open Calendar ReadCommitted ReadCommitted.Service

namespace SaasBackend

open Service

section Rows

-- What an update of a row never changes: the row without the columns which are written in place.
def Row.origin : Row → Row
  | user u              => .user { u with
                             password := ⟨""⟩, firstName := "", lastName := "", isVerified := false,
                             lastLogin := none, lastLoginAt := none }
  | plan p              => .plan { p with
                             requestQuota := 0, rateLimitPerMinute := 0, maxApiKeys := 0,
                             durationDays := 0, features := [], isActive := false }
  | subscription s      => .subscription { s with status := .active, canceledAt := none, autoRenew := false }
  | usageQuota q        => .usageQuota { q with requestsUsed := 0 }
  | verificationToken t => .verificationToken { t with usedAt := none }
  | resetToken t        => .resetToken { t with usedAt := none }
  | session s           => .session { s with revokedAt := none }
  | apiKey k            => .apiKey { k with lastUsedAt := none, revokedAt := none }
  | requestLog l        => .requestLog l
  | dailyUsage u        => .dailyUsage { u with requestCount := 0, errorCount := 0, avgResponseMs := 0 }
  | outstandingToken t  => .outstandingToken t
  | blacklistedToken t  => .blacklistedToken t

-- How far a row has got: what is set once and for all, or only counted up.
def Row.progress : Row → Nat
  | user u              => u.isVerified.toNat
  | subscription s      => (decide (s.status ≠ .active)).toNat
  | usageQuota q        => q.requestsUsed
  | verificationToken t => t.usedAt.isSome.toNat
  | resetToken t        => t.usedAt.isSome.toNat
  | session s           => s.revokedAt.isSome.toNat
  | apiKey k            => k.revokedAt.isSome.toNat
  | _                   => 0

def Row.password : Row → Option PasswordHash
  | user u => some u.password
  | _      => none

-- A user has a password that may be set for him, when `S` says which those are.
def Row.IsPermitted (S : Uuid → String → Prop) : Row → Prop
  | user u => S u.id u.password.plaintext
  | _      => True

-- A later version of a row. A password is replaced by one that is permitted only.
structure Row.Precedes (S : Uuid → String → Prop) (r r' : Row) : Prop where
  origin   : r'.origin = r.origin
  progress : r.progress ≤ r'.progress
  password : r'.password = r.password ∨ r'.IsPermitted S

-- A row as it is inserted.
def Row.IsFresh (S : Uuid → String → Prop) : Row → Prop
  | user u              => u.role = .customer ∧ u.isActive ∧ u.isVerified = false ∧ S u.id u.password.plaintext
  | subscription s      => s.status = .active
  | usageQuota q        => q.requestsUsed = 0
  | verificationToken t => t.usedAt = none
  | resetToken t        => t.usedAt = none
  | session s           => s.revokedAt = none
  | apiKey k            => k.lastUsedAt = none ∧ k.revokedAt = none
  | _                   => True

variable {S S' : Uuid → String → Prop} {r r' : Row}

theorem Row.IsPermitted.of_origin (h : r.IsPermitted S) (ho : r'.origin = r.origin)
    (hp : r'.password = r.password) : r'.IsPermitted S := by
  cases r' <;> cases r <;> simp only [Row.origin, reduceCtorEq] at ho <;> try exact trivial
  case user.user u' u =>
    have ho := Row.user.inj ho
    have hi := congrArg User.id ho
    have hp : u'.password = u.password := Option.some.inj hp
    exact show S u'.id u'.password.plaintext from hi ▸ hp ▸ h

theorem Row.IsPermitted.mono (h : ∀ user password, S user password → S' user password)
    (hr : r.IsPermitted S) : r.IsPermitted S' := by
  cases r
  case user => exact h _ _ hr
  all_goals exact trivial

theorem Row.Precedes.mono (h : ∀ user password, S user password → S' user password) (hr : r.Precedes S r') :
    r.Precedes S' r' :=
  ⟨hr.origin, hr.progress, hr.password.imp_right <| Row.IsPermitted.mono h⟩

theorem Row.IsFresh.mono (h : ∀ user password, S user password → S' user password) (hr : r.IsFresh S) :
    r.IsFresh S' := by
  cases r
  case user => exact ⟨hr.left, hr.right.left, hr.right.right.left, h _ _ hr.right.right.right⟩
  all_goals exact hr

instance : Std.Refl (Row.Precedes S) where
  refl _ := ⟨rfl, le_rfl, .inl rfl⟩

instance : IsTrans Row (Row.Precedes S) where
  trans _ _ _ h₁ h₂ := {
    origin   := h₂.origin.trans h₁.origin
    progress := h₁.progress.trans h₂.progress
    password := by
      cases h₂.password
      case inr h  => exact .inr h
      case inl h  => exact h₁.password.imp h.trans fun hp => hp.of_origin h₂.origin h
  }

inductive TableName
  | users
  | plans
  | subscriptions
  | usageQuotas
  | verificationTokens
  | resetTokens
  | sessions
  | apiKeys
  | requestLogs
  | dailyUsage
  | outstandingTokens
  | blacklistedTokens
  deriving DecidableEq

@[simp]
def Row.table : Row → TableName
  | user _              => .users
  | plan _              => .plans
  | subscription _      => .subscriptions
  | usageQuota _        => .usageQuotas
  | verificationToken _ => .verificationTokens
  | resetToken _        => .resetTokens
  | session _           => .sessions
  | apiKey _            => .apiKeys
  | requestLog _        => .requestLogs
  | dailyUsage _        => .dailyUsage
  | outstandingToken _  => .outstandingTokens
  | blacklistedToken _  => .blacklistedTokens

-- The tables which a service inserts rows into, and those whose rows it updates or locks.
structure Footprint where
  inserts : List TableName
  updates : List TableName

-- A fresh row is inserted, or a row is replaced by a later version of it, within the footprint `f`.
structure Advances (S : Uuid → String → Prop) (f : Footprint) (w : Write) : Prop where
  evolves : w.Evolves (Row.IsFresh S) (Row.Precedes S)
  inserts : w.old = none → w.new.table ∈ f.inserts
  updates : w.old ≠ none → w.new.table ∈ f.updates

variable {f g : Footprint}

theorem advances_insert {r : Row} (h : r.IsFresh S) (hf : f.inserts.contains r.table) :
    Advances S f ⟨none, r⟩ where
  evolves   := ⟨fun _ => h, nofun⟩
  inserts _ := List.contains_iff_mem.mp hf
  updates h := (h rfl).elim

theorem advances_replace {r r' : Row} (h : r.Precedes S r')
    (hf : f.updates.contains r'.table) : Advances S f ⟨some r, r'⟩ where
  evolves   := ⟨nofun, fun _ ho => Option.some.inj ho ▸ h⟩
  inserts   := nofun
  updates _ := List.contains_iff_mem.mp hf

theorem Advances.within {w : Write} (h : Advances S f w) (hi : f.inserts ⊆ g.inserts)
    (hu : f.updates ⊆ g.updates) : Advances S g w where
  evolves   := h.evolves
  inserts o := hi <| h.inserts o
  updates o := hu <| h.updates o

theorem Advances.mono {w : Write} (h : ∀ user password, S user password → S' user password)
    (hw : Advances S f w) : Advances S' f w where
  evolves := ⟨fun ho => (hw.evolves.fresh ho).mono h, fun o ho => (hw.evolves.later o ho).mono h⟩
  inserts := hw.inserts
  updates := hw.updates

end Rows

section Issues

variable {S : Uuid → String → Prop} {f g : Footprint}

theorem create_issues {r : Row} (h : r.IsFresh S) (hf : f.inserts.contains r.table) :
    (create r).Issues (Advances S f) :=
  Issues.create <| advances_insert h hf

theorem issues_within {α : Type} {s : Service α} (h : s.Issues (Advances S f))
    (hi : f.inserts.all g.inserts.contains)
    (hu : f.updates.all g.updates.contains) :
    s.Issues (Advances S g) :=
  Issues.mono h fun _ hw => hw.within (fun _ hm => List.contains_iff_mem.mp <| List.all_eq_true.mp hi _ hm)
    fun _ hm => List.contains_iff_mem.mp <| List.all_eq_true.mp hu _ hm

theorem selectForUpdate_issues {R : Type} [Entity R Key] {table : Database → Table R} {row : R → Row}
    [IsTable table row] {q : Database → Option R} (hq : ∀ d r, q d = some r → r ∈ table d)
    (hf : ∀ r, f.updates.contains (row r).table) : (selectForUpdate row q).Issues (Advances S f) := by
  refine Issues.stmt (honest_selectForUpdate hq) fun d w hw => ?_
  have ⟨r, _, hw⟩ := Option.map_eq_some_iff.mp <| Option.mem_toList.mp hw
  exact hw ▸ advances_replace (Std.Refl.refl _) (hf r)

section Subscriptions

theorem createSubscription_advances (user : Uuid) (plan : Plan) (expires : Bool) (o : Opening) :
    (createSubscription user plan expires o).Issues (Advances S ⟨[.subscriptions, .usageQuotas], []⟩) :=
  Issues.bind (Issues.ofExcept _) fun _ =>
    Issues.bind (create_issues rfl rfl) fun _ =>
      Issues.bind (Issues.ofExcept _) fun _ =>
        Issues.bind (create_issues rfl rfl) fun _ => Issues.pure _

theorem enrollInFreePlan_advances (user : Uuid) (o : Opening) :
    (enrollInFreePlan user o).Issues (Advances S ⟨[.subscriptions, .usageQuotas], []⟩) := by
  refine Issues.atomic <| Issues.bind (Issues.select _) fun plan => ?_
  cases plan
  case none   => exact Issues.raise _
  case some   => exact createSubscription_advances ..

-- A subscription that ends is not active anymore.
theorem endSubscription_advances (id : Uuid) {g : Subscription → Subscription}
    (hg : ∀ s, (g s).status ≠ .active) (ho : ∀ s, (Row.subscription (g s)).origin = (Row.subscription s).origin)
    (hi : ∀ s, (g s).id = s.id) :
    (save Database.subscriptions .subscription (.subscription id) g).Issues
      (Advances S ⟨[], [.subscriptions]⟩) := by
  refine Issues.save (fun s => congrArg Key.subscription (hi s)) fun s =>
    advances_replace ⟨ho s, ?_, ?_⟩ rfl
  · simp only [Row.progress, hg s, ne_eq, not_false_eq_true, decide_true]
    exact Bool.toNat_le _
  · exact .inl rfl

theorem subscribe_advances (user : Uuid) (planSlug : String) (canceledAt : Instant) (o : Opening) :
    (subscribe user planSlug canceledAt o).Issues
      (Advances S ⟨[.subscriptions, .usageQuotas], [.subscriptions]⟩) := by
  refine Issues.atomic <| Issues.bind (Issues.select _) fun plan => ?_
  cases plan
  case none       => exact Issues.raise _
  case some plan  =>
    refine Issues.bind (Issues.select _) fun current => ?_
    cases current
    case none         => exact issues_within (createSubscription_advances ..) rfl rfl
    case some current =>
      dsimp only
      split
      case isTrue   => exact Issues.raise _
      case isFalse  =>
        refine Issues.bind (issues_within (endSubscription_advances _ ?_ ?_ ?_) rfl rfl) fun _ =>
          issues_within (createSubscription_advances ..) rfl rfl
        · exact fun _ => SubscriptionStatus.noConfusion
        all_goals exact fun _ => rfl

theorem cancel_advances (user : Uuid) (canceledAt : Instant) (o : Opening) :
    (cancel user canceledAt o).Issues (Advances S ⟨[.subscriptions, .usageQuotas], [.subscriptions]⟩) := by
  refine Issues.atomic <| Issues.bind (Issues.select _) fun sub => ?_
  cases sub
  case none => exact Issues.raise _
  case some =>
    refine Issues.bind (issues_within (endSubscription_advances _ ?_ ?_ ?_) rfl rfl) fun _ =>
      issues_within (enrollInFreePlan_advances ..) rfl rfl
    · exact fun _ => SubscriptionStatus.noConfusion
    all_goals exact fun _ => rfl

theorem charge_advances (sub : LoadedSubscription) (r : Recording) :
    (charge sub r).Issues (Advances S ⟨[.usageQuotas], [.usageQuotas]⟩) := by
  apply Issues.bind
  case h  =>
    refine Issues.bind (Issues.select _) fun quota => ?_
    cases quota
    case some => exact Issues.pure _
    case none =>
      refine Issues.bind (Issues.ofExcept _) fun period => ?_
      exact Issues.bind (create_issues rfl rfl) fun _ => Issues.pure _
  case hf =>
    intro quota
    split
    case isTrue   => exact Issues.raise _
    case isFalse  => exact Issues.update (fun _ => rfl) fun _ => advances_replace ⟨rfl, Nat.le_succ _, .inl rfl⟩ rfl

theorem recordRequest_advances (user : Uuid) (r : Recording) :
    (recordRequest user r).Issues (Advances S ⟨[.subscriptions, .usageQuotas], [.usageQuotas]⟩) := by
  refine Issues.bind (Issues.select _) fun sub => ?_
  cases sub
  case some => exact issues_within (charge_advances ..) rfl rfl
  case none =>
    exact Issues.bind (issues_within (enrollInFreePlan_advances ..) rfl rfl) fun _ =>
      issues_within (charge_advances ..) rfl rfl

theorem expireSubscriptions_advances (openings : Uuid → Opening) (subs : List LoadedSubscription)
    (affected : Nat) :
    (expireSubscriptions openings subs affected).Issues
      (Advances S ⟨[.subscriptions, .usageQuotas], [.subscriptions]⟩) := by
  induction subs generalizing affected
  case nil            => exact Issues.pure _
  case cons sub _ hi  =>
    refine Issues.bind (Issues.handle (Issues.atomic ?_) fun _ => Issues.pure _) fun _ => hi _
    refine Issues.bind (issues_within (endSubscription_advances _ ?_ ?_ ?_) rfl rfl) fun _ => ?_
    · exact fun _ => SubscriptionStatus.noConfusion
    · exact fun _ => rfl
    · exact fun _ => rfl
    · exact Issues.bind (issues_within (enrollInFreePlan_advances ..) rfl rfl) fun _ => Issues.pure _

end Subscriptions

section QuerySets

theorem getOrCreate_advances {R : Type} [Entity R Key] {table : Database → Table R} {row : R → Row}
    [IsTable table row] {find : Database → Option R} (hq : ∀ d r, find d = some r → r ∈ table d)
    {new : R} (hn : (row new).IsFresh S)
    (hi : f.inserts.contains (row new).table) (hu : ∀ r, f.updates.contains (row r).table) :
    (QuerySet.getOrCreate row find new).Issues (Advances S f) := by
  refine Issues.bind (selectForUpdate_issues hq hu) fun r => ?_
  cases r
  case some => exact Issues.pure _
  case none =>
    refine Issues.handle (Issues.atomic <| Issues.bind (create_issues hn hi) fun _ => Issues.pure _) fun e => ?_
    cases e
    case integrityError =>
      refine Issues.bind (selectForUpdate_issues hq hu) fun r => ?_
      cases r
      case none => exact Issues.raise _
      case some => exact Issues.pure _
    all_goals exact Issues.raise _

theorem updateOrCreate_advances {R : Type} [Entity R Key] (table : Database → Table R) (row : R → Row)
    [IsTable table row] {find : Database → Option R} {assign : R → R}
    (hq : ∀ d r, find d = some r → r ∈ table d) (hg : ∀ r, Entity.key (assign r) = Entity.key r)
    (hp : ∀ r, (row r).Precedes S (row <| assign r)) {new : R} (hn : (row new).IsFresh S)
    (hi : f.inserts.contains (row new).table) (hu : ∀ r, f.updates.contains (row r).table) :
    (QuerySet.updateOrCreate table row find new assign).Issues (Advances S f) := by
  refine Issues.atomic <| Issues.bind (getOrCreate_advances hq hn hi hu) fun x => ?_
  obtain ⟨r, created⟩ := x
  cases created
  case true   => exact Issues.pure _
  case false  =>
    exact Issues.bind (Issues.save hg fun r => advances_replace (hp r) (hu _)) fun _ => Issues.pure _

theorem seed_advances (ids : String → Uuid) (specs : List Plan) (created updated : Nat) :
    (SeedPlans.seed ids specs created updated).Issues (Advances S ⟨[.plans], [.plans]⟩) := by
  induction specs generalizing created updated
  case nil          => exact Issues.pure _
  case cons _ _ hi  =>
    refine Issues.bind ?_ fun x => ?_
    · refine updateOrCreate_advances Database.plans .plan ?_ ?_ ?_ trivial rfl fun _ => rfl
      · exact fun _ _ h => (SeedPlans.findPlan_mem h).left
      · exact fun _ => rfl
      · exact fun _ => ⟨rfl, le_rfl, .inl rfl⟩
    obtain ⟨_, wasCreated⟩ := x
    cases wasCreated
    case true   => exact hi ..
    case false  => exact hi ..

theorem rollupUsers_advances (date : Day) (ids : Uuid → Uuid) (rows : List (Uuid × DayFigures)) (count : Nat) :
    (rollupUsers date ids rows count).Issues (Advances S ⟨[.dailyUsage], [.dailyUsage]⟩) := by
  induction rows generalizing count
  case nil          => exact Issues.pure _
  case cons r _ hi  =>
    refine Issues.bind ?_ fun _ => hi _
    rw [updateOrCreateUsage_eq]
    refine Issues.bind ?_ fun _ => Issues.pure _
    refine updateOrCreate_advances Database.dailyUsage .dailyUsage ?_ ?_ ?_ trivial rfl fun _ => rfl
    · exact fun _ _ h => (findUsage_mem h).left
    · exact fun _ => rfl
    · exact fun _ => ⟨rfl, le_rfl, .inl rfl⟩

end QuerySets

section ApiKeys

theorem revokeKey_advances (key : APIKey) (revokedAt : Instant) :
    (key.revoke revokedAt).Issues (Advances S ⟨[], [.apiKeys]⟩) :=
  Issues.save (fun _ => rfl) fun _ => advances_replace ⟨rfl, Bool.toNat_le _, .inl rfl⟩ rfl

theorem createApiKey_advances (user : Uuid) (name : String) (i : Issuing) :
    (createApiKey user name i).Issues (Advances S ⟨[.apiKeys], []⟩) := by
  refine Issues.atomic <| Issues.bind (Issues.select _) fun sub => Issues.bind (Issues.select _) fun current => ?_
  split
  case isTrue   => exact Issues.raise _
  case isFalse  => exact Issues.bind (create_issues ⟨rfl, rfl⟩ rfl) fun _ => Issues.pure _

theorem revokeApiKey_advances (user keyId : Uuid) (revokedAt : Instant) :
    (revokeApiKey user keyId revokedAt).Issues (Advances S ⟨[], [.apiKeys]⟩) := by
  refine Issues.bind (Issues.select _) fun key => ?_
  cases key
  case none     => exact Issues.raise _
  case some key =>
    dsimp only
    split
    case isTrue   => exact Issues.raise _
    case isFalse  => exact Issues.bind (revokeKey_advances ..) fun _ => Issues.pure _

theorem rotateApiKey_advances (user keyId : Uuid) (revokedAt : Instant) (i : Issuing) :
    (rotateApiKey user keyId revokedAt i).Issues (Advances S ⟨[.apiKeys], [.apiKeys]⟩) := by
  refine Issues.atomic <| Issues.bind ?_ fun old => ?_
  · exact selectForUpdate_issues (fun _ _ h => (findKey_eq_some h).left) fun _ => rfl
  cases old
  case none     => exact Issues.raise _
  case some old =>
    dsimp only
    split
    case isTrue   => exact Issues.raise _
    case isFalse  =>
      exact Issues.bind (issues_within (revokeKey_advances ..) rfl rfl) fun _ =>
        issues_within (createApiKey_advances ..) rfl rfl

theorem authenticate_advances (request : HttpRequest) (now : Instant) :
    (APIKeyAuthentication.authenticate request now).Issues (Advances S ⟨[], [.apiKeys]⟩) := by
  refine Issues.bind (Issues.ofExcept _) fun plaintext => ?_
  cases plaintext
  case none           => exact Issues.pure _
  case some plaintext =>
    dsimp only
    split
    case isTrue   => exact Issues.pure _
    case isFalse  =>
      refine Issues.bind (Issues.select _) fun cs => Issues.bind ?_ fun _ => Issues.pure _
      induction cs
      case nil          => exact Issues.raise _
      case cons c cs hi =>
        unfold APIKeyAuthentication.compareCandidates
        split
        case isFalse  => exact hi
        case isTrue   =>
          split
          case isTrue   => exact Issues.raise _
          case isFalse  =>
            refine Issues.bind (Issues.handle ?_ fun _ => Issues.pure _) fun _ => Issues.pure _
            exact Issues.update (fun _ => rfl) fun _ => advances_replace ⟨rfl, le_rfl, .inl rfl⟩ rfl

end ApiKeys

section Users

theorem saveUser_advances (hf : f.updates.contains .users) (id : Uuid) {g : User → User}
    (hg : ∀ u : User, u.id = id → (Row.user u).Precedes S (.user <| g u)) (hi : ∀ u, (g u).id = u.id) :
    (save Database.users .user (.user id) g).Issues (Advances S f) := by
  refine Issues.stmt (honest_assign fun u => congrArg Key.user (hi u)) fun d w hw => ?_
  have ⟨u, _, hk, hw⟩ := assign_eq_some.mp <| Option.mem_toList.mp hw
  exact hw ▸ advances_replace (hg u <| Key.user.inj hk) hf

theorem createUser_advances (p : Platform) {password : String} {e : Enrollment} (hp : S e.id password)
    (email firstName lastName : String) :
    (createUser p email password firstName lastName .customer e).Issues
      (Advances S ⟨[.users, .subscriptions, .usageQuotas], []⟩) := by
  refine Issues.atomic <| Issues.bind (Issues.select _) fun found => ?_
  cases found
  case some => exact Issues.raise _
  case none =>
    refine Issues.bind ?_ fun _ =>
      Issues.bind (issues_within (enrollInFreePlan_advances ..) rfl rfl) fun _ => Issues.pure _
    unfold UserManager.createUser
    split
    case isTrue   => exact Issues.raise _
    case isFalse  => exact Issues.bind (create_issues ⟨rfl, rfl, rfl, hp⟩ rfl) fun _ => Issues.pure _

theorem updateProfile_advances (user : User) (firstName lastName : Option String) :
    (updateProfile user firstName lastName).Issues (Advances S ⟨[], [.users]⟩) :=
  Issues.bind (saveUser_advances rfl _ (fun _ _ => ⟨rfl, le_rfl, .inl rfl⟩) fun _ => rfl) fun _ => Issues.pure _

theorem changePassword_advances {user : User} {currentPassword newPassword : String}
    (hp : user.password = ⟨currentPassword⟩ → S user.id newPassword) :
    (changePassword user currentPassword newPassword).Issues (Advances S ⟨[], [.users]⟩) := by
  unfold changePassword
  split
  case isTrue     => exact Issues.raise _
  case isFalse hn =>
    refine saveUser_advances rfl _ (fun u hu => ⟨rfl, le_rfl, .inr ?_⟩) fun _ => rfl
    exact show S u.id newPassword from hu ▸ hp (not_not.mp hn)

end Users

section Authentication

theorem delay_advances (m : Message) : m.delay.Issues (Advances S f) :=
  Issues.select _

theorem issueVerificationToken_advances (user : Uuid) (i : TokenIssue) :
    (issueVerificationToken user i).Issues (Advances S ⟨[.verificationTokens], []⟩) := by
  refine Issues.bind ?_ fun _ => Issues.bind (delay_advances _) fun _ => Issues.pure _
  exact Issues.bind (Issues.ofExcept _) fun _ => Issues.bind (create_issues rfl rfl) fun _ => Issues.pure _

theorem registerUser_advances (p : Platform) {password : String} {e : Enrollment} (hp : S e.id password)
    (email firstName lastName : String) (i : TokenIssue) :
    (registerUser p email password firstName lastName e i).Issues
      (Advances S ⟨[.users, .subscriptions, .usageQuotas, .verificationTokens], []⟩) :=
  Issues.atomic <| Issues.bind (issues_within (createUser_advances p hp ..) rfl rfl) fun _ =>
    Issues.bind (issues_within (issueVerificationToken_advances ..) rfl rfl) fun _ => Issues.pure _

theorem verifyEmail_advances (token : String) (now usedAt : Instant) :
    (verifyEmail token now usedAt).Issues (Advances S ⟨[], [.verificationTokens, .users]⟩) := by
  refine Issues.bind (Issues.select _) fun found => ?_
  cases found
  case none       => exact Issues.raise _
  case some found =>
    obtain ⟨t, u⟩ := found
    dsimp only
    split
    case isTrue   => exact Issues.raise _
    case isFalse  =>
      refine Issues.bind (Issues.atomic <| Issues.bind ?_ fun _ => ?_) fun _ => Issues.pure _
      · exact Issues.save (fun _ => rfl) fun _ => advances_replace ⟨rfl, Bool.toNat_le _, .inl rfl⟩ rfl
      · split
        case isTrue   => exact saveUser_advances rfl _ (fun _ _ => ⟨rfl, Bool.toNat_le _, .inl rfl⟩) fun _ => rfl
        case isFalse  => exact Issues.pure _

theorem resendVerification_advances (p : Platform) (email : String) (i : TokenIssue) :
    (resendVerification p email i).Issues (Advances S ⟨[.verificationTokens], []⟩) := by
  refine Issues.bind (Issues.select _) fun found => ?_
  cases found
  case none   => exact Issues.pure _
  case some u =>
    dsimp only
    split
    case isTrue   => exact Issues.pure _
    case isFalse  => exact Issues.bind (issueVerificationToken_advances ..) fun _ => Issues.pure _

theorem requestPasswordReset_advances (p : Platform) (email : String) (i : TokenIssue) :
    (requestPasswordReset p email i).Issues (Advances S ⟨[.resetTokens], []⟩) := by
  refine Issues.bind (Issues.select _) fun found => ?_
  cases found
  case none   => exact Issues.pure _
  case some u =>
    dsimp only
    split
    case isTrue   => exact Issues.pure _
    case isFalse  =>
      exact Issues.bind (Issues.ofExcept _) fun _ => Issues.bind (create_issues rfl rfl) fun _ => delay_advances _

-- The rows that are written differ from each other, as they are rows of one table.
theorem honest_useOtherTokens (t : PasswordResetToken) (user : Uuid) (usedAt : Instant) :
    Honest (useOtherTokens t user usedAt) := by
  intro d _
  let f : Row → Row
    | .resetToken r => .resetToken { r with usedAt := some usedAt }
    | r             => r
  let rs := d.resetTokens.rows.filter fun r => r.userId = user ∧ r.usedAt = none ∧ r.id ≠ t.id
  have hv : Valid d ((rs.map Row.resetToken).map fun r => (⟨some r, f r⟩ : Write)) := by
    refine Valid.map (fun r => by cases r <;> rfl) (fun r => by cases r <;> exact List.Subset.refl _) ?_ ?_
    · exact List.pairwise_map.mpr <| d.resetTokens.distinct.filter _
    · intro r hr
      obtain ⟨r', hm, rfl⟩ := List.mem_map.mp hr
      exact Database.resetToken_mem_rows.mpr <| List.mem_of_mem_filter hm
  rwa [List.map_map] at hv

theorem confirmPasswordReset_advances (token : String) {newPassword : String}
    (hp : ∀ user, S user newPassword) (now usedAt : Instant) :
    (confirmPasswordReset token newPassword now usedAt).Issues (Advances S ⟨[], [.users, .resetTokens]⟩) := by
  refine Issues.atomic <| Issues.bind (Issues.select _) fun found => ?_
  cases found
  case none       => exact Issues.raise _
  case some found =>
    obtain ⟨t, u⟩ := found
    dsimp only
    split
    case isTrue   => exact Issues.raise _
    case isFalse  =>
      refine Issues.bind (saveUser_advances rfl _ (fun _ _ => ⟨rfl, le_rfl, .inr <| hp _⟩) fun _ => rfl) fun _ =>
        Issues.bind ?_ fun _ => Issues.bind ?_ fun _ => Issues.pure _
      · exact Issues.save (fun _ => rfl) fun _ => advances_replace ⟨rfl, Bool.toNat_le _, .inl rfl⟩ rfl
      · refine Issues.execute (honest_useOtherTokens t u.id usedAt) fun d w hw => ?_
        obtain ⟨r, _, rfl⟩ := List.mem_map.mp hw
        exact advances_replace ⟨rfl, Bool.toNat_le _, .inl rfl⟩ rfl

section Tokens

theorem existing_advances (exists_ : Database → Bool) {r : Row} (h : r.IsFresh S)
    (hf : f.inserts.contains r.table) :
    (getOrCreate exists_ r).Issues (Advances S f) := by
  refine Issues.bind (Issues.select _) fun found => ?_
  split
  case isTrue   => exact Issues.pure _
  case isFalse  =>
    refine Issues.handle (Issues.atomic <| create_issues h hf) fun e => ?_
    cases e
    case integrityError =>
      refine Issues.bind (Issues.select _) fun found => ?_
      split
      case isTrue   => exact Issues.pure _
      case isFalse  => exact Issues.raise _
    all_goals exact Issues.raise _

theorem verify_advances (presented : Presented) (now : Instant) :
    (RefreshToken.verify presented now).Issues (Advances S f) := by
  cases presented
  case none   => exact Issues.raise _
  case some t =>
    unfold RefreshToken.verify
    dsimp only
    split
    case isTrue   => exact Issues.raise _
    case isFalse  =>
      refine Issues.bind (Issues.select _) fun blacklisted => ?_
      split
      case isTrue   => exact Issues.raise _
      case isFalse  => exact Issues.pure _

theorem blacklist_advances (t : RefreshToken) :
    t.blacklist.Issues (Advances S ⟨[.outstandingTokens, .blacklistedTokens], []⟩) :=
  Issues.bind (existing_advances _ trivial rfl) fun _ => existing_advances _ trivial rfl

theorem refresh_advances (presented : Presented) (jti : String) (now : Instant) (days : Nat) :
    (RefreshView.post presented jti now days).Issues
      (Advances S ⟨[.outstandingTokens, .blacklistedTokens], []⟩) := by
  refine Issues.handle ?_ fun e => ?_
  · refine Issues.bind (verify_advances ..) fun _ => Issues.bind (blacklist_advances _) fun _ => ?_
    exact Issues.bind (Issues.ofExcept _) fun _ => Issues.pure _
  · cases e <;> exact Issues.raise _

end Tokens

theorem login_advances (request : HttpRequest) (email password : String) (e : LoginEnv) :
    (LoginView.post request email password e).Issues (Advances S ⟨[.outstandingTokens, .sessions], [.users]⟩) := by
  have hv :
    (CustomTokenObtainPairSerializer.validate email password e).Issues
      (Advances S ⟨[.outstandingTokens, .sessions], [.users]⟩) := by
    unfold CustomTokenObtainPairSerializer.validate
    dsimp only
    split
    case isTrue   => exact Issues.raise _
    case isFalse  =>
      refine Issues.bind (Issues.select _) fun user => ?_
      cases user
      case none => exact Issues.raise _
      case some user =>
        refine Issues.bind (Issues.select _) fun claims => Issues.bind ?_ fun refresh =>
          Issues.bind (saveUser_advances rfl _ (fun _ _ => ⟨rfl, le_rfl, .inl rfl⟩) fun _ => rfl) fun _ => ?_
        · exact Issues.bind (Issues.ofExcept _) fun _ => Issues.bind (create_issues trivial rfl) fun _ => Issues.pure _
        · split
          case isTrue   => exact Issues.raise _
          case isFalse  =>
            split
            case isTrue   => exact Issues.raise _
            case isFalse  => exact Issues.pure _
  refine Issues.bind hv fun x => ?_
  obtain ⟨user, data⟩ := x
  refine Issues.bind (verify_advances ..) fun _ => Issues.bind ?_ fun _ => ?_
  · exact Issues.bind (create_issues rfl rfl) fun _ => Issues.pure _
  · refine Issues.bind (saveUser_advances rfl _ ?_ fun _ => rfl) fun _ => Issues.pure _
    exact fun _ _ => ⟨rfl, le_rfl, .inl rfl⟩

theorem revoke_advances (session : UserSession) (revokedAt : Instant) :
    (revoke session revokedAt).Issues (Advances S ⟨[], [.sessions]⟩) :=
  Issues.save (fun _ => rfl) fun _ => advances_replace ⟨rfl, Bool.toNat_le _, .inl rfl⟩ rfl

theorem logout_advances (presented : Presented) (now revokedAt : Instant) :
    (logout presented now revokedAt).Issues
      (Advances S ⟨[.outstandingTokens, .blacklistedTokens], [.sessions]⟩) := by
  refine Issues.bind (Issues.handle (verify_advances ..) fun e => ?_) fun token =>
    Issues.bind (issues_within (blacklist_advances _) rfl rfl) fun _ => Issues.bind (Issues.select _) fun session => ?_
  · cases e <;> exact Issues.raise _
  · cases session
    case none => exact Issues.pure _
    case some => exact issues_within (revoke_advances ..) rfl rfl

theorem revokeSession_advances (user sessionId : Uuid) (revokedAt : Instant) :
    (revokeSession user sessionId revokedAt).Issues (Advances S ⟨[], [.sessions]⟩) := by
  refine Issues.bind (Issues.select _) fun session => ?_
  cases session
  case none => exact Issues.raise _
  case some =>
    dsimp only
    split
    case isTrue   => exact Issues.raise _
    case isFalse  => exact revoke_advances ..

end Authentication
end Issues
-- A call of a service that writes, along with what it takes from its environment.
inductive Operation
  | register (data : RegistrationData) (e : Enrollment) (i : TokenIssue)
  | verifyEmail (token : String) (now usedAt : Instant)
  | resendVerification (email : String) (i : TokenIssue)
  | login (request : HttpRequest) (email password : String) (e : LoginEnv)
  | refresh (presented : Presented) (jti : String) (now : Instant) (days : Nat)
  | logout (presented : Presented) (now revokedAt : Instant)
  | requestPasswordReset (email : String) (i : TokenIssue)
  | confirmPasswordReset (data : PasswordResetData) (now usedAt : Instant)
  | changePassword (user : User) (data : ChangePasswordData)
  | updateProfile (user : User) (firstName lastName : Option String)
  | revokeSession (user sessionId : Uuid) (revokedAt : Instant)
  | authenticate (request : HttpRequest) (now : Instant)
  | createApiKey (user : Uuid) (name : String) (i : Issuing)
  | revokeApiKey (user keyId : Uuid) (revokedAt : Instant)
  | rotateApiKey (user keyId : Uuid) (revokedAt : Instant) (i : Issuing)
  | subscribe (user : Uuid) (planSlug : String) (canceledAt : Instant) (o : Opening)
  | cancel (user : Uuid) (canceledAt : Instant) (o : Opening)
  | recordRequest (user : Uuid) (r : Recording)
  | logRequest (l : RequestLog)
  | expireDueSubscriptions (now : Instant) (openings : Uuid → Opening)
  | rollupDailyUsage (now : Instant) (targetDate : Option Day) (ids : Uuid → Uuid)
  | seedPlans (ids : String → Uuid)

def Operation.service (p : Platform) : Operation → Service Unit
  | register data e i                             => discard <| RegisterView.post p data e i
  | verifyEmail token now usedAt                  => discard <| SaasBackend.verifyEmail token now usedAt
  | resendVerification email i                    => SaasBackend.resendVerification p email i
  | login request email password e                => discard <| LoginView.post request email password e
  | refresh presented jti now days                => discard <| RefreshView.post presented jti now days
  | logout presented now revokedAt                => SaasBackend.logout presented now revokedAt
  | requestPasswordReset email i                  => SaasBackend.requestPasswordReset p email i
  | confirmPasswordReset data now usedAt          => discard <| PasswordResetConfirmView.post p data now usedAt
  | changePassword user data                      => discard <| ChangePasswordView.post p user data
  | updateProfile user firstName lastName         => discard <| SaasBackend.updateProfile user firstName lastName
  | revokeSession user sessionId revokedAt        => SaasBackend.revokeSession user sessionId revokedAt
  | authenticate request now                      => discard <| APIKeyAuthentication.authenticate request now
  | createApiKey user name i                      => discard <| SaasBackend.createApiKey user name i
  | revokeApiKey user keyId revokedAt             => discard <| SaasBackend.revokeApiKey user keyId revokedAt
  | rotateApiKey user keyId revokedAt i           => discard <| SaasBackend.rotateApiKey user keyId revokedAt i
  | subscribe user planSlug canceledAt o          => discard <| SaasBackend.subscribe user planSlug canceledAt o
  | cancel user canceledAt o                      => discard <| SaasBackend.cancel user canceledAt o
  | recordRequest user r                          => SaasBackend.recordRequest user r
  | logRequest l                                  => create <| .requestLog l
  | expireDueSubscriptions now openings           => discard <| SaasBackend.expireDueSubscriptions now openings
  | rollupDailyUsage now targetDate ids           => discard <| SaasBackend.rollupDailyUsage now targetDate ids
  | seedPlans ids                                 => discard <| SeedPlans.handle ids

-- The tables which an operation inserts rows into, and those whose rows it updates.
def Operation.footprint : Operation → Footprint
  | register ..                   => ⟨[.users, .subscriptions, .usageQuotas, .verificationTokens], []⟩
  | verifyEmail ..                => ⟨[], [.verificationTokens, .users]⟩
  | resendVerification ..         => ⟨[.verificationTokens], []⟩
  | login ..                      => ⟨[.outstandingTokens, .sessions], [.users]⟩
  | refresh ..                    => ⟨[.outstandingTokens, .blacklistedTokens], []⟩
  | logout ..                     => ⟨[.outstandingTokens, .blacklistedTokens], [.sessions]⟩
  | requestPasswordReset ..       => ⟨[.resetTokens], []⟩
  | confirmPasswordReset ..       => ⟨[], [.users, .resetTokens]⟩
  | changePassword ..             => ⟨[], [.users]⟩
  | updateProfile ..              => ⟨[], [.users]⟩
  | revokeSession ..              => ⟨[], [.sessions]⟩
  | authenticate ..               => ⟨[], [.apiKeys]⟩
  | createApiKey ..               => ⟨[.apiKeys], []⟩
  | revokeApiKey ..               => ⟨[], [.apiKeys]⟩
  | rotateApiKey ..               => ⟨[.apiKeys], [.apiKeys]⟩
  | subscribe ..                  => ⟨[.subscriptions, .usageQuotas], [.subscriptions]⟩
  | cancel ..                     => ⟨[.subscriptions, .usageQuotas], [.subscriptions]⟩
  | recordRequest ..              => ⟨[.subscriptions, .usageQuotas], [.usageQuotas]⟩
  | logRequest ..                 => ⟨[.requestLogs], []⟩
  | expireDueSubscriptions ..     => ⟨[.subscriptions, .usageQuotas], [.subscriptions]⟩
  | rollupDailyUsage ..           => ⟨[.dailyUsage], [.dailyUsage]⟩
  | seedPlans ..                  => ⟨[.plans], [.plans]⟩

-- The passwords which an operation may set for a user.
def Operation.Sets (p : Platform) : Operation → Uuid → String → Prop
  | register data e _,             user, password => e.id = user ∧
      ∃ valid, RegistrationSerializer.validate p data = .ok valid ∧ valid.password = password
  | changePassword u data,         user, password => u.id = user ∧
      ∃ valid, ChangePasswordSerializer.validate p data = .ok valid ∧
        u.password = ⟨valid.currentPassword⟩ ∧ valid.newPassword = password
  | confirmPasswordReset data _ _, _,    password =>
      ∃ valid, PasswordResetConfirmSerializer.validate p data = .ok valid ∧ valid.newPassword = password
  | _,                             _,    _        => False

theorem Operation.isStrong_of_sets {p : Platform} {user : Uuid} {password : String} {o : Operation}
    (h : o.Sets p user password) : IsStrong p password := by
  cases o
  case register =>
    obtain ⟨_, _, hv, rfl⟩ := h
    exact RegistrationSerializer.isStrong_of_validate hv
  case changePassword =>
    obtain ⟨_, _, hv, _, rfl⟩ := h
    exact ChangePasswordSerializer.isStrong_of_validate hv
  case confirmPasswordReset =>
    obtain ⟨_, hv, rfl⟩ := h
    exact PasswordResetConfirmSerializer.isStrong_of_validate hv
  all_goals exact h.elim

variable {S : Uuid → String → Prop} {f : Footprint}

theorem discard_advances {α : Type} {s : Service α} (h : s.Issues (Advances S f)) :
    (discard s : Service Unit).Issues (Advances S f) :=
  Issues.bind h fun _ => Issues.pure _

theorem ofExcept_bind_advances {α β : Type} {x : Except Exn α} {s : α → Service β}
    (h : ∀ a, x = .ok a → (s a).Issues (Advances S f)) : (ofExcept x >>= s).Issues (Advances S f) := by
  cases x
  case error  => exact Issues.raise _
  case ok a   => exact h a rfl

theorem Operation.advances (p : Platform) (o : Operation) : (o.service p).Issues (Advances (o.Sets p) o.footprint) := by
  cases o
  case register               =>
    refine discard_advances <| ofExcept_bind_advances fun _ h => ?_
    exact registerUser_advances p ⟨rfl, _, h, rfl⟩ ..
  case verifyEmail            => exact discard_advances <| verifyEmail_advances ..
  case resendVerification     => exact resendVerification_advances ..
  case login                  => exact discard_advances <| login_advances ..
  case refresh                => exact discard_advances <| refresh_advances ..
  case logout                 => exact logout_advances ..
  case requestPasswordReset   => exact requestPasswordReset_advances ..
  case confirmPasswordReset   =>
    refine discard_advances <| ofExcept_bind_advances fun _ h => Issues.bind ?_ fun _ => Issues.pure _
    exact confirmPasswordReset_advances _ (fun _ => ⟨_, h, rfl⟩) ..
  case changePassword         =>
    refine discard_advances <| ofExcept_bind_advances fun _ h => Issues.bind ?_ fun _ => Issues.pure _
    exact changePassword_advances fun hc => ⟨rfl, _, h, hc, rfl⟩
  case updateProfile          => exact discard_advances <| updateProfile_advances ..
  case revokeSession          => exact revokeSession_advances ..
  case authenticate           => exact discard_advances <| authenticate_advances ..
  case createApiKey           => exact discard_advances <| createApiKey_advances ..
  case revokeApiKey           => exact discard_advances <| revokeApiKey_advances ..
  case rotateApiKey           => exact discard_advances <| rotateApiKey_advances ..
  case subscribe              => exact discard_advances <| subscribe_advances ..
  case cancel                 => exact discard_advances <| cancel_advances ..
  case recordRequest          => exact recordRequest_advances ..
  case logRequest             => exact create_issues trivial rfl
  case expireDueSubscriptions =>
    exact discard_advances <| Issues.bind (Issues.select _) fun _ => expireSubscriptions_advances ..
  case rollupDailyUsage       =>
    exact discard_advances <| Issues.bind (Issues.ofExcept _) fun _ =>
      Issues.bind (Issues.select _) fun _ => rollupUsers_advances ..
  case seedPlans              => exact discard_advances <| seed_advances ..

theorem Operation.advances_strongly (p : Platform) (o : Operation) :
    (o.service p).Issues (Advances (fun _ => IsStrong p) o.footprint) :=
  (o.advances p).mono fun _ hw => hw.mono fun _ _ => Operation.isStrong_of_sets

theorem Operation.evolves (p : Platform) (o : Operation) :
    (o.service p).Issues fun w => w.Evolves (Row.IsFresh fun _ => IsStrong p) (Row.Precedes fun _ => IsStrong p) :=
  (o.advances_strongly p).mono fun _ hw => hw.evolves

end SaasBackend
