import SaasBackend.Analytics.Selectors
import SaasBackend.Subscriptions.Opening
import SaasBackend.Subscriptions.Seed
import SaasBackend.ApiKeys.Replacement
import SaasBackend.Users.Services
import SaasBackend.Authentication.Serial
import SaasBackend.Tenants.View

open Calendar Grouping ReadCommitted ReadCommitted.Service

namespace SaasBackend

open Service

section Queries

variable {d : Database} {user id : Uuid}

theorem findSome?_filter {α β : Type} {p : α → Bool} {f : α → Option β} (h : ∀ a, ¬p a → f a = none)
    (as : List α) : (as.filter p).findSome? f = as.findSome? f := by
  induction as
  case nil          => rfl
  case cons a as hi =>
    by_cases hp : p a
    case pos => rw [List.filter_cons_of_pos hp, List.findSome?_cons, List.findSome?_cons, hi]
    case neg => rw [List.filter_cons_of_neg hp, List.findSome?_cons, h a hp, hi]

theorem find?_filter {α : Type} {p q : α → Bool} (h : ∀ a, q a → p a) (as : List α) :
    (as.filter p).find? q = as.find? q := by
  rw [List.find?_filter]
  congr 1
  funext a
  by_cases hq : q a
  case pos => simp [hq, h a hq]
  case neg => simp [hq]

theorem getActiveSubscription_tenant (d : Database) (user : Uuid) :
    getActiveSubscription (d.tenant user) user = getActiveSubscription d user := by
  refine findSome?_filter (fun s hs => if_neg fun h => hs ?_) _
  simpa [Row.isOf] using h.left

theorem subscribes_of_active {s : LoadedSubscription} (h : getActiveSubscription d user = some s) :
    d.subscribes user s.id := by
  obtain ⟨hm, hu, _⟩ := getActiveSubscription_eq_some h
  exact List.any_eq_true.mpr ⟨_, hm, by simp [hu]⟩

theorem getCurrentQuota_tenant (h : d.subscribes user id) (now : Instant) :
    getCurrentQuota (d.tenant user) id now = getCurrentQuota d id now := by
  refine congrArg (List.argmax _) ?_
  rw [Database.tenant, Table.rows_filter, List.filter_filter]
  refine List.filter_congr fun q _ => ?_
  by_cases hq : q.subscriptionId = id
  case pos => simp [hq, Row.isOf, h]
  case neg => simp [hq]

theorem findKey_tenant (d : Database) (id user : Uuid) : findKey (d.tenant user) id user = findKey d id user := by
  refine find?_filter (fun k hk => ?_) _
  simpa [Row.isOf] using (of_decide_eq_true hk).right

theorem findSession_tenant (d : Database) (id user : Uuid) :
    findSession (d.tenant user) id user = findSession d id user := by
  refine find?_filter (fun s hs => ?_) _
  simpa [Row.isOf] using (of_decide_eq_true hs).right

theorem currentActive_tenant (d : Database) (user : Uuid) :
    currentActive (d.tenant user) user = currentActive d user := by
  rw [currentActive, Database.tenant, Table.rows_filter, List.countP_filter, currentActive]
  refine List.countP_congr fun k _ => ?_
  simp +contextual [isActiveKeyOf, Row.isOf]

theorem filter_again {R : Type} (p q : R → Bool) (rows : List R) :
    ((rows.filter q).filter p).filter q = (rows.filter p).filter q := by
  simp only [List.filter_filter]
  refine List.filter_congr fun r _ => ?_
  cases q r <;> simp

theorem scope_logs (d : Database) (user : Uuid) (p : RequestLog → Bool) :
    scope (·.userId) (some user) ((d.tenant user).requestLogs.rows.filter p) =
      scope (·.userId) (some user) (d.requestLogs.rows.filter p) :=
  filter_again p (·.userId = some user) d.requestLogs.rows

theorem scope_usage (d : Database) (user : Uuid) (p : DailyUsage → Bool) :
    scope (some ·.userId) (some user) ((d.tenant user).dailyUsage.rows.filter p) =
      scope (some ·.userId) (some user) (d.dailyUsage.rows.filter p) := by
  have hf : (d.tenant user).dailyUsage.rows = d.dailyUsage.rows.filter fun u => some u.userId = some user := by
    refine List.filter_congr fun u _ => ?_
    simp [Row.isOf]
  rw [hf]
  exact filter_again p (some ·.userId = some user) d.dailyUsage.rows

end Queries

section Operations

variable {d : Database} {user keyId : Uuid} {s : LoadedSubscription} {o : Opening} {r : Recording} {i : Issuing}

theorem createSubscription_confined (plan : Plan) (expires : Bool) (h : o.IsFresh <| d.others user) :
    Confined user (createSubscription user plan expires o) d := by
  refine .bind (.ofExcept _ d) fun w d₁ h₁ ho₁ => ?_
  obtain ⟨start, finish⟩ := w
  obtain ⟨_, rfl⟩ := run_ofExcept_eq_ok.mp h₁
  refine .bind ?_ fun _ d₂ h₂ ho₂ => .bind (.ofExcept _ d₂) fun _ d₃ h₃ _ => ?_
  case refine_1 =>
    refine Confined.create_row (decide_eq_true rfl) (fun s hs hk => h.subscription s hs <| Key.subscription.inj hk) ?_ ?_
    · intro s hs k hk hk'
      have hu : ¬(Row.subscription s).isOf d user := by simpa using (Table.mem_filter.mp hs).right
      have hk : k = .activeSubscription user := List.mem_singleton.mp hk
      simp only [Entity.entries] at hk'
      split at hk'
      case isTrue   =>
        exact hu <| decide_eq_true <| (Key.activeSubscription.inj <| hk.symm.trans <| List.mem_singleton.mp hk').symm
      case isFalse  => cases hk'
    · rintro s ⟨⟩ q hq
      exact h.unused q hq
  case refine_2 =>
    obtain ⟨_, rfl⟩ := run_ofExcept_eq_ok.mp h₃
    obtain ⟨_, hd⟩ := run_create_eq_ok h₂
    refine .bind ?_ fun _ d₄ _ _ => .pure _ d₄
    have hs : d₂.subscribes user o.subscriptionId := by
      rw [hd]
      exact List.any_eq_true.mpr ⟨_, Table.mem_put_self .., by simp⟩
    rw [←ho₂] at h
    refine Confined.create_row hs (fun q hq hk => h.quota q hq <| Key.usageQuota.inj hk) ?_ (fun _ hn => by cases hn)
    intro q hq k hk hk'
    have hk := (List.mem_singleton.mp hk').symm.trans <| List.mem_singleton.mp hk
    exact h.unused q hq (Key.quotaPeriod.inj hk).left

theorem enrollInFreePlan_confined (h : o.IsFresh <| d.others user) : Confined user (enrollInFreePlan user o) d := by
  refine .atomic <| .bind (.select rfl) fun plan d₁ h₁ _ => ?_
  obtain ⟨hp, rfl⟩ := run_select_eq_ok.mp h₁
  cases plan
  case none      => exact .raise _ d
  case some plan => exact createSubscription_confined plan false h

-- A subscription of the user is assigned another status.
theorem endSubscription_confined (hs : getActiveSubscription d user = some s) {g : Subscription → Subscription}
    (hg : ∀ r, (g r).id = r.id ∧ (g r).userId = r.userId) (he : ∀ r, (g r).status ≠ .active) :
    Confined user (save Database.subscriptions .subscription (.subscription s.id) g) d := by
  obtain ⟨hm, hu, _⟩ := getActiveSubscription_eq_some hs
  refine Confined.save (fun r hr hk => ?_) (fun r => congrArg Key.subscription (hg r).left) (fun r hr => ?_) fun r => ?_
  · rw [Table.eq_of_key hr hm hk]
    exact decide_eq_true hu
  · exact decide_eq_true <| (hg r).right.trans <| of_decide_eq_true hr
  · simp [Entity.entries, he r]

theorem subscribe_confined (planSlug : String) (canceledAt : Instant) (h : o.IsFresh <| d.others user) :
    Confined user (subscribe user planSlug canceledAt o) d := by
  refine .atomic <| .bind (.select rfl) fun plan d₁ h₁ _ => ?_
  obtain ⟨hp, rfl⟩ := run_select_eq_ok.mp h₁
  cases plan
  case none      => exact .raise _ d
  case some plan =>
    refine .bind (.select <| getActiveSubscription_tenant d user) fun current d₂ h₂ _ => ?_
    obtain ⟨hs, rfl⟩ := run_select_eq_ok.mp h₂
    cases current
    case none         => exact createSubscription_confined plan _ h
    case some current =>
      dsimp only
      split
      case isTrue   => exact .raise _ d
      case isFalse  =>
        refine .bind (endSubscription_confined hs (fun _ => ⟨rfl, rfl⟩) (by simp)) fun _ d₃ _ ho => ?_
        exact createSubscription_confined plan _ <| ho ▸ h

theorem cancel_confined (canceledAt : Instant) (h : o.IsFresh <| d.others user) :
    Confined user (cancel user canceledAt o) d := by
  refine .atomic <| .bind (.select <| getActiveSubscription_tenant d user) fun current d₁ h₁ _ => ?_
  obtain ⟨hs, rfl⟩ := run_select_eq_ok.mp h₁
  cases current
  case none         => exact .raise _ d
  case some current =>
    refine .bind (endSubscription_confined hs (fun _ => ⟨rfl, rfl⟩) (by simp)) fun _ d₂ _ ho => ?_
    exact enrollInFreePlan_confined <| ho ▸ h

theorem currentOrRotateQuota_confined (hs : d.subscribes user s.id)
    (h : ∀ q ∈ (d.others user).quotas, q.id ≠ r.quotaId) : Confined user (currentOrRotateQuota s r) d := by
  refine .bind (.select <| getCurrentQuota_tenant hs r.now) fun quota d₁ h₁ _ => ?_
  obtain ⟨_, rfl⟩ := run_select_eq_ok.mp h₁
  cases quota
  case some quota => exact .pure _ d
  case none       =>
    refine .bind (.ofExcept _ d) fun w d₂ h₂ _ => ?_
    obtain ⟨start, finish⟩ := w
    obtain ⟨_, rfl⟩ := run_ofExcept_eq_ok.mp h₂
    refine .bind ?_ fun _ d₃ _ _ => .pure _ d₃
    refine Confined.create_row hs (fun q hq hk => h q hq <| Key.usageQuota.inj hk) ?_ (fun _ hn => by cases hn)
    intro q hq k hk hk'
    have hu : ¬(Row.usageQuota q).isOf d user := by simpa using (Table.mem_filter.mp hq).right
    have hk := (List.mem_singleton.mp hk').symm.trans <| List.mem_singleton.mp hk
    have hi : q.subscriptionId = s.id := (Key.quotaPeriod.inj hk).left
    exact hu <| (congrArg (d.subscribes user) hi).trans hs

theorem charge_confined (hs : d.subscribes user s.id) (h : ∀ q ∈ (d.others user).quotas, q.id ≠ r.quotaId) :
    Confined user (charge s r) d := by
  refine .bind (currentOrRotateQuota_confined hs h) fun quota d₁ h₁ _ => ?_
  obtain ⟨hq, hi, hd, _⟩ := currentOrRotateQuota_run_eq_ok h₁
  have hs : d₁.subscribes user quota.subscriptionId := by
    rw [Database.subscribes, hd, hi]
    exact hs
  split
  case isTrue   => exact .raise _ d₁
  case isFalse  =>
    refine Confined.update (fun q hq' hk => ?_) (fun _ => rfl) (fun _ => id) fun _ => List.Subset.refl _
    rw [Table.eq_of_key hq' hq hk]
    exact hs

theorem recordRequest_confined (ho : r.opening.IsFresh <| d.others user)
    (h : ∀ q ∈ (d.others user).quotas, q.id ≠ r.quotaId) : Confined user (recordRequest user r) d := by
  refine .bind (.select <| getActiveSubscription_tenant d user) fun current d₁ h₁ _ => ?_
  obtain ⟨hs, rfl⟩ := run_select_eq_ok.mp h₁
  cases current
  case some current => exact charge_confined (subscribes_of_active hs) h
  case none         =>
    refine .bind (enrollInFreePlan_confined ho) fun sub d₂ h₂ ho₂ => ?_
    exact charge_confined (subscribes_of_active <| enrollInFreePlan_run_eq_ok h₂) <| ho₂ ▸ h

theorem hasFeature_confined (featureKey : String) (d : Database) : Confined user (hasFeature user featureKey) d := by
  refine .select ?_
  rw [getActiveSubscription_tenant]

theorem createApiKey_confined (name : String) (h : i.IsFresh <| d.others user) :
    Confined user (createApiKey user name i) d := by
  refine .atomic <| .bind (.select <| getActiveSubscription_tenant d user) fun sub d₁ h₁ _ => ?_
  obtain ⟨_, rfl⟩ := run_select_eq_ok.mp h₁
  refine .bind (.select <| currentActive_tenant d user) fun current d₂ h₂ _ => ?_
  obtain ⟨_, rfl⟩ := run_select_eq_ok.mp h₂
  split
  case isTrue   => exact .raise _ d
  case isFalse  =>
    refine .bind ?_ fun _ d₃ _ _ => .pure _ d₃
    refine Confined.create_row (decide_eq_true rfl) (fun k hk he => h.id k hk <| Key.apiKey.inj he) ?_
      (fun _ hn => by cases hn)
    intro k hk e he he'
    have he := (List.mem_singleton.mp he').symm.trans <| List.mem_singleton.mp he
    exact h.hash k hk <| Key.keyHash.inj he

theorem revoke_confined {k : APIKey} (hk : findKey d keyId user = some k) (revokedAt : Instant) :
    Confined user (k.revoke revokedAt) d := by
  obtain ⟨hm, _, hu⟩ := findKey_eq_some hk
  refine Confined.save (fun r hr he => ?_) (fun _ => rfl) (fun _ => id) fun _ => List.Subset.refl _
  rw [Table.eq_of_key hr hm he]
  exact decide_eq_true hu

theorem revokeApiKey_confined (keyId : Uuid) (revokedAt : Instant) (d : Database) :
    Confined user (revokeApiKey user keyId revokedAt) d := by
  refine .bind (.select <| findKey_tenant d keyId user) fun key d₁ h₁ _ => ?_
  obtain ⟨hk, rfl⟩ := run_select_eq_ok.mp h₁
  cases key
  case none     => exact .raise _ d
  case some key =>
    dsimp only
    split
    case isTrue   => exact .raise _ d
    case isFalse  => exact .bind (revoke_confined hk revokedAt) fun _ d₂ _ _ => .pure _ d₂

theorem rotateApiKey_confined (keyId : Uuid) (revokedAt : Instant) (h : i.IsFresh <| d.others user) :
    Confined user (rotateApiKey user keyId revokedAt i) d := by
  have hs : Confined user (selectForUpdate .apiKey (findKey · keyId user)) d := by
    refine .selectForUpdate (findKey_tenant d keyId user) fun k hk => ?_
    obtain ⟨hm, _, hu⟩ := findKey_eq_some hk
    exact ⟨hm, decide_eq_true hu⟩
  have hp : ∀ k, findKey d keyId user = some k → d.put (.apiKey k) = d := fun k hk =>
    congrArg (fun t => { d with apiKeys := t }) <| Table.put_of_mem (findKey_eq_some hk).left
  refine .atomic <| .bind hs fun key d₁ h₁ _ => ?_
  obtain ⟨hk, rfl⟩ := run_selectForUpdate_eq_ok hp h₁
  cases key
  case none     => exact .raise _ d₁
  case some key =>
    dsimp only
    split
    case isTrue   => exact .raise _ d₁
    case isFalse  =>
      exact .bind (revoke_confined hk revokedAt) fun _ d₂ _ ho => createApiKey_confined _ <| ho ▸ h

theorem revokeSession_confined (sessionId : Uuid) (revokedAt : Instant) (d : Database) :
    Confined user (revokeSession user sessionId revokedAt) d := by
  refine .bind (.select <| findSession_tenant d sessionId user) fun session d₁ h₁ _ => ?_
  obtain ⟨hs, rfl⟩ := run_select_eq_ok.mp h₁
  cases session
  case none         => exact .raise _ d
  case some session =>
    obtain ⟨hm, _, hu⟩ := findSession_eq_some hs
    dsimp only
    split
    case isTrue   => exact .raise _ d
    case isFalse  =>
      refine Confined.save (fun r hr hk => ?_) (fun _ => rfl) (fun _ => id) fun _ => List.Subset.refl _
      rw [Table.eq_of_key hr hm hk]
      exact decide_eq_true hu

theorem saveUser_confined (u : User) {g : User → User} (hi : ∀ r, (g r).id = r.id) (he : ∀ r, (g r).email = r.email)
    (d : Database) : Confined u.id (save Database.users .user (.user u.id) g) d := by
  refine Confined.save (fun r _ hk => decide_eq_true <| Key.user.inj hk) (fun r => congrArg Key.user <| hi r)
    (fun r hr => decide_eq_true <| (hi r).trans <| of_decide_eq_true hr) fun r => ?_
  simp [Entity.entries, he r]

theorem updateProfile_confined (u : User) (firstName lastName : Option String) (d : Database) :
    Confined u.id (updateProfile u firstName lastName) d :=
  .bind (saveUser_confined u (by intro; rfl) (by intro; rfl) d) fun _ d₁ _ _ => .pure _ d₁

theorem changePassword_confined (u : User) (currentPassword newPassword : String) (d : Database) :
    Confined u.id (changePassword u currentPassword newPassword) d := by
  unfold changePassword
  split
  case isTrue   => exact .raise _ d
  case isFalse  => exact saveUser_confined u (by intro; rfl) (by intro; rfl) d

end Operations

section Charts

variable (d : Database) (user : Uuid) (now : Instant)

theorem usageSummary_tenant (days : Nat) :
    usageSummary (d.tenant user) now (some user) days = usageSummary d now (some user) days := by
  simp only [usageSummary, summaryLogs, scope_logs]

theorem dailyChart_tenant (days : Nat) :
    dailyChart (d.tenant user) now (some user) days = dailyChart d now (some user) days := by
  simp only [dailyChart, scope_logs]

theorem monthlyChart_tenant (months : Nat) :
    monthlyChart (d.tenant user) now (some user) months = monthlyChart d now (some user) months := by
  simp only [monthlyChart, monthlyRows, scope_usage]

theorem recentRequests_tenant (limit : Nat) :
    recentRequests (d.tenant user) user limit = recentRequests d user limit := by
  have hf : (d.tenant user).requestLogs.rows.filter (·.userId = some user) =
      d.requestLogs.rows.filter (·.userId = some user) := by
    refine (List.filter_filter ..).trans <| List.filter_congr fun l _ => ?_
    simp [Row.isOf]
  rw [recentRequests, hf, recentRequests]

end Charts

inductive TenantAnswer
  | subscription (s : LoadedSubscription)
  | recorded
  | feature (has : Bool)
  | issued (k : IssuedKey)
  | revoked (k : APIKey)
  | sessionRevoked
  | profile (u : User)
  | passwordChanged
  | summary (s : UsageSummary)
  | daily (chart : List DailyPoint)
  | monthly (chart : List MonthlyPoint)
  | recent (requests : List RecentRequest)

-- What is called for a user, with the ids, times and secrets that it takes from its environment.
inductive TenantCall
  | subscribe (planSlug : String) (canceledAt : Instant) (o : Opening)
  | cancel (canceledAt : Instant) (o : Opening)
  | recordRequest (r : Recording)
  | hasFeature (featureKey : String)
  | createApiKey (name : String) (i : Issuing)
  | revokeApiKey (keyId : Uuid) (revokedAt : Instant)
  | rotateApiKey (keyId : Uuid) (revokedAt : Instant) (i : Issuing)
  | revokeSession (sessionId : Uuid) (revokedAt : Instant)
  | updateProfile (firstName lastName : Option String)
  | changePassword (currentPassword newPassword : String)
  | usageSummary (now : Instant) (days : Nat)
  | dailyChart (now : Instant) (days : Nat)
  | monthlyChart (now : Instant) (months : Nat)
  | recentRequests (limit : Nat)

namespace TenantCall

def service (u : User) : TenantCall → Service TenantAnswer
  | subscribe p t o       => do return .subscription <| ← SaasBackend.subscribe u.id p t o
  | cancel t o            => do return .subscription <| ← SaasBackend.cancel u.id t o
  | recordRequest r       => do SaasBackend.recordRequest u.id r; return .recorded
  | hasFeature f          => do return .feature <| ← SaasBackend.hasFeature u.id f
  | createApiKey name i   => do return .issued <| ← SaasBackend.createApiKey u.id name i
  | revokeApiKey k t      => do return .revoked <| ← SaasBackend.revokeApiKey u.id k t
  | rotateApiKey k t i    => do return .issued <| ← SaasBackend.rotateApiKey u.id k t i
  | revokeSession s t     => do SaasBackend.revokeSession u.id s t; return .sessionRevoked
  | updateProfile f l     => do return .profile <| ← SaasBackend.updateProfile u f l
  | changePassword c n    => do SaasBackend.changePassword u c n; return .passwordChanged
  | usageSummary now n    => do
    return .summary <| ← ofExcept <| ← select (SaasBackend.usageSummary · now (some u.id) n)
  | dailyChart now n      => do
    return .daily <| ← ofExcept <| ← select (SaasBackend.dailyChart · now (some u.id) n)
  | monthlyChart now n    => do
    return .monthly <| ← ofExcept <| ← select (SaasBackend.monthlyChart · now (some u.id) n)
  | recentRequests n      => do return .recent <| ← select (SaasBackend.recentRequests · u.id n)

-- The generated ids and hashes are not in use.
def IsFresh (d : Database) : TenantCall → Prop
  | subscribe _ _ o | cancel _ o              => o.IsFresh d
  | recordRequest r                           => r.opening.IsFresh d ∧ ∀ q ∈ d.quotas, q.id ≠ r.quotaId
  | createApiKey _ i | rotateApiKey _ _ i     => i.IsFresh d
  | _                                         => True

theorem service_confined (u : User) {d : Database} (c : TenantCall) (h : c.IsFresh <| d.others u.id) :
    Confined u.id (c.service u) d := by
  cases c
  case subscribe        => exact .bind (subscribe_confined _ _ h) fun _ d₁ _ _ => .pure _ d₁
  case cancel           => exact .bind (cancel_confined _ h) fun _ d₁ _ _ => .pure _ d₁
  case recordRequest    => exact .bind (recordRequest_confined h.left h.right) fun _ d₁ _ _ => .pure _ d₁
  case hasFeature       => exact .bind (hasFeature_confined _ d) fun _ d₁ _ _ => .pure _ d₁
  case createApiKey     => exact .bind (createApiKey_confined _ h) fun _ d₁ _ _ => .pure _ d₁
  case revokeApiKey     => exact .bind (revokeApiKey_confined _ _ d) fun _ d₁ _ _ => .pure _ d₁
  case rotateApiKey     => exact .bind (rotateApiKey_confined _ _ h) fun _ d₁ _ _ => .pure _ d₁
  case revokeSession    => exact .bind (revokeSession_confined _ _ d) fun _ d₁ _ _ => .pure _ d₁
  case updateProfile    => exact .bind (updateProfile_confined u _ _ d) fun _ d₁ _ _ => .pure _ d₁
  case changePassword   => exact .bind (changePassword_confined u _ _ d) fun _ d₁ _ _ => .pure _ d₁
  case usageSummary now n =>
    refine .bind (.select <| usageSummary_tenant d u.id now n) fun _ d₁ _ _ => ?_
    exact .bind (.ofExcept _ d₁) fun _ d₂ _ _ => .pure _ d₂
  case dailyChart now n   =>
    refine .bind (.select <| dailyChart_tenant d u.id now n) fun _ d₁ _ _ => ?_
    exact .bind (.ofExcept _ d₁) fun _ d₂ _ _ => .pure _ d₂
  case monthlyChart now n =>
    refine .bind (.select <| monthlyChart_tenant d u.id now n) fun _ d₁ _ _ => ?_
    exact .bind (.ofExcept _ d₁) fun _ d₂ _ _ => .pure _ d₂
  case recentRequests n   =>
    exact .bind (.select <| recentRequests_tenant d u.id n) fun _ d₁ _ _ => .pure _ d₁

theorem IsFresh.others {d : Database} {c : TenantCall} (h : c.IsFresh d) (user : Uuid) : c.IsFresh (d.others user) := by
  have hq : ∀ q ∈ (d.others user).quotas, q ∈ d.quotas := fun q hq => (Table.mem_filter.mp hq).left
  have ho : ∀ o : Opening, o.IsFresh d → o.IsFresh (d.others user) := fun o ho => {
    subscription s hs := ho.subscription s (Table.mem_filter.mp hs).left
    quota q h         := ho.quota q (hq q h)
    unused q h        := ho.unused q (hq q h) }
  have hi : ∀ i : Issuing, i.IsFresh d → i.IsFresh (d.others user) := fun i hi => {
    id k hk   := hi.id k (Table.mem_filter.mp hk).left
    hash k hk := hi.hash k (Table.mem_filter.mp hk).left }
  cases c
  case subscribe | cancel           => exact ho _ h
  case createApiKey | rotateApiKey  => exact hi _ h
  case recordRequest                => exact ⟨ho _ h.left, fun q h' => h.right q (hq q h')⟩
  all_goals trivial

end TenantCall

-- Two databases with the same plans in which the same belongs to a user cannot be told apart by calls
-- for this user, and what belongs to others is not touched.
theorem tenants_isolated (u : User) (c : TenantCall) (d₁ d₂ : Database)
    (h : d₁.tenant u.id = d₂.tenant u.id) (h₁ : c.IsFresh d₁) (h₂ : c.IsFresh d₂) :
    ((c.service u).run d₁).fst = ((c.service u).run d₂).fst ∧
    ((c.service u).run d₁).snd.tenant u.id = ((c.service u).run d₂).snd.tenant u.id ∧
    ((c.service u).run d₁).snd.others u.id = d₁.others u.id ∧
    ((c.service u).run d₂).snd.others u.id = d₂.others u.id := by
  obtain ⟨hr₁, ht₁, ho₁⟩ := c.service_confined u <| h₁.others u.id
  obtain ⟨hr₂, ht₂, ho₂⟩ := c.service_confined u <| h₂.others u.id
  rw [h] at hr₁ ht₁
  exact ⟨hr₁.symm.trans hr₂, ht₁.symm.trans ht₂, ho₁, ho₂⟩

section Example

-- A database with another user, who has a key.
def exampleShared : Database :=
  (Seed.enrolled.put <| .user { Seed.user with id := 2, email := "other@example.com" }).put <|
    .apiKey <| newApiKey 2 "CI" ⟨"other", 7⟩

theorem key_created_among_others :
    (((TenantCall.createApiKey "CI" ⟨"token", 8⟩).service Seed.user).run exampleShared).fst =
      (((TenantCall.createApiKey "CI" ⟨"token", 8⟩).service Seed.user).run Seed.enrolled).fst ∧
    (((TenantCall.createApiKey "CI" ⟨"token", 8⟩).service Seed.user).run exampleShared).snd.others 1 =
      exampleShared.others 1 := by
  have h₁ : (TenantCall.createApiKey "CI" ⟨"token", 8⟩).IsFresh exampleShared :=
    ⟨by decide +kernel, by decide +kernel⟩
  have h₂ : (TenantCall.createApiKey "CI" ⟨"token", 8⟩).IsFresh Seed.enrolled :=
    ⟨by decide +kernel, by decide +kernel⟩
  obtain ⟨hr, _, ho, _⟩ := tenants_isolated Seed.user _ exampleShared Seed.enrolled rfl h₁ h₂
  exact ⟨hr, ho⟩

end Example
end SaasBackend
