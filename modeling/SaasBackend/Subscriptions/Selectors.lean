import SaasBackend.Database

open Calendar ReadCommitted

namespace SaasBackend

-- The rows of `plans` that match the `WHERE` clause. A slug belongs to one plan only.
def getPlanBySlug (d : Database) (slug : String) : Option Plan :=
  d.plans.rows.find? fun p => p.slug = slug ∧ p.isActive

-- `select_related("plan")` joins a subscription with its plan.
def loadPlan (d : Database) (s : Subscription) : Option LoadedSubscription :=
  (d.plans.lookup (.plan s.planId)).map fun p => { s with plan := p }

-- Note that the expiry of the subscription is not considered here.
def getActiveSubscription (d : Database) (user : Uuid) : Option LoadedSubscription :=
  d.subscriptions.rows.findSome? fun s =>
    if s.userId = user ∧ s.status = .active then loadPlan d s else none

-- Among the current periods of a subscription the latest one.
def getCurrentQuota (d : Database) (sub : Uuid) (now : Instant) : Option UsageQuota :=
  (d.quotas.rows.filter fun q => q.subscriptionId = sub ∧ q.isCurrent now).argmax (·.periodStart)

-- The result set of the expiry sweep.
def dueSubscriptions (d : Database) (now : Instant) : List LoadedSubscription :=
  (d.subscriptions.rows.filter fun s => s.status = .active ∧ s.expiresAt.any (· ≤ now)).filterMap
    (loadPlan d)

section Specs

variable {d : Database} {user sub : Uuid} {s : LoadedSubscription} {now : Instant}

theorem getPlanBySlug_eq_some {slug : String} {p : Plan} (h : getPlanBySlug d slug = some p) :
    p ∈ d.plans ∧ p.slug = slug ∧ p.isActive := by
  have hp : p.slug = slug ∧ p.isActive := by simpa using List.find?_some h
  exact ⟨List.mem_of_find?_eq_some h, hp⟩

theorem loadPlan_eq_some {r : Subscription} :
    loadPlan d r = some s ↔ s.toSubscription = r ∧ s.plan ∈ d.plans ∧ s.plan.id = r.planId := by
  simp only [loadPlan, Option.map_eq_some_iff, Table.lookup_eq_some]
  constructor
  case mp  => rintro ⟨p, ⟨hp, hk⟩, rfl⟩; exact ⟨rfl, hp, Key.plan.inj hk⟩
  case mpr => rintro ⟨rfl, hp, hk⟩; exact ⟨s.plan, ⟨hp, congrArg Key.plan hk⟩, rfl⟩

theorem getActiveSubscription_eq_some (h : getActiveSubscription d user = some s) :
    s.toSubscription ∈ d.subscriptions ∧ s.userId = user ∧ s.status = .active ∧
    s.plan ∈ d.plans ∧ s.plan.id = s.planId := by
  have ⟨r, hr, h⟩ := List.exists_of_findSome?_eq_some h
  split at h
  case isFalse    => cases h
  case isTrue hs  =>
    have ⟨h, hp, hk⟩ := loadPlan_eq_some.mp h
    exact ⟨h ▸ hr, h ▸ hs.left, h ▸ hs.right, hp, h ▸ hk⟩

theorem getCurrentQuota_eq_some {q : UsageQuota} (h : getCurrentQuota d sub now = some q) :
    q ∈ d.quotas ∧ q.subscriptionId = sub ∧ q.isCurrent now := by
  have h := List.argmax_mem h
  simpa [Table.mem_rows] using h

theorem argmax_map {α β : Type} [LinearOrder β] (f : α → β) (g : α → α) (l : List α)
    (h : ∀ a ∈ l, f (g a) = f a) : (l.map g).argmax f = (l.argmax f).map g := by
  induction l
  case nil => rfl
  case cons a l hi =>
    have hi := hi fun a ha => h a <| List.mem_cons_of_mem _ ha
    rw [List.map_cons, List.argmax_cons, List.argmax_cons, hi]
    cases ha : l.argmax f
    case none   => rfl
    case some b =>
      have hb := h b <| List.mem_cons_of_mem _ <| List.argmax_mem ha
      simp only [Option.map_some, h a List.mem_cons_self, hb]
      split <;> rfl

-- A current quota remains the current one while it is counted up.
theorem getCurrentQuota_put {q q' : UsageQuota} (h : getCurrentQuota d sub now = some q)
    (hi : q'.id = q.id) (hs : q'.subscriptionId = q.subscriptionId)
    (hp : q'.periodStart = q.periodStart) (he : q'.periodEnd = q.periodEnd) :
    getCurrentQuota { d with quotas := d.quotas.put q' } sub now = some q' := by
  have ⟨hm, _⟩ := getCurrentQuota_eq_some h
  have hk : Entity.key q = Entity.key q' := congrArg Key.usageQuota hi.symm
  let g : UsageQuota → UsageQuota := fun r => if Entity.key r = Entity.key q' then q' else r
  have hg : ∀ r ∈ d.quotas.rows, Entity.key r = Entity.key q' → r = q :=
    fun r hr hr' => Table.eq_of_key hr hm <| hr'.trans hk.symm
  have hf : ∀ r ∈ d.quotas.rows, (g r).subscriptionId = r.subscriptionId ∧
      (g r).periodStart = r.periodStart ∧ (g r).isCurrent now = r.isCurrent now := by
    intro r hr
    by_cases h : Entity.key r = Entity.key q'
    case pos => simp [g, hg r hr h, hk, UsageQuota.isCurrent, hs, hp, he]
    case neg => simp [g, h]
  have hq : some q' = (some q).map g := congrArg some (if_pos hk).symm
  simp only [getCurrentQuota, Table.rows_put_of_mem hm hk] at h ⊢
  rw [hq, ←h, List.filter_map, argmax_map _ g]
  · apply congrArg _
    apply congrArg _
    apply List.filter_congr
    intro r hr
    have ⟨hr₁, _, hr₂⟩ := hf r hr
    change decide ((g r).subscriptionId = sub ∧ (g r).isCurrent now) = _
    rw [hr₁, hr₂]
  · exact fun r hr => (hf r (List.mem_of_mem_filter hr)).right.left

theorem getActiveSubscription_congr {d' : Database} (hs : d'.subscriptions = d.subscriptions)
    (hp : d'.plans = d.plans) (user : Uuid) :
    getActiveSubscription d' user = getActiveSubscription d user := by
  simp only [getActiveSubscription, loadPlan, hs, hp]

theorem getCurrentQuota_congr {d' : Database} (hq : d'.quotas = d.quotas) (sub : Uuid)
    (now : Instant) : getCurrentQuota d' sub now = getCurrentQuota d sub now := by
  simp only [getCurrentQuota, hq]

theorem mem_dueSubscriptions (h : s ∈ dueSubscriptions d now) :
    s.toSubscription ∈ d.subscriptions ∧ s.status = .active := by
  have ⟨r, hr, h⟩ := List.mem_filterMap.mp h
  have h := (loadPlan_eq_some.mp h).left
  simp only [List.mem_filter, decide_eq_true_eq] at hr
  exact ⟨h ▸ hr.left, h ▸ hr.right.left⟩

end Specs
end SaasBackend
