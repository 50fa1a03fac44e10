import SaasBackend.Subscriptions.Opening

open Calendar ReadCommitted ReadCommitted.Service

namespace SaasBackend

open Service

-- A row after the active subscription of the user has ended as `ends` says.
def endActive (user : Uuid) (ends : Subscription → Subscription) (r : Subscription) : Subscription :=
  if r.userId = user ∧ r.status = .active then ends r else r

-- The active subscription of the user has ended, if there was any, and `s` is the only one now. It has
-- one quota, and nothing else has changed.
structure SwitchesPlan (user : Uuid) (planSlug : String) (ends : Subscription → Subscription)
    (o : Opening) (s : LoadedSubscription) (d d' : Database) : Prop where
  plan          : s.plan ∈ d.plans ∧ s.plan.slug = planSlug ∧ s.plan.isActive ∧ s.planId = s.plan.id
  owned         : s.userId = user ∧ s.status = .active ∧ s.startedAt = o.start ∧ s.canceledAt = none
  only          : ∀ r ∈ d'.subscriptions, r.userId = user → r.status = .active → r = s.toSubscription
  new           : ∀ r ∈ d.subscriptions, r.id ≠ s.id
  subscriptions : ∀ r, r ∈ d'.subscriptions ↔
                    r = s.toSubscription ∨ ∃ r₀ ∈ d.subscriptions, r = endActive user ends r₀
  quotas        : ∃ q, q.subscriptionId = s.id ∧ q.requestsUsed = 0 ∧ q.periodStart = s.startedAt ∧
                    q ∉ d.quotas ∧ ∀ r, r ∈ d'.quotas ↔ r = q ∨ r ∈ d.quotas
  others        : d' = { d with subscriptions := d'.subscriptions, quotas := d'.quotas }

section Opened

variable {d d' : Database} {user : Uuid} {plan : Plan} {expires : Bool} {o : Opening}
  {finish periodEnd : Instant}

namespace HasOpened

theorem mem_subscriptions (h : HasOpened user plan expires o finish periodEnd d d') (r : Subscription) :
    r ∈ d'.subscriptions ↔
      r = (openedSubscription user plan expires o finish).toSubscription ∨ r ∈ d.subscriptions := by
  have hn := accepts_new h.new
  rw [h.rows]
  exact Table.mem_put.trans <| or_congr_right <| and_iff_left_of_imp <| hn r

theorem mem_quotas (h : HasOpened user plan expires o finish periodEnd d d') (r : UsageQuota) :
    r ∈ d'.quotas ↔ r = openedQuota o periodEnd ∨ r ∈ d.quotas := by
  have hn := accepts_new h.quota
  rw [h.rows]
  exact Table.mem_put.trans <| or_congr_right <| and_iff_left_of_imp <| hn r

theorem openedQuota_not_mem (h : HasOpened user plan expires o finish periodEnd d d') :
    openedQuota o periodEnd ∉ d.quotas :=
  fun hq => accepts_new h.quota _ hq rfl

-- A subscription is not opened besides another one.
theorem not_active (h : HasOpened user plan expires o finish periodEnd d d') {r : Subscription}
    (hr : r ∈ d.subscriptions) (hu : r.userId = user) : r.status ≠ .active := by
  intro hs
  refine accepts_fresh h.new r hr (.activeSubscription user) (List.mem_singleton_self _) ?_
  simp [Entity.entries, hu, hs]

end HasOpened
end Opened

section Ends

variable {d d₁ d' : Database} {user : Uuid} {ends : Subscription → Subscription} {old : Subscription}

theorem endActive_of_not {r : Subscription} (h : r.userId = user → r.status ≠ .active) :
    endActive user ends r = r :=
  if_neg fun ⟨hu, hs⟩ => h hu hs

theorem endActive_of_active (hu : old.userId = user) (hs : old.status = .active) :
    endActive user ends old = ends old :=
  if_pos ⟨hu, hs⟩

theorem mem_of_not_active (h : ∀ r ∈ d.subscriptions, r.userId = user → r.status ≠ .active)
    (r : Subscription) :
    r ∈ d.subscriptions ↔ ∃ r₀ ∈ d.subscriptions, r = endActive user ends r₀ := by
  constructor
  case mp  => exact fun hr => ⟨r, hr, (endActive_of_not <| h r hr).symm⟩
  case mpr =>
    rintro ⟨r₀, hr, he⟩
    rwa [he, endActive_of_not <| h r₀ hr]

-- Since a second one can be opened, there is only one active subscription to be ended.
theorem mem_of_ended (ho : old ∈ d.subscriptions) (hu : old.userId = user) (hs : old.status = .active)
    (hi : (ends old).id = old.id)
    (h : ∀ r ∈ (d.put <| .subscription <| ends old).subscriptions, r.userId = user → r.status ≠ .active)
    (r : Subscription) :
    r ∈ (d.put <| .subscription <| ends old).subscriptions ↔
      ∃ r₀ ∈ d.subscriptions, r = endActive user ends r₀ := by
  have hk : ∀ r₀ ∈ d.subscriptions, Entity.key r₀ = Entity.key (ends old) → r₀ = old := fun r₀ hr hk =>
    Table.eq_of_key hr ho <| hk.trans <| congrArg Key.subscription hi
  constructor
  case mp =>
    intro hr
    cases Table.mem_put.mp hr
    case inl he => exact ⟨old, ho, he.trans (endActive_of_active hu hs).symm⟩
    case inr hm => exact ⟨r, hm.left, (endActive_of_not <| h r hr).symm⟩
  case mpr =>
    rintro ⟨r₀, hr, he⟩
    by_cases hr₀ : r₀ = old
    case pos => rw [he, hr₀, endActive_of_active hu hs]; exact Table.mem_put_self ..
    case neg =>
      have hm : r₀ ∈ (d.put <| .subscription <| ends old).subscriptions :=
        Table.mem_put_of_ne hr fun he => hr₀ <| hk r₀ hr he
      rwa [he, endActive_of_not <| h r₀ hm]

theorem endActive_id (hi : ∀ r, (ends r).id = r.id) (r : Subscription) :
    (endActive user ends r).id = r.id := by
  unfold endActive
  split
  case isTrue   => exact hi r
  case isFalse  => rfl

variable {plan : Plan} {planSlug : String} {expires : Bool} {o : Opening} {finish periodEnd : Instant}

-- A plan is switched by ending what is active and opening another subscription.
theorem HasOpened.switchesPlan (h : HasOpened user plan expires o finish periodEnd d₁ d')
    (hp : getPlanBySlug d planSlug = some plan) (hi : ∀ r, (ends r).id = r.id)
    (hs : ∀ r, r ∈ d₁.subscriptions ↔ ∃ r₀ ∈ d.subscriptions, r = endActive user ends r₀)
    (hd : d₁ = { d with subscriptions := d₁.subscriptions }) :
    SwitchesPlan user planSlug ends o (openedSubscription user plan expires o finish) d d' := by
  have hq : d₁.quotas = d.quotas := by rw [hd]
  constructor
  case plan           =>
    have ⟨hm, hs, ha⟩ := getPlanBySlug_eq_some hp
    exact ⟨hm, hs, ha, rfl⟩
  case owned          => exact ⟨rfl, rfl, rfl, rfl⟩
  case only           =>
    intro r hr hu ha
    exact ((h.mem_subscriptions r).mp hr).resolve_right fun hr => h.not_active hr hu ha
  case new            =>
    intro r hr he
    refine accepts_new h.new _ ((hs _).mpr ⟨r, hr, rfl⟩) <| congrArg Key.subscription ?_
    exact (endActive_id hi r).trans he
  case subscriptions  => exact fun r => (h.mem_subscriptions r).trans <| or_congr_right <| hs r
  case quotas         =>
    refine ⟨openedQuota o periodEnd, rfl, rfl, rfl, hq ▸ h.openedQuota_not_mem, fun r => ?_⟩
    exact hq ▸ h.mem_quotas r
  case others         => rw [h.rows, hd]; rfl

end Ends

def canceled (canceledAt : Instant) (s : Subscription) : Subscription :=
  { s with status := .canceled, canceledAt := some canceledAt }

def canceledForGood (canceledAt : Instant) (s : Subscription) : Subscription :=
  { s with status := .canceled, canceledAt := some canceledAt, autoRenew := false }

section Run

variable {d d' : Database} {user : Uuid} {planSlug : String} {canceledAt : Instant} {o : Opening}
  {s : LoadedSubscription}

-- The end of a paid period, and none for a perpetual plan.
def expiryOf (plan : Plan) (start : Instant) : Option Instant :=
  if 0 < plan.durationDays then start.addDays plan.durationDays else none

theorem expiresAt_opened (user : Uuid) {plan : Plan} {finish : Instant}
    (h : defaultPeriodWindow plan o.start = .ok (o.start, finish)) :
    (openedSubscription user plan (decide (plan.durationDays > 0)) o finish).expiresAt =
      expiryOf plan o.start ∧ (0 < plan.durationDays → (expiryOf plan o.start).isSome) := by
  have ⟨_, hf⟩ := defaultPeriodWindow_iff.mp h
  rw [Plan.periodDays] at hf
  unfold expiryOf
  by_cases hd : 0 < plan.durationDays
  case neg => simp [openedSubscription, hd]
  case pos =>
    rw [if_neg hd.ne'] at hf
    rw [if_pos hd, hf]
    simp [openedSubscription, hd]

theorem HasOpened.switchesPlan_of_none {plan : Plan} {expires : Bool} {finish periodEnd : Instant}
    {ends : Subscription → Subscription} (h : HasOpened user plan expires o finish periodEnd d d')
    (hp : getPlanBySlug d planSlug = some plan) (hi : ∀ r, (ends r).id = r.id) :
    SwitchesPlan user planSlug ends o (openedSubscription user plan expires o finish) d d' :=
  h.switchesPlan hp hi (mem_of_not_active fun _ hr hu => h.not_active hr hu) rfl

theorem HasOpened.switchesPlan_of_some {plan : Plan} {expires : Bool} {finish periodEnd : Instant}
    {ends : Subscription → Subscription} {old : LoadedSubscription}
    (ho : getActiveSubscription d user = some old)
    (h : HasOpened user plan expires o finish periodEnd (d.put <| .subscription <| ends old.toSubscription) d')
    (hp : getPlanBySlug d planSlug = some plan) (hi : ∀ r, (ends r).id = r.id) :
    SwitchesPlan user planSlug ends o (openedSubscription user plan expires o finish) d d' := by
  have ⟨hm, hu, hs, _⟩ := getActiveSubscription_eq_some ho
  exact h.switchesPlan hp hi (mem_of_ended hm hu hs (hi _) fun _ hr hu => h.not_active hr hu) rfl

-- The active subscription is the one which is saved.
theorem run_save_active {ends : Subscription → Subscription} {old : LoadedSubscription}
    (ho : getActiveSubscription d user = some old)
    (h : (save Database.subscriptions .subscription (.subscription old.id) ends).run d = (.ok (), d')) :
    d' = d.put (.subscription <| ends old.toSubscription) := by
  have ⟨r, hr, hk, hd⟩ := run_save_eq_ok h
  rw [hd, Table.eq_of_key hr (getActiveSubscription_eq_some ho).left hk]

theorem subscribe_run_eq_ok (h : (subscribe user planSlug canceledAt o).run d = (.ok s, d')) :
    SwitchesPlan user planSlug (canceled canceledAt) o s d d' ∧
    (∀ r ∈ d.subscriptions, r.userId = user → r.status = .active → r.planId ≠ s.planId) ∧
    s.expiresAt = expiryOf s.plan o.start ∧ (0 < s.plan.durationDays → s.expiresAt.isSome) := by
  have ⟨plan, d₁, h₁, h⟩ := run_bind_eq_ok.mp <| run_atomic_eq_ok.mp h
  have ⟨hp, h₁⟩ := run_select_eq_ok.mp h₁
  subst h₁
  cases plan
  case none       => cases h
  case some plan  =>
    have ⟨current, d₂, h₂, h⟩ := run_bind_eq_ok.mp h
    have ⟨hc, h₂⟩ := run_select_eq_ok.mp h₂
    subst h₂
    cases current
    case none     =>
      have ⟨finish, periodEnd, hs, ho⟩ := createSubscription_run_opened h
      have ⟨he, hd⟩ := expiresAt_opened user ho.window
      subst hs
      refine ⟨ho.switchesPlan_of_none hp fun _ => rfl, fun r hr hu ha => ?_, he, fun hd' => he ▸ hd hd'⟩
      exact (ho.not_active hr hu ha).elim
    case some old =>
      simp only at h
      split at h
      case isTrue     => cases h
      case isFalse hn =>
        have ⟨_, d₃, h₃, h⟩ := run_bind_eq_ok.mp h
        have hd₃ := run_save_active hc h₃
        subst hd₃
        have ⟨finish, periodEnd, hs, ho⟩ := createSubscription_run_opened h
        have ⟨he, hd⟩ := expiresAt_opened user ho.window
        subst hs
        refine ⟨ho.switchesPlan_of_some hc hp fun _ => rfl, fun r hr hu ha => ?_, he, fun hd' => he ▸ hd hd'⟩
        by_cases hr' : r = old.toSubscription
        case pos => exact hr' ▸ hn
        case neg =>
          refine (ho.not_active (Table.mem_put_of_ne hr fun hk => hr' ?_) hu ha).elim
          exact Table.eq_of_key hr (getActiveSubscription_eq_some hc).left hk

theorem cancel_run_eq_ok (h : (cancel user canceledAt o).run d = (.ok s, d')) :
    SwitchesPlan user PlanSlug.free (canceledForGood canceledAt) o s d d' ∧
    (∃ r ∈ d.subscriptions, r.userId = user ∧ r.status = .active) ∧ s.expiresAt = none := by
  have ⟨current, d₁, h₁, h⟩ := run_bind_eq_ok.mp <| run_atomic_eq_ok.mp h
  have ⟨hc, h₁⟩ := run_select_eq_ok.mp h₁
  subst h₁
  cases current
  case none     => cases h
  case some old =>
    have ⟨_, d₂, h₂, h⟩ := run_bind_eq_ok.mp h
    have hd₂ := run_save_active hc h₂
    subst hd₂
    have ⟨plan, finish, periodEnd, hp, hs, ho⟩ := enrollInFreePlan_run_opened h
    subst hs
    have ⟨hm, hu, ha, _⟩ := getActiveSubscription_eq_some hc
    exact ⟨ho.switchesPlan_of_some hc hp fun _ => rfl, ⟨_, hm, hu, ha⟩, rfl⟩

end Run

-- A change of the plan is either complete, or has not happened at all.
theorem plan_switched_or_unchanged (d : Database) (user : Uuid) (planSlug : String)
    (canceledAt : Instant) (o : Opening) :
    (match (subscribe user planSlug canceledAt o).run d with
      | (.ok s, d')    =>
        SwitchesPlan user planSlug (canceled canceledAt) o s d d' ∧
        (∀ r ∈ d.subscriptions, r.userId = user → r.status = .active → r.planId ≠ s.planId) ∧
        s.expiresAt = expiryOf s.plan o.start ∧ (0 < s.plan.durationDays → s.expiresAt.isSome)
      | (.error _, d') => d' = d) ∧
    (match (cancel user canceledAt o).run d with
      | (.ok s, d')    =>
        SwitchesPlan user PlanSlug.free (canceledForGood canceledAt) o s d d' ∧
        (∃ r ∈ d.subscriptions, r.userId = user ∧ r.status = .active) ∧ s.expiresAt = none
      | (.error _, d') => d' = d) := by
  constructor
  case left =>
    split
    case h_1 h => exact subscribe_run_eq_ok h
    case h_2 h => exact run_atomic_eq_error h
  case right =>
    split
    case h_1 h => exact cancel_run_eq_ok h
    case h_2 h => exact run_atomic_eq_error h

end SaasBackend
