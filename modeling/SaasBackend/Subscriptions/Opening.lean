import SaasBackend.Calendar.Days
import SaasBackend.Subscriptions.Seed
import SaasBackend.Subscriptions.Serial

open Calendar ReadCommitted ReadCommitted.Service

namespace SaasBackend

open Service

def isLeapDay (t : Instant) : Bool :=
  t.date.2.1 = 2 ∧ t.date.2.2 = 29

-- The ids which are generated for a subscription and its quota are not in use yet.
structure Opening.IsFresh (o : Opening) (d : Database) : Prop where
  subscription : ∀ s ∈ d.subscriptions, s.id ≠ o.subscriptionId
  quota        : ∀ q ∈ d.quotas, q.id ≠ o.quotaId
  unused       : ∀ q ∈ d.quotas, q.subscriptionId ≠ o.subscriptionId

-- An active subscription of the user is added together with a quota, of which the period starts at
-- once, and does not end before the default period of the plan.
structure OpensSubscription (user : Uuid) (plan : Plan) (o : Opening) (d d' : Database)
    (s : LoadedSubscription) (q : UsageQuota) : Prop where
  owned         : s.userId = user ∧ s.plan = plan ∧ s.planId = plan.id ∧ s.status = .active
  new           : s.toSubscription ∉ d.subscriptions ∧ q ∉ d.quotas
  subscriptions : ∀ r, r ∈ d'.subscriptions ↔ r = s.toSubscription ∨ r ∈ d.subscriptions
  quotas        : ∀ r, r ∈ d'.quotas ↔ r = q ∨ r ∈ d.quotas
  opening       : q.subscriptionId = s.id ∧ q.requestsUsed = 0
  start         : s.startedAt = o.start ∧ q.periodStart = o.start
  current       : q.isCurrent o.start
  finish        : ∀ start finish, defaultPeriodWindow plan o.start = .ok (start, finish) →
                    finish ≤ q.periodEnd

def Plan.periodDays (p : Plan) : Nat :=
  if p.durationDays = 0 then 30 else p.durationDays

section Period

variable {plan : Plan} {t start finish later : Instant}

theorem Plan.periodDays_pos (p : Plan) : 0 < p.periodDays := by
  unfold periodDays
  split <;> omega

theorem defaultPeriodWindow_eq :
    defaultPeriodWindow = fun plan t =>
      (t.addDays plan.periodDays).elim (.error .overflowError) fun finish => .ok (t, finish) := by
  -- The function is unfolded as a whole, since its bodies cannot be compared by evaluation.
  delta defaultPeriodWindow
  funext plan t
  have h : plan.periodDays = if plan.durationDays = 0 then 30 else plan.durationDays := rfl
  simp only [h]
  generalize t.addDays (if plan.durationDays = 0 then 30 else plan.durationDays) = x
  cases x <;> rfl

theorem defaultPeriodWindow_iff :
    defaultPeriodWindow plan t = .ok (start, finish) ↔
      start = t ∧ t.addDays plan.periodDays = some finish := by
  rw [defaultPeriodWindow_eq]
  dsimp only
  cases t.addDays plan.periodDays <;> simp [eq_comm]

theorem defaultPeriodWindow_eq_ok (h : defaultPeriodWindow plan t = .ok (start, finish)) :
    start = t ∧ t < finish :=
  have ⟨hs, hf⟩ := defaultPeriodWindow_iff.mp h
  ⟨hs, Instant.lt_of_addDays hf plan.periodDays_pos⟩

theorem fiftyYearsLater_eq_ok :
    fiftyYearsLater t = .ok later ↔ t.replaceYear (t.date.1 + 50) = some later := by
  unfold fiftyYearsLater
  cases t.replaceYear (t.date.1 + 50) <;> simp

-- Fifty years after a leap year there is none.
theorem fiftyYearsLater_iff (h : t.date.1 + 50 ≤ maxYear) :
    (∃ later, fiftyYearsLater t = .ok later) ↔ ¬isLeapDay t := by
  have hd := t.isDate
  rw [isLeapDay, decide_eq_true_iff]
  constructor
  case mp =>
    rintro ⟨later, hl⟩ ⟨hm, hday⟩
    obtain ⟨hl, _⟩ := (Instant.replaceYear_eq_some (by omega) h).mp <| fiftyYearsLater_eq_ok.mp hl
    have hday' := hd.day_le
    rw [hm, hday, daysInMonth] at hl hday'
    have h₁ : isLeap t.date.1 := by split at hday'; assumption; omega
    have h₂ : isLeap (t.date.1 + 50) := by split at hl; assumption; omega
    have h₁ := isLeap_iff.mp h₁
    have h₂ := isLeap_iff.mp h₂
    omega
  case mpr =>
    intro hn
    obtain ⟨later, hl⟩ := Instant.replaceYear_isSome (t := t) (by omega) h hn
    exact ⟨later, fiftyYearsLater_eq_ok.mpr hl⟩

theorem fiftyYearsLater_lt (h : t.date.1 + 50 ≤ maxYear) (hl : fiftyYearsLater t = .ok later) :
    t < later :=
  Instant.lt_of_replaceYear (n := 49) h <| fiftyYearsLater_eq_ok.mp hl

end Period

-- The end of the first period, and the rows which are created.
def openingEnd (expires : Bool) (start finish : Instant) : Except Exn Instant :=
  if expires then .ok finish else fiftyYearsLater start

def openedSubscription (user : Uuid) (plan : Plan) (expires : Bool) (o : Opening) (finish : Instant) :
    LoadedSubscription where
  id         := o.subscriptionId
  userId     := user
  planId     := plan.id
  status     := .active
  startedAt  := o.start
  expiresAt  := if expires then some finish else none
  canceledAt := none
  autoRenew  := expires
  plan       := plan

def openedQuota (o : Opening) (periodEnd : Instant) : UsageQuota where
  id             := o.quotaId
  subscriptionId := o.subscriptionId
  periodStart    := o.start
  periodEnd      := periodEnd
  requestsUsed   := 0

-- How a subscription comes about.
structure HasOpened (user : Uuid) (plan : Plan) (expires : Bool) (o : Opening)
    (finish periodEnd : Instant) (d d' : Database) : Prop where
  window : defaultPeriodWindow plan o.start = .ok (o.start, finish)
  period : openingEnd expires o.start finish = .ok periodEnd
  new    : Accepts d
            (⟨none, .subscription (openedSubscription user plan expires o finish).toSubscription⟩ : Write)
  quota  : Accepts
            (d.put <| .subscription (openedSubscription user plan expires o finish).toSubscription)
            (⟨none, .usageQuota <| openedQuota o periodEnd⟩ : Write)
  rows   : d' =
            (d.put <| .subscription (openedSubscription user plan expires o finish).toSubscription).put
              (.usageQuota <| openedQuota o periodEnd)

section Run

variable {d d' : Database} {user : Uuid} {plan : Plan} {expires : Bool} {o : Opening}
  {s : LoadedSubscription} {finish periodEnd : Instant}

theorem createSubscription_run_opened (h : (createSubscription user plan expires o).run d = (.ok s, d')) :
    ∃ finish periodEnd, s = openedSubscription user plan expires o finish ∧
      HasOpened user plan expires o finish periodEnd d d' := by
  have ⟨(start, finish), d₁, h₁, h⟩ := run_bind_eq_ok.mp h
  have ⟨_, d₂, h₂, h⟩ := run_bind_eq_ok.mp h
  have ⟨periodEnd, d₃, h₃, h⟩ := run_bind_eq_ok.mp h
  have ⟨_, d₄, h₄, h⟩ := run_bind_eq_ok.mp h
  have ⟨hw, hd₁⟩ := run_ofExcept_eq_ok.mp h₁
  have ⟨hs, _⟩ := defaultPeriodWindow_eq_ok hw
  have ⟨ha, hd₂⟩ := run_create_eq_ok h₂
  have ⟨hp, hd₃⟩ := run_ofExcept_eq_ok.mp h₃
  have ⟨hq, hd₄⟩ := run_create_eq_ok h₄
  subst hs hd₁ hd₂ hd₃ hd₄
  cases h
  exact ⟨finish, periodEnd, rfl, hw, hp, ha, hq, rfl⟩

theorem enrollInFreePlan_run_opened (h : (enrollInFreePlan user o).run d = (.ok s, d')) :
    ∃ plan finish periodEnd, getPlanBySlug d PlanSlug.free = some plan ∧
      s = openedSubscription user plan false o finish ∧ HasOpened user plan false o finish periodEnd d d' := by
  obtain ⟨plan, d₁, h₁, h⟩ := run_bind_eq_ok.mp <| run_atomic_eq_ok.mp h
  obtain ⟨hp, h₁⟩ := run_select_eq_ok.mp h₁
  subst h₁
  cases plan
  case none       => cases h
  case some plan  =>
    obtain ⟨finish, periodEnd, hs, ho⟩ := createSubscription_run_opened h
    exact ⟨plan, finish, periodEnd, hp, hs, ho⟩

theorem createSubscription_run (hf : o.IsFresh d)
    (hn : ∀ s ∈ d.subscriptions, s.userId = user → s.status ≠ .active)
    (hw : defaultPeriodWindow plan o.start = .ok (o.start, finish))
    (hp : openingEnd expires o.start finish = .ok periodEnd) :
    ∃ d', (createSubscription user plan expires o).run d =
      (.ok <| openedSubscription user plan expires o finish, d') := by
  let sub := (openedSubscription user plan expires o finish).toSubscription
  have h₁ : (create <| .subscription sub).run d = (.ok (), d.put <| .subscription sub) := by
    refine run_create_of_fits rfl (fun r hr hk => hf.subscription r hr <| Key.subscription.inj hk) ?_
    intro r hr k hk hk'
    have hk : k = .activeSubscription user := List.mem_singleton.mp hk
    simp only [Entity.entries] at hk'
    split at hk'
    case isFalse => exact List.not_mem_nil hk'
    case isTrue ha =>
      exact hn r hr (Key.activeSubscription.inj <| (List.mem_singleton.mp hk').symm.trans hk) ha
  have h₂ : (create <| .usageQuota <| openedQuota o periodEnd).run (d.put <| .subscription sub) =
      (.ok (), (d.put <| .subscription sub).put <| .usageQuota <| openedQuota o periodEnd) := by
    refine run_create_of_fits rfl (fun q hq hk => hf.quota q hq <| Key.usageQuota.inj hk) ?_
    intro q hq k hk hk'
    have hk := (List.mem_singleton.mp hk).symm.trans <| List.mem_singleton.mp hk'
    exact hf.unused q hq (Key.quotaPeriod.inj hk).left.symm
  have hr : (createSubscription user plan expires o).run d =
      (.ok <| openedSubscription user plan expires o finish,
       (d.put <| .subscription sub).put <| .usageQuota <| openedQuota o periodEnd) := by
    refine run_bind_eq_ok.mpr ⟨(o.start, finish), d, run_ofExcept_eq_ok.mpr ⟨hw, rfl⟩, ?_⟩
    refine run_bind_eq_ok.mpr ⟨(), _, h₁, run_bind_eq_ok.mpr ⟨periodEnd, d.put <| .subscription sub, ?_, ?_⟩⟩
    · exact run_ofExcept_eq_ok.mpr ⟨hp, rfl⟩
    · exact run_bind_eq_ok.mpr ⟨(), _, h₂, rfl⟩
  exact ⟨_, hr⟩

end Run

-- A subscription can be opened on all days but leap days. Its first period lasts for at least a period
-- of the plan, unless the plan has periods of more than fifty years.
theorem createSubscription_opens_iff (d : Database) (user : Uuid) (plan : Plan) (expires : Bool)
    (o : Opening) (start finish : Instant) (hy : o.start.date.1 + 50 ≤ maxYear) (hf : o.IsFresh d)
    (hn : ∀ s ∈ d.subscriptions, s.userId = user → s.status ≠ .active)
    (hw : defaultPeriodWindow plan o.start = .ok (start, finish)) :
    (∃ s q d', (createSubscription user plan expires o).run d = (.ok s, d') ∧
      OpensSubscription user plan o d d' s q) ↔
    expires ∨ ¬isLeapDay o.start ∧
      ∀ later, o.start.replaceYear (o.start.date.1 + 50) = some later → finish ≤ later := by
  have ⟨hs, hlt⟩ := defaultPeriodWindow_eq_ok hw
  subst hs
  constructor
  case mp =>
    intro ⟨s, q, d', hr, ho⟩
    have ⟨f, e, hs, hd⟩ := createSubscription_run_opened hr
    have hp := hd.period
    cases expires
    case true   => exact .inl rfl
    case false  =>
      have hp : fiftyYearsLater o.start = .ok e := hp
      have hq : openedQuota o e = q := by
        have hm : openedQuota o e ∈ d'.quotas := hd.rows ▸ Table.mem_put_self ..
        refine ((ho.quotas _).mp hm).resolve_right fun hm => ?_
        exact hf.quota _ hm rfl
      refine .inr ⟨(fiftyYearsLater_iff hy).mp ⟨e, hp⟩, fun later hl => ?_⟩
      cases (fiftyYearsLater_eq_ok.mpr hl).symm.trans hp
      have hle := ho.finish _ _ hw
      rwa [←hq] at hle
  case mpr =>
    intro h
    have ⟨e, hp, hle, hlt⟩ :
        ∃ e, openingEnd expires o.start finish = .ok e ∧ finish ≤ e ∧ o.start < e := by
      cases expires
      case true   => exact ⟨finish, rfl, le_refl _, hlt⟩
      case false  =>
        have ⟨hl, hle⟩ := h.resolve_left (by decide)
        have ⟨e, he⟩ := (fiftyYearsLater_iff hy).mpr hl
        exact ⟨e, he, hle e <| fiftyYearsLater_eq_ok.mp he, fiftyYearsLater_lt hy he⟩
    have ⟨d', hr⟩ := createSubscription_run hf hn hw hp
    have ⟨f, e', hs, hd⟩ := createSubscription_run_opened hr
    cases hw.symm.trans hd.window
    cases hp.symm.trans hd.period
    refine ⟨_, openedQuota o e, d', hr, ⟨rfl, rfl, rfl, rfl⟩, ⟨?_, ?_⟩, ?_, ?_, ⟨rfl, rfl⟩,
      ⟨rfl, rfl⟩, ?_, ?_⟩
    · exact fun hm => hf.subscription _ hm rfl
    · exact fun hm => hf.quota _ hm rfl
    · intro r
      rw [hd.rows]
      refine Table.mem_put.trans <| or_congr_right <| and_iff_left_of_imp fun hr hk => ?_
      exact hf.subscription r hr <| Key.subscription.inj hk
    · intro r
      rw [hd.rows]
      refine Table.mem_put.trans <| or_congr_right <| and_iff_left_of_imp fun hr hk => ?_
      exact hf.quota r hr <| Key.usageQuota.inj hk
    · exact decide_eq_true ⟨le_refl _, hlt⟩
    · intro _ f hf
      cases hw.symm.trans hf
      exact hle

section Example

def openingOn (day : Nat) : Opening :=
  ⟨.midnight day, 1, 1⟩

theorem free_plan_opens_on_ordinary_day :
    ∃ s q d',
      (createSubscription 1 Seed.free false <| openingOn 739000).run Seed.database = (.ok s, d') ∧
      OpensSubscription 1 Seed.free (openingOn 739000) Seed.database d' s q := by
  apply (createSubscription_opens_iff Seed.database 1 Seed.free false (openingOn 739000)
    (.midnight 739000) (.midnight 739030) (by decide) ⟨nofun, nofun, nofun⟩ nofun
    (defaultPeriodWindow_iff.mpr ⟨rfl, by decide⟩)).mpr
  refine .inr ⟨by decide, fun later hl => ?_⟩
  have he : (Instant.midnight 739000).replaceYear 2074 = some (.midnight 757262) := by decide +kernel
  cases hl.symm.trans he
  decide

-- On the 29th of February 2024, nobody can be enrolled in the free plan.
theorem free_plan_fails_on_leap_day :
    ¬∃ s q d',
      (createSubscription 1 Seed.free false <| openingOn 738944).run Seed.database = (.ok s, d') ∧
      OpensSubscription 1 Seed.free (openingOn 738944) Seed.database d' s q := by
  rintro ⟨s, q, d', hr, _⟩
  have ⟨_, e, _, ho⟩ := createSubscription_run_opened hr
  have he : fiftyYearsLater (.midnight 738944) = .ok e := ho.period
  exact (fiftyYearsLater_iff (by decide)).mp ⟨e, he⟩ <| by decide

end Example
end SaasBackend
