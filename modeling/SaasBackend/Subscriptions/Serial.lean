import SaasBackend.Statements
import SaasBackend.Subscriptions.Services

open Calendar ReadCommitted ReadCommitted.Service

namespace SaasBackend

open Service

-- The writes of the services of this app, and what they leave unchanged about a row.
inductive Bills : Write → Prop
  | opens (s : Subscription) : Bills ⟨none, .subscription s⟩
  | ends {s s' : Subscription} (hi : s'.id = s.id) (hu : s'.userId = s.userId)
      (hp : s'.planId = s.planId) : Bills ⟨some <| .subscription s, .subscription s'⟩
  | rotates (q : UsageQuota) : Bills ⟨none, .usageQuota q⟩
  | counts {q q' : UsageQuota} (hi : q'.id = q.id) (hs : q'.subscriptionId = q.subscriptionId)
      (hu : q.requestsUsed ≤ q'.requestsUsed) : Bills ⟨some <| .usageQuota q, .usageQuota q'⟩

-- The writes by which subscriptions and quotas are arranged, before any request is counted.
inductive Arranges : Write → Prop
  | opens (s : Subscription) : Arranges ⟨none, .subscription s⟩
  | ends {s s' : Subscription} (hi : s'.id = s.id) (hu : s'.userId = s.userId)
      (hp : s'.planId = s.planId) : Arranges ⟨some <| .subscription s, .subscription s'⟩
  | rotates {q : UsageQuota} (hq : q.requestsUsed = 0) : Arranges ⟨none, .usageQuota q⟩

theorem Arranges.bills {w : Write} (h : Arranges w) : Bills w := by
  cases h
  case opens              => exact .opens _
  case ends hi hu hp      => exact .ends hi hu hp
  case rotates            => exact .rotates _

-- What follows in `record_request` once the quota is found.
def countRequest (x : LoadedSubscription × UsageQuota) : Service Unit :=
  if isOverLimit x.1.plan.requestQuota x.2.requestsUsed then
    raise <| quotaExceeded x.1.plan x.2.requestsUsed
  else
    incrementUsage x.2

theorem countRequest_cases (x : LoadedSubscription × UsageQuota) :
    (∃ e, countRequest x = raise e) ∨ countRequest x = incrementUsage x.2 := by
  unfold countRequest
  split
  case isTrue   => exact .inl ⟨_, rfl⟩
  case isFalse  => exact .inr rfl

section Issues

theorem createSubscription_issues (user : Uuid) (plan : Plan) (expires : Bool) (o : Opening) :
    (createSubscription user plan expires o).Issues Arranges :=
  Issues.bind (Issues.ofExcept _) fun _ =>
    Issues.bind (Issues.create <| .opens _) fun _ =>
      Issues.bind (Issues.ofExcept _) fun _ =>
        Issues.bind (Issues.create <| .rotates rfl) fun _ => Issues.pure _

theorem enrollInFreePlan_issues (user : Uuid) (o : Opening) :
    (enrollInFreePlan user o).Issues Arranges := by
  apply Issues.atomic
  apply Issues.bind (Issues.select _)
  intro plan
  cases plan
  case none   => exact Issues.raise _
  case some p => exact createSubscription_issues ..

theorem subscribe_issues (user : Uuid) (planSlug : String) (canceledAt : Instant) (o : Opening) :
    (subscribe user planSlug canceledAt o).Issues Arranges := by
  apply Issues.atomic
  apply Issues.bind (Issues.select _)
  intro plan
  cases plan
  case none   => exact Issues.raise _
  case some p =>
    apply Issues.bind (Issues.select _)
    intro current
    cases current
    case none   => exact createSubscription_issues ..
    case some s =>
      simp only
      split
      case isTrue  => exact Issues.raise _
      case isFalse =>
        refine Issues.bind (Issues.save (fun _ => rfl) fun r => .ends rfl rfl rfl) fun _ => ?_
        exact createSubscription_issues ..

theorem cancel_issues (user : Uuid) (canceledAt : Instant) (o : Opening) :
    (cancel user canceledAt o).Issues Arranges := by
  apply Issues.atomic
  apply Issues.bind (Issues.select _)
  intro sub
  cases sub
  case none   => exact Issues.raise _
  case some s =>
    refine Issues.bind (Issues.save (fun _ => rfl) fun r => .ends rfl rfl rfl) fun _ => ?_
    exact enrollInFreePlan_issues ..

theorem currentOrRotateQuota_issues (sub : LoadedSubscription) (r : Recording) :
    (currentOrRotateQuota sub r).Issues Arranges := by
  apply Issues.bind (Issues.select _)
  intro quota
  cases quota
  case some q => exact Issues.pure _
  case none   =>
    apply Issues.bind (Issues.ofExcept _)
    intro _
    exact Issues.bind (Issues.create <| .rotates rfl) fun _ => Issues.pure _

theorem incrementUsage_issues (quota : UsageQuota) : (incrementUsage quota).Issues Bills :=
  Issues.update (fun _ => rfl) fun _ => .counts rfl rfl <| Nat.le_succ _

theorem charge_issues (sub : LoadedSubscription) (r : Recording) : (charge sub r).Issues Bills := by
  apply Issues.bind ((currentOrRotateQuota_issues sub r).mono fun _ => Arranges.bills)
  intro quota
  split
  case isTrue  => exact Issues.raise _
  case isFalse => exact incrementUsage_issues _

theorem recordRequest_issues (user : Uuid) (r : Recording) : (recordRequest user r).Issues Bills := by
  apply Issues.bind (Issues.select _)
  intro sub
  cases sub
  case some s => exact charge_issues ..
  case none   =>
    refine Issues.bind ?_ fun _ => charge_issues ..
    exact (enrollInFreePlan_issues ..).mono fun _ => Arranges.bills

theorem expireSubscription_issues (sub : LoadedSubscription) (o : Opening) (affected : Nat) :
    (expireSubscription sub o affected).Issues Arranges := by
  refine Issues.handle (Issues.atomic ?_) fun _ => Issues.pure _
  refine Issues.bind (Issues.save (fun _ => rfl) fun r => .ends rfl rfl rfl) fun _ => ?_
  exact Issues.bind (enrollInFreePlan_issues ..) fun _ => Issues.pure _

theorem expireSubscriptions_issues (openings : Uuid → Opening) (subs : List LoadedSubscription)
    (affected : Nat) : (expireSubscriptions openings subs affected).Issues Arranges := by
  induction subs generalizing affected
  case nil     => exact Issues.pure _
  case cons hi => exact Issues.bind (expireSubscription_issues ..) fun _ => hi _

theorem expireDueSubscriptions_issues (now : Instant) (openings : Uuid → Opening) :
    (expireDueSubscriptions now openings).Issues Arranges :=
  Issues.bind (Issues.select _) fun _ => expireSubscriptions_issues ..

end Issues

section Maintains

variable {I : Database → Database → Prop} [Std.Refl I] [IsTrans Database I]

theorem enrollInFreePlan_maintains (h : ∀ d w, Bills w → Accepts d w → I d (d.put w.new))
    (user : Uuid) (o : Opening) : (enrollInFreePlan user o).Maintains I :=
  (enrollInFreePlan_issues user o).maintains fun d w hw => h d w hw.bills

theorem subscribe_maintains (h : ∀ d w, Bills w → Accepts d w → I d (d.put w.new)) (user : Uuid)
    (planSlug : String) (canceledAt : Instant) (o : Opening) :
    (subscribe user planSlug canceledAt o).Maintains I :=
  (subscribe_issues user planSlug canceledAt o).maintains fun d w hw => h d w hw.bills

theorem cancel_maintains (h : ∀ d w, Bills w → Accepts d w → I d (d.put w.new)) (user : Uuid)
    (canceledAt : Instant) (o : Opening) : (cancel user canceledAt o).Maintains I :=
  (cancel_issues user canceledAt o).maintains fun d w hw => h d w hw.bills

theorem currentOrRotateQuota_maintains (h : ∀ d w, Bills w → Accepts d w → I d (d.put w.new))
    (sub : LoadedSubscription) (r : Recording) : (currentOrRotateQuota sub r).Maintains I :=
  (currentOrRotateQuota_issues sub r).maintains fun d w hw => h d w hw.bills

theorem recordRequest_maintains (h : ∀ d w, Bills w → Accepts d w → I d (d.put w.new))
    (user : Uuid) (r : Recording) : (recordRequest user r).Maintains I :=
  (recordRequest_issues user r).maintains h

theorem expireDueSubscriptions_maintains (h : ∀ d w, Bills w → Accepts d w → I d (d.put w.new))
    (now : Instant) (openings : Uuid → Opening) : (expireDueSubscriptions now openings).Maintains I :=
  (expireDueSubscriptions_issues now openings).maintains fun d w hw => h d w hw.bills

end Maintains

section Run

variable {d : Database} {user : Uuid} {s : LoadedSubscription} {r : Recording} {q : UsageQuota}

theorem incrementUsage_run (h : q ∈ d.quotas) :
    (incrementUsage q).run d =
      (.ok (), d.put <| .usageQuota { q with requestsUsed := q.requestsUsed + 1 }) :=
  run_update (Table.lookup_eq_some.mpr ⟨h, rfl⟩) rfl <| List.Subset.refl _

theorem advance_incrementUsage (h : q ∈ d.quotas) :
    Session.advance ⟨(incrementUsage q).program, []⟩ d =
      (d.put <| .usageQuota { q with requestsUsed := q.requestsUsed + 1 }, ⟨.ret (), []⟩) := by
  have hr := incrementUsage_run h
  rw [incrementUsage, Service.update] at hr ⊢
  rw [Session.advance_execute, hr]
  rfl

theorem currentOrRotateQuota_run (h : getCurrentQuota d s.id r.now = some q) :
    (currentOrRotateQuota s r).run d = (.ok q, d) := by
  rw [currentOrRotateQuota, run_bind, run_select, h]
  rfl

theorem charge_run (h : getCurrentQuota d s.id r.now = some q) :
    (charge s r).run d =
      if isOverLimit s.plan.requestQuota q.requestsUsed then
        (.error <| quotaExceeded s.plan q.requestsUsed, d)
      else
        (.ok (), d.put <| .usageQuota { q with requestsUsed := q.requestsUsed + 1 }) := by
  rw [charge, run_bind, currentOrRotateQuota_run h]
  by_cases h₁ : isOverLimit s.plan.requestQuota q.requestsUsed
  case pos => simp [h₁]
  case neg => simpa [h₁] using incrementUsage_run (getCurrentQuota_eq_some h).left

theorem recordRequest_run (h : getActiveSubscription d user = some s) :
    (recordRequest user r).run d = (charge s r).run d := by
  rw [recordRequest, run_bind, run_select, h]

variable {d' : Database}

theorem createSubscription_run_eq_ok {plan : Plan} {expires : Bool} {o : Opening}
    (h : (createSubscription user plan expires o).run d = (.ok s, d')) :
    Accepts d ⟨none, .subscription s.toSubscription⟩ ∧ s.userId = user ∧ s.status = .active ∧
    s.planId = plan.id ∧ s.plan = plan ∧
    ∃ q, d' = (d.put <| .subscription s.toSubscription).put (.usageQuota q) := by
  have ⟨(start, finish), d₁, h₁, h⟩ := run_bind_eq_ok.mp h
  have ⟨_, d₂, h₂, h⟩ := run_bind_eq_ok.mp h
  have ⟨periodEnd, d₃, h₃, h⟩ := run_bind_eq_ok.mp h
  have ⟨_, d₄, h₄, h⟩ := run_bind_eq_ok.mp h
  have ⟨_, h₁⟩ := run_ofExcept_eq_ok.mp h₁
  have ⟨ha, h₂⟩ := run_create_eq_ok h₂
  have ⟨_, h₃⟩ := run_ofExcept_eq_ok.mp h₃
  have ⟨_, h₄⟩ := run_create_eq_ok h₄
  subst h₁ h₂ h₃ h₄
  cases h
  exact ⟨ha, rfl, rfl, rfl, rfl, _, rfl⟩

-- The subscription that was just opened is the active one.
theorem enrollInFreePlan_run_eq_ok {o : Opening}
    (h : (enrollInFreePlan user o).run d = (.ok s, d')) : getActiveSubscription d' user = some s := by
  have ⟨plan, d₁, h₁, h⟩ := run_bind_eq_ok.mp <| run_atomic_eq_ok.mp h
  have ⟨hp, h₁⟩ := run_select_eq_ok.mp h₁
  subst h₁
  cases plan
  case none      => cases h
  case some plan =>
    have ⟨ha, hu, hs, hi, hp', q, hd⟩ := createSubscription_run_eq_ok h
    have hr : d'.subscriptions.rows = s.toSubscription :: d.subscriptions.rows :=
      hd ▸ Table.rows_put_of_not_mem (accepts_new ha)
    have hm : s.plan ∈ d'.plans := hd ▸ hp' ▸ (getPlanBySlug_eq_some hp).left
    have hl : loadPlan d' s.toSubscription = some s :=
      loadPlan_eq_some.mpr ⟨rfl, hm, by rw [hi, hp']⟩
    simp [getActiveSubscription, hr, hu, hs, hl]

theorem currentOrRotateQuota_run_eq_ok (h : (currentOrRotateQuota s r).run d = (.ok q, d')) :
    q ∈ d'.quotas ∧ q.subscriptionId = s.id ∧ d'.subscriptions = d.subscriptions ∧
    d'.plans = d.plans := by
  have ⟨quota, d₁, h₁, h⟩ := run_bind_eq_ok.mp h
  have ⟨hq, h₁⟩ := run_select_eq_ok.mp h₁
  subst h₁
  cases quota
  case some q' =>
    have ⟨hm, hi, _⟩ := getCurrentQuota_eq_some hq
    cases h
    exact ⟨hm, hi, rfl, rfl⟩
  case none =>
    have ⟨(start, finish), d₂, h₂, h⟩ := run_bind_eq_ok.mp h
    have ⟨_, d₃, h₃, h⟩ := run_bind_eq_ok.mp h
    have ⟨_, h₂⟩ := run_ofExcept_eq_ok.mp h₂
    have ⟨_, h₃⟩ := run_create_eq_ok h₃
    subst h₂ h₃
    cases h
    exact ⟨Table.mem_put_self .., rfl, rfl, rfl⟩

theorem charge_run_eq_ok (h : (charge s r).run d = (.ok (), d')) :
    ∃ d₁ q, (currentOrRotateQuota s r).run d = (.ok q, d₁) ∧
      ¬isOverLimit s.plan.requestQuota q.requestsUsed ∧
      d' = d₁.put (.usageQuota { q with requestsUsed := q.requestsUsed + 1 }) := by
  have ⟨q, d₁, h₁, h⟩ := run_bind_eq_ok.mp h
  split at h
  case isTrue    => cases h
  case isFalse hl =>
    have hq := (currentOrRotateQuota_run_eq_ok h₁).left
    exact ⟨d₁, q, h₁, hl, (congrArg Prod.snd <| (incrementUsage_run hq).symm.trans h).symm⟩

end Run
end SaasBackend
