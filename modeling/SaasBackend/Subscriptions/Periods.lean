import SaasBackend.Subscriptions.Baseline
import SaasBackend.Subscriptions.Switching

open Calendar ReadCommitted ReadCommitted.Session ReadCommitted.Service

namespace SaasBackend

open Service

-- What happens to a plan and its subscriptions: calls of the services, and edits of plans by an
-- administrator.
inductive Activity
  | call (c : Call)
  | savePlan (p : Plan)

namespace Activity

def service : Activity → Service Unit
  | call c      => c.service
  | savePlan p  => Service.update Database.plans .plan (.plan p.id) fun r => if r.id = p.id then p else r

end Activity

-- The quota lasts for as long as a period of the plan.
def UsageQuota.Spans (q : UsageQuota) (p : Plan) : Prop :=
  defaultPeriodWindow p q.periodStart = .ok (q.periodStart, q.periodEnd)

instance (q : UsageQuota) (p : Plan) : Decidable (q.Spans p) :=
  decidable_of_iff _ defaultPeriodWindow_iff.symm

-- Each quota of a subscription to the plan spans one period, so the usage starts afresh once it is over.
structure StartsAfresh (p : Plan) (d : Database) : Prop where
  spans   : ∀ q ∈ d.quotas, ∀ s ∈ d.subscriptions, s.id = q.subscriptionId → s.planId = p.id → q.Spans p
  afresh  : ∀ s ∈ d.subscriptions, s.planId = p.id → ∀ now q, getCurrentQuota d s.id now = some q →
              ∀ finish, defaultPeriodWindow p q.periodStart = .ok (q.periodStart, finish) → now < finish

-- Fifty years are just one period of the plan.
def IsFiftyYears (p : Plan) (start : Instant) : Prop :=
  ∃ finish, fiftyYearsLater start = .ok finish ∧ defaultPeriodWindow p start = .ok (start, finish)

instance (p : Plan) (start : Instant) : Decidable (IsFiftyYears p start) :=
  match h : fiftyYearsLater start with
  | .ok finish  =>
    decidable_of_iff (start = start ∧ start.addDays p.periodDays = some finish) <| by
      simp [IsFiftyYears, h, defaultPeriodWindow_iff]
  | .error _    => isFalse <| by simp [IsFiftyYears, h]

-- The subscription to the plan has no expiry, and was not there in the beginning.
def OpensPerpetual (p : Plan) (d : Database) : Row → Prop
  | .subscription s => s.planId = p.id ∧ s.expiresAt = none ∧ (∀ r ∈ d.subscriptions, r.id ≠ s.id) ∧
                        ¬IsFiftyYears p s.startedAt
  | _               => False

instance (p : Plan) (d : Database) : (r : Row) → Decidable (OpensPerpetual p d r)
  | .subscription _ => inferInstanceAs <| Decidable (_ ∧ _ ∧ _ ∧ ¬_)
  | .user _ | .plan _ | .usageQuota _ | .verificationToken _ | .resetToken _ | .session _ | .apiKey _
  | .requestLog _ | .dailyUsage _ | .outstandingToken _ | .blacklistedToken _ => isFalse id

-- What remains the same about a subscription.
def Subscription.terms (s : Subscription) : Uuid × Uuid × Instant × Option Instant :=
  (s.id, s.planId, s.startedAt, s.expiresAt)

-- The quota with which a subscription starts if it does not expire.
structure IsPerpetualQuota (s : Subscription) (q : UsageQuota) : Prop where
  expiresAt : s.expiresAt = none
  start     : q.periodStart = s.startedAt
  finish    : fiftyYearsLater s.startedAt = .ok q.periodEnd

-- The periods of all quotas of subscriptions to the plan, where `E` are the subscriptions that exist
-- in the beginning.
structure Periods (p : Plan) (E : Uuid → Prop) (d : Database) : Prop where
  plan  : ∀ r ∈ d.plans, r.id = p.id → r.durationDays = p.durationDays
  known : ∀ id, E id → ∃ s ∈ d.subscriptions, s.id = id
  spans : ∀ q ∈ d.quotas, ∃ s ∈ d.subscriptions, s.id = q.subscriptionId ∧
            (s.planId = p.id → q.Spans p ∨ IsPerpetualQuota s q ∧ ¬E s.id)

structure KeepsPeriods (p : Plan) (E : Uuid → Prop) (d d' : Database) : Prop where
  persist : ∀ s ∈ d.subscriptions, ∃ s' ∈ d'.subscriptions, s'.terms = s.terms
  periods : Periods p E d → Periods p E d'

-- A subscription and the quota with which it starts.
def OpensPeriod (p : Plan) (ws : List Write) : Prop :=
  ∃ s q, ws = [⟨none, .subscription s⟩, ⟨none, .usageQuota q⟩] ∧ q.subscriptionId = s.id ∧
    (s.planId = p.id → q.Spans p ∨ IsPerpetualQuota s q)

theorem Subscription.terms_eq {s s' : Subscription} :
    s'.terms = s.terms ↔ s'.id = s.id ∧ s'.planId = s.planId ∧ s'.startedAt = s.startedAt ∧
      s'.expiresAt = s.expiresAt := by
  simp [terms]

theorem IsPerpetualQuota.of_terms {s s' : Subscription} {q : UsageQuota} (h : IsPerpetualQuota s q)
    (ht : s'.terms = s.terms) : IsPerpetualQuota s' q := by
  have ⟨_, _, hs, he⟩ := Subscription.terms_eq.mp ht
  exact ⟨he.trans h.expiresAt, hs ▸ h.start, hs ▸ h.finish⟩

theorem defaultPeriodWindow_congr {p p' : Plan} (h : p'.durationDays = p.durationDays) :
    defaultPeriodWindow p' = defaultPeriodWindow p := by
  have hd : p'.periodDays = p.periodDays := by rw [Plan.periodDays, Plan.periodDays, h]
  rw [defaultPeriodWindow_eq]
  funext t
  simp only [hd]

namespace KeepsPeriods

variable {p : Plan} {E : Uuid → Prop} {d d' : Database}

instance : Std.Refl (KeepsPeriods p E) where
  refl _ := ⟨fun s h => ⟨s, h, rfl⟩, id⟩

instance : IsTrans Database (KeepsPeriods p E) where
  trans _ _ _ h₁ h₂ := {
    persist := fun s h =>
      have ⟨_, h, ht⟩ := h₁.persist s h
      have ⟨s', h, ht'⟩ := h₂.persist _ h
      ⟨s', h, ht'.trans ht⟩
    periods := h₂.periods ∘ h₁.periods
  }

-- The periods do not depend on anything else than what is known about the subscriptions.
theorem of_persist (hs : ∀ s ∈ d.subscriptions, ∃ s' ∈ d'.subscriptions, s'.terms = s.terms)
    (hp : Periods p E d → ∀ r ∈ d'.plans, r.id = p.id → r.durationDays = p.durationDays)
    (hq : Periods p E d → ∀ q ∈ d'.quotas, ∃ s ∈ d.subscriptions, s.id = q.subscriptionId ∧
      (s.planId = p.id → q.Spans p ∨ IsPerpetualQuota s q ∧ ¬E s.id)) : KeepsPeriods p E d d' where
  persist   := hs
  periods h := {
    plan  := hp h
    known := fun id hi =>
      have ⟨s, hm, he⟩ := h.known id hi
      have ⟨s', hm', ht⟩ := hs s hm
      ⟨s', hm', (Subscription.terms_eq.mp ht).left.trans he⟩
    spans := fun q hm => by
      have ⟨s, hm, hi, hc⟩ := hq h q hm
      have ⟨s', hm', ht⟩ := hs s hm
      have ⟨hi', hp', _⟩ := Subscription.terms_eq.mp ht
      refine ⟨s', hm', hi'.trans hi, fun hp => (hc <| hp' ▸ hp).imp_right fun ⟨hq, hn⟩ => ?_⟩
      exact ⟨hq.of_terms ht, hi' ▸ hn⟩
  }

section Writes

variable {s s' : Subscription} {q q' : UsageQuota} {r r' : Plan}

theorem of_open (ha : Accepts d (⟨none, .subscription s⟩ : Write)) :
    KeepsPeriods p E d (d.put <| .subscription s) :=
  of_persist (fun s' h => ⟨s', Table.mem_put_of_ne h <| accepts_new ha s' h, rfl⟩)
    (fun h => h.plan) (fun h => h.spans)

theorem of_end (ha : Accepts d (⟨some <| .subscription s, .subscription s'⟩ : Write))
    (ht : s'.terms = s.terms) : KeepsPeriods p E d (d.put <| .subscription s') := by
  have ⟨hm, hk⟩ := accepts_old ha
  refine of_persist (fun r hr => ?_) (fun h => h.plan) (fun h => h.spans)
  by_cases h : Entity.key r = Entity.key s'
  case pos => exact ⟨s', Table.mem_put_self .., by rw [Table.eq_of_key hr hm (h.trans hk.symm), ht]⟩
  case neg => exact ⟨r, Table.mem_put_of_ne hr h, rfl⟩

theorem of_quota (h : Periods p E d → ∃ s ∈ d.subscriptions, s.id = q.subscriptionId ∧
      (s.planId = p.id → q.Spans p ∨ IsPerpetualQuota s q ∧ ¬E s.id)) :
    KeepsPeriods p E d (d.put <| .usageQuota q) := by
  refine of_persist (fun s h => ⟨s, h, rfl⟩) (fun h => h.plan) fun hp q' hq' => ?_
  cases Table.mem_put.mp hq'
  case inl he => exact he ▸ h hp
  case inr hm => exact hp.spans q' hm.left

theorem of_count (hm : q ∈ d.quotas) (n : Nat) :
    KeepsPeriods p E d (d.put <| .usageQuota { q with requestsUsed := n }) := by
  refine of_quota fun h => ?_
  have ⟨s, hs, hi, hc⟩ := h.spans q hm
  exact ⟨s, hs, hi, fun hp => (hc hp).imp_right fun ⟨hq, hn⟩ => ⟨⟨hq.expiresAt, hq.start, hq.finish⟩, hn⟩⟩

theorem of_plan (h : Periods p E d → r.id = p.id → r.durationDays = p.durationDays) :
    KeepsPeriods p E d (d.put <| .plan r) := by
  refine of_persist (fun s h => ⟨s, h, rfl⟩) (fun hp r' hr' => ?_) (fun h => h.spans)
  cases Table.mem_put.mp hr'
  case inl he => exact he ▸ h hp
  case inr hm => exact hp.plan r' hm.left

end Writes

theorem of_opens {ws : List Write} (h : OpensPeriod p ws) (hv : Valid d ws) :
    KeepsPeriods p E d (Store.applyAll d ws) := by
  obtain ⟨s, q, hw, hq, hs⟩ := h
  subst hw
  have h₁ : KeepsPeriods p E d (d.put <| .subscription s) := of_open hv.left
  refine ⟨h₁.persist, fun h => ?_⟩
  have hn : ¬E s.id := by
    intro he
    have ⟨r, hr, hi⟩ := h.known s.id he
    exact accepts_new hv.left r hr <| congrArg Key.subscription hi
  apply KeepsPeriods.periods (d := d.put <| .subscription s) (of_quota fun _ => ?_) (h₁.periods h)
  exact ⟨s, Table.mem_put_self .., hq.symm, fun hp => (hs hp).imp_right fun hq => ⟨hq, hn⟩⟩

-- A subscription is brought to an end before another one is opened.
theorem of_replaces {s s' : Subscription} {ws : List Write} (ht : s'.terms = s.terms)
    (h : OpensPeriod p ws) (hv : Valid d (⟨some <| .subscription s, .subscription s'⟩ :: ws)) :
    KeepsPeriods p E d (Store.applyAll d (⟨some <| .subscription s, .subscription s'⟩ :: ws)) := by
  have h₁ : KeepsPeriods p E d (d.put <| .subscription s') := of_end hv.left ht
  have h₂ : KeepsPeriods p E (d.put <| .subscription s') (Store.applyAll (d.put <| .subscription s') ws) :=
    of_opens h hv.right
  exact Trans.trans h₁ h₂

end KeepsPeriods

section Keeps

variable {p plan : Plan} {E : Uuid → Prop} {d₀ d : Database} {fs : List (List Write)} {f : List Write}

-- What is known about a subscription that was loaded: there is one with the same terms, and its plan is
-- not outdated.
def IsLoaded (p : Plan) (s : LoadedSubscription) (d : Database) : Prop :=
  (∃ r ∈ d.subscriptions, r.terms = s.terms) ∧
  (s.planId = p.id → s.plan.durationDays = p.durationDays)

theorem IsLoaded.keeps {s : LoadedSubscription} {d' : Database} (hs : IsLoaded p s d)
    (h : KeepsPeriods p E d d') : IsLoaded p s d' :=
  have ⟨⟨r, hr, ht⟩, hp⟩ := hs
  have ⟨r', hr', ht'⟩ := h.persist r hr
  ⟨⟨r', hr', ht'.trans ht⟩, hp⟩

theorem Periods.isLoaded (h : Periods p E d) {s : LoadedSubscription} (hs : s.toSubscription ∈ d.subscriptions)
    (hp : s.plan ∈ d.plans) (hi : s.plan.id = s.planId) : IsLoaded p s d :=
  ⟨⟨_, hs, rfl⟩, fun he => h.plan s.plan hp <| hi.trans he⟩

theorem createSubscription_opensPeriod (hp : plan.id = p.id → plan.durationDays = p.durationDays)
    (user : Uuid) (expires : Bool) (o : Opening) :
    (createSubscription user plan expires o).Keeps (KeepsPeriods p E) d₀
      (fun s fs' _ => s.planId = plan.id ∧ s.plan = plan ∧ ∃ q,
        OpensPeriod p [⟨none, .subscription s.toSubscription⟩, ⟨none, .usageQuota q⟩] ∧
        fs' = (f ++ [⟨none, .subscription s.toSubscription⟩, ⟨none, .usageQuota q⟩]) :: fs)
      (f :: fs) d := by
  apply (createSubscription_keeps_opened ..).mono
  rintro s fs' _ _ ⟨finish, periodEnd, hs, hw, he, hfs⟩
  subst hs
  refine ⟨rfl, rfl, openedQuota o periodEnd, ⟨_, _, rfl, rfl, fun hi => ?_⟩, hfs⟩
  have hw : defaultPeriodWindow p o.start = .ok (o.start, finish) := defaultPeriodWindow_congr (hp hi) ▸ hw
  cases expires
  case true   => cases he; exact .inl hw
  case false  => exact .inr ⟨rfl, rfl, he⟩

theorem enrollInFreePlan_opensPeriod (h : Periods p E d)
    (hf : ∀ d', Valid d' (uncommitted (f :: fs)) →
      KeepsPeriods p E d' (Store.applyAll d' <| uncommitted (f :: fs))) (user : Uuid) (o : Opening) :
    (enrollInFreePlan user o).Keeps (KeepsPeriods p E) d₀
      (fun _ fs' _ => ∃ ws, OpensPeriod p ws ∧ fs' = (f ++ ws) :: fs) (f :: fs) d := by
  apply Keeps.atomic_inner
  apply Keeps.bind
  apply Keeps.select
  intro d₁ hd hv
  simp only [uncommitted_cons ([] : List Write), List.append_nil] at hv ⊢
  split
  case h_1          => exact Keeps.raise
  case h_2 plan hp  =>
    have hp := ((hf d₁ hv).periods <| hd.periods h).plan plan (getPlanBySlug_eq_some hp).left
    refine (createSubscription_opensPeriod hp _ _ _).mono ?_
    rintro s fs' _ _ ⟨_, _, q, ho, hfs⟩ g f' fs'' hfs'
    exact ⟨_, ho, by simp_all⟩

theorem enrollInFreePlan_keepsPeriods (h : Periods p E d) (user : Uuid) (o : Opening) :
    (enrollInFreePlan user o).Keeps (KeepsPeriods p E) d₀ (fun s fs d => fs = [] ∧ IsLoaded p s d) [] d := by
  apply Keeps.atomic
  apply Keeps.bind
  apply Keeps.select
  intro d₁ hd _
  split
  case h_1          => exact Keeps.raise
  case h_2 plan hp  =>
    have hp := (hd.periods h).plan plan (getPlanBySlug_eq_some hp).left
    refine (createSubscription_opensPeriod hp _ _ _).mono ?_
    rintro s fs _ _ ⟨hi, hs, q, ho, hfs⟩ f hf d' _ hv
    have hf : f = [⟨none, .subscription s.toSubscription⟩, ⟨none, .usageQuota q⟩] := by simp_all
    rw [hf] at hv ⊢
    refine ⟨.of_opens ho hv, rfl, ⟨_, Table.mem_put_self .., rfl⟩, fun he => ?_⟩
    rw [hs]
    exact hp <| hi.symm.trans he

-- The end of one subscription and the opening of another one, in the same transaction.
theorem replace_keepsPeriods {α : Type} {id : Uuid} {g : Subscription → Subscription} {s : Service α}
    (hg : ∀ r, (g r).terms = r.terms)
    (hs : ∀ r d', KeepsPeriods p E d d' → s.Keeps (KeepsPeriods p E) d₀
      (fun _ fs' _ => ∃ ws, OpensPeriod p ws ∧ fs' = [⟨some <| .subscription r, .subscription (g r)⟩ :: ws])
      [[⟨some <| .subscription r, .subscription (g r)⟩]] d') :
    (do save Database.subscriptions .subscription (.subscription id) g; s).Keeps (KeepsPeriods p E) d₀
      (fun _ fs _ => ∀ f, fs = [f] → ∀ d', Valid d' f → KeepsPeriods p E d' (Store.applyAll d' f)) [[]] d := by
  apply Keeps.bind
  apply Keeps.save (fun r => congrArg Key.subscription (Subscription.terms_eq.mp (hg r)).left)
  intro d' r hd _ _
  refine (hs r d' hd).mono fun _ fs _ _ ho f hf d' hv => ?_
  obtain ⟨ws, hw, hfs⟩ := ho
  have hf : f = ⟨some <| .subscription r, .subscription (g r)⟩ :: ws := by simp_all
  rw [hf] at hv ⊢
  exact .of_replaces (hg r) hw hv

-- What is written at the end of a subscription does not affect any period.
theorem view_keepsPeriods {r : Subscription} {g : Subscription → Subscription}
    (hg : ∀ r, (g r).terms = r.terms) (d' : Database)
    (hv : Valid d' <| uncommitted [[⟨some <| .subscription r, .subscription (g r)⟩]]) :
    KeepsPeriods p E d'
      (Store.applyAll d' <| uncommitted [[⟨some <| .subscription r, .subscription (g r)⟩]]) :=
  .of_end (Valid.singleton.mp hv) (hg r)

theorem subscribe_keepsPeriods (h : Periods p E d) (user : Uuid) (planSlug : String)
    (canceledAt : Instant) (o : Opening) :
    (subscribe user planSlug canceledAt o).Keeps (KeepsPeriods p E) d₀ (fun _ _ _ => True) [] d := by
  apply Keeps.atomic
  apply Keeps.bind
  apply Keeps.select
  intro d₁ hd _
  split
  case h_1          => exact Keeps.raise
  case h_2 plan hp  =>
    have hp := (hd.periods h).plan plan (getPlanBySlug_eq_some hp).left
    apply Keeps.bind
    apply Keeps.select
    intro d₂ _ _
    split
    case h_1 =>
      refine (createSubscription_opensPeriod hp _ _ _).mono ?_
      rintro s fs _ _ ⟨_, _, q, ho, hfs⟩ f hf d' _ hv
      have hf : f = [⟨none, .subscription s.toSubscription⟩, ⟨none, .usageQuota q⟩] := by simp_all
      rw [hf] at hv ⊢
      exact ⟨.of_opens ho hv, trivial⟩
    case h_2 =>
      split
      case isTrue  => exact Keeps.raise
      case isFalse =>
        have ht : ∀ r : Subscription, (canceled canceledAt r).terms = r.terms := fun _ => rfl
        refine (replace_keepsPeriods ht fun r d' _ => ?_).mono ?_
        · refine (createSubscription_opensPeriod hp _ _ _).mono ?_
          rintro _ fs _ _ ⟨_, _, q, ho, hfs⟩
          exact ⟨_, ho, hfs⟩
        · exact fun _ _ _ _ h f hf d' _ hv => ⟨h f hf d' hv, trivial⟩

theorem cancel_keepsPeriods (h : Periods p E d) (user : Uuid) (canceledAt : Instant) (o : Opening) :
    (cancel user canceledAt o).Keeps (KeepsPeriods p E) d₀ (fun _ _ _ => True) [] d := by
  apply Keeps.atomic
  apply Keeps.bind
  apply Keeps.select
  intro d₁ hd _
  split
  case h_1 => exact Keeps.raise
  case h_2 =>
    have ht : ∀ r : Subscription, (canceledForGood canceledAt r).terms = r.terms := fun _ => rfl
    refine (replace_keepsPeriods ht fun r d' hd' => ?_).mono ?_
    · exact enrollInFreePlan_opensPeriod (hd'.periods <| hd.periods h) (view_keepsPeriods ht) user o
    · exact fun _ _ _ _ h f hf d' _ hv => ⟨h f hf d' hv, trivial⟩

theorem currentOrRotateQuota_keepsPeriods {s : LoadedSubscription} (hs : IsLoaded p s d) (r : Recording) :
    (currentOrRotateQuota s r).Keeps (KeepsPeriods p E) d₀ (fun _ fs _ => fs = []) [] d := by
  apply Keeps.bind
  apply Keeps.select
  intro d₁ hd _
  split
  case h_1 => exact Keeps.pure rfl
  case h_2 =>
    apply Keeps.bind
    apply Keeps.ofExcept
    rintro ⟨start, finish⟩ hw
    obtain ⟨he, _⟩ := defaultPeriodWindow_eq_ok hw
    subst he
    refine Keeps.bind <| Keeps.create_commit fun d₂ hd' _ => ⟨.of_quota fun _ => ?_, Keeps.pure rfl⟩
    obtain ⟨⟨s', hm, ht⟩, hp⟩ := (hs.keeps hd).keeps hd'
    obtain ⟨hi, hp', _⟩ := Subscription.terms_eq.mp ht
    refine ⟨s', hm, hi, fun he => .inl ?_⟩
    have hw : defaultPeriodWindow p r.start = .ok (r.start, finish) :=
      defaultPeriodWindow_congr (hp <| hp'.symm.trans he) ▸ hw
    exact hw

theorem charge_keepsPeriods {s : LoadedSubscription} (hs : IsLoaded p s d) (r : Recording) :
    (charge s r).Keeps (KeepsPeriods p E) d₀ (fun _ _ _ => True) [] d := by
  apply Keeps.bind
  apply (currentOrRotateQuota_keepsPeriods hs r).mono
  intro q _ d₁ _ hfs
  rw [hfs]
  split
  case isTrue  => exact Keeps.raise
  case isFalse =>
    refine Keeps.update_commit (fun _ => rfl) fun d₂ w _ hw _ => ⟨?_, trivial⟩
    cases hw
    case inl hw => rw [hw]; exact Std.Refl.refl d₂
    case inr hw =>
      obtain ⟨q, hq, hw⟩ := hw
      rw [hw]
      exact .of_count hq _

theorem recordRequest_keepsPeriods (h : Periods p E d) (user : Uuid) (r : Recording) :
    (recordRequest user r).Keeps (KeepsPeriods p E) d₀ (fun _ _ _ => True) [] d := by
  apply Keeps.bind
  apply Keeps.select
  intro d₁ hd _
  have h₁ := hd.periods h
  split
  case h_1 s hs =>
    obtain ⟨hm, _, _, hp, hi⟩ := getActiveSubscription_eq_some hs
    exact charge_keepsPeriods (h₁.isLoaded hm hp hi) r
  case h_2 =>
    apply Keeps.bind
    apply (enrollInFreePlan_keepsPeriods h₁ _ _).mono
    rintro s _ d₂ _ ⟨hfs, hs⟩
    rw [hfs]
    exact charge_keepsPeriods hs r

theorem expireSubscriptions_keepsPeriods (h₀ : Periods p E d₀) (h : Periods p E d)
    (openings : Uuid → Opening) (subs : List LoadedSubscription) (affected : Nat) :
    (expireSubscriptions openings subs affected).Keeps (KeepsPeriods p E) d₀ (fun _ _ _ => True) [] d := by
  induction subs generalizing affected d
  case nil          => exact Keeps.pure trivial
  case cons sub _ hi =>
    refine Keeps.bind <| Keeps.mono (Q := fun _ fs _ => fs = []) ?_ fun _ fs d' hd hfs => ?_
    · refine Keeps.handle (Keeps.atomic ?_) fun _ _ => Keeps.pure rfl
      have ht : ∀ r : Subscription, { r with status := .expired }.terms = r.terms := fun _ => rfl
      simp only [←bind_assoc]
      refine Keeps.bind <| (replace_keepsPeriods ht fun r d' hd' => ?_).mono fun _ _ _ _ h => ?_
      · exact enrollInFreePlan_opensPeriod (hd'.periods h) (view_keepsPeriods ht) _ _
      · exact Keeps.pure fun f hf d' _ hv => ⟨h f hf d' hv, trivial⟩
    · rw [hfs]
      exact hi (hd.periods h₀) _

theorem setPlanActive_keepsPeriods (plan : Uuid) (isActive : Bool) :
    (setPlanActive plan isActive).Keeps (KeepsPeriods p E) d₀ (fun _ _ _ => True) [] d := by
  refine Keeps.update_commit (fun _ => rfl) fun d₁ w _ hw _ => ⟨?_, trivial⟩
  cases hw
  case inl hw => rw [hw]; exact Std.Refl.refl d₁
  case inr hw =>
    have ⟨r, hr, hw⟩ := hw
    rw [hw]
    exact .of_plan fun h => h.plan r hr

theorem Call.service_keepsPeriods (h : Periods p E d) (c : Call) :
    c.service.Keeps (KeepsPeriods p E) d (fun _ _ _ => True) [] d := by
  have hb : ∀ {α} {s : Service α}, s.Keeps (KeepsPeriods p E) d (fun _ _ _ => True) [] d →
      (do let _ ← s : Service Unit).Keeps (KeepsPeriods p E) d (fun _ _ _ => True) [] d :=
    fun h => Keeps.bind <| h.mono fun _ _ _ _ _ => Keeps.pure trivial
  cases c
  case subscribe              => exact hb <| subscribe_keepsPeriods h ..
  case cancel                 => exact hb <| cancel_keepsPeriods h ..
  case enrollInFreePlan       => exact hb <| (enrollInFreePlan_keepsPeriods h _ _).mono fun _ _ _ _ _ => trivial
  case recordRequest          => exact recordRequest_keepsPeriods h ..
  case setPlanActive          => exact setPlanActive_keepsPeriods ..
  case expireDueSubscriptions =>
    refine hb <| Keeps.bind <| Keeps.select fun d₁ hd _ => Keeps.rebase ?_
    exact expireSubscriptions_keepsPeriods (hd.periods h) (hd.periods h) ..

theorem Activity.service_keepsPeriods (h : Periods p E d) {a : Activity}
    (hp : ∀ r, a = .savePlan r → r.id = p.id → r.durationDays = p.durationDays) :
    a.service.Keeps (KeepsPeriods p E) d (fun _ _ _ => True) [] d := by
  cases a
  case call c     => exact c.service_keepsPeriods h
  case savePlan r =>
    have hk : ∀ r' : Plan, Entity.key (if r'.id = r.id then r else r') = Entity.key r' := by
      intro r'
      split
      case isTrue h   => exact congrArg Key.plan h.symm
      case isFalse    => rfl
    refine Keeps.update_commit hk fun d₁ w _ hw _ => ⟨?_, trivial⟩
    cases hw
    case inl hw => rw [hw]; exact Std.Refl.refl d₁
    case inr hw =>
      obtain ⟨r', hr, hw⟩ := hw
      rw [hw]
      refine .of_plan fun h => ?_
      split
      case isTrue   => exact hp r rfl
      case isFalse  => exact h.plan r' hr

end Keeps

section Runs

variable {ι : Type} [Fintype ι] [DecidableEq ι]

theorem Periods.start {p : Plan} {d : Database} (hp : p ∈ d.plans)
    (hr : ∀ q ∈ d.quotas, ∃ s ∈ d.subscriptions, s.id = q.subscriptionId) (h : StartsAfresh p d) :
    Periods p (fun id => ∃ s ∈ d.subscriptions, s.id = id) d where
  plan _ hm hi  := congrArg Plan.durationDays <| Table.eq_of_key hm hp <| congrArg Key.plan hi
  known _       := id
  spans q hm    :=
    have ⟨s, hs, hi⟩ := hr q hm
    ⟨s, hs, hi, fun hp => .inl <| h.spans q hm s hs hi hp⟩

theorem StartsAfresh.of_spans {p : Plan} {d : Database} (h : ∀ q ∈ d.quotas, ∀ s ∈ d.subscriptions,
    s.id = q.subscriptionId → s.planId = p.id → q.Spans p) : StartsAfresh p d where
  spans   := h
  afresh  := by
    intro s hs hp now q hq finish hw
    have ⟨hm, hi, hc⟩ := getCurrentQuota_eq_some hq
    cases (h q hm s hs hi.symm hp).symm.trans hw
    exact (of_decide_eq_true hc).right

-- Without a perpetual subscription, there is no other quota than those which span one period.
theorem Periods.startsAfresh {p : Plan} {d₀ d : Database}
    (h : Periods p (fun id => ∃ s ∈ d₀.subscriptions, s.id = id) d)
    (hn : ∀ s ∈ d.subscriptions, ¬OpensPerpetual p d₀ (.subscription s)) : StartsAfresh p d := by
  apply StartsAfresh.of_spans
  intro q hq s hs hi hp
  have ⟨s', hs', hi', hc⟩ := h.spans q hq
  have he : s' = s := Subscription.eq_of_id hs' hs <| hi'.trans hi.symm
  subst he
  cases hc hp
  case inl hc => exact hc
  case inr hc =>
    have ⟨hq, he⟩ := hc
    by_contra hf
    refine hn s' hs ⟨hp, hq.expiresAt, fun r hr hi => he ⟨r, hr, hi⟩, ?_⟩
    rintro ⟨finish, hl, hw⟩
    cases hl.symm.trans hq.finish
    exact hf <| by rw [UsageQuota.Spans, hq.start, hw]

-- A subscription without an expiry starts with a quota for fifty years. As long as no subscription of
-- this kind is opened, all quotas of a plan span one period, however they come about.
theorem quotas_start_afresh (d : Database) (p : Plan) (acts : ι → Activity) (as : List (Action ι Exn))
    (hp : p ∈ d.plans) (hr : ∀ q ∈ d.quotas, ∃ s ∈ d.subscriptions, s.id = q.subscriptionId)
    (he : ∀ i r, acts i = .savePlan r → r.id = p.id → r.durationDays = p.durationDays)
    (hd : StartsAfresh p d)
    (hc : System.Along (fun σ a => ∀ w ∈ σ.writes a, ¬OpensPerpetual p d w.new)
      (System.start d fun i => (acts i).service) as) :
    StartsAfresh p ((System.start d fun i => (acts i).service).run as).db := by
  have h := Periods.start hp hr hd
  have hk := System.run_related (fun i => (acts i).service_keepsPeriods h (he i)) [] as
  apply (hk.periods h).startsAfresh
  refine System.run_writes (P := fun d' => ∀ s ∈ d'.subscriptions, ¬OpensPerpetual p d (.subscription s))
    hc ?_ (fun i _ hw => (List.not_mem_nil hw).elim) ?_
  · intro d' w hw h s hs
    cases Database.mem_rows_put.mp <| Database.subscription_mem_rows.mpr hs
    case inl he => exact he ▸ hw
    case inr hm => exact h s <| Database.subscription_mem_rows.mp hm.left
  · exact fun s hs hn => hn.right.right.left s hs rfl

section Example

def exampleActivity (planSlug : String) (_ : Fin 1) : Activity :=
  .call <| .subscribe 1 planSlug (.midnight 739000) (openingOn 739000)

theorem pro_quota_starts_afresh :
    StartsAfresh Seed.pro
      ((System.start Seed.database fun i => (exampleActivity PlanSlug.pro i).service).run
        (.replicate 6 (.go 0))).db :=
  quotas_start_afresh Seed.database Seed.pro (exampleActivity PlanSlug.pro) (.replicate 6 (.go 0))
    (Table.mem_put_of_ne (Table.mem_put_self ..) <| by decide) (by decide) (by simp [exampleActivity])
    (.of_spans <| by decide) (by decide +kernel)

-- The quota of the free plan lasts for fifty years.
theorem free_quota_does_not_start_afresh :
    StartsAfresh Seed.free Seed.database ∧
    ¬StartsAfresh Seed.free
      ((System.start Seed.database fun i => (exampleActivity PlanSlug.free i).service).run
        (.replicate 6 (.go 0))).db := by
  refine ⟨.of_spans <| by decide, fun h => ?_⟩
  exact absurd h.spans <| by decide +kernel

end Example
end Runs
end SaasBackend
