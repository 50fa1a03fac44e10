import SaasBackend.ReadCommitted.Runs
import SaasBackend.Subscriptions.Periods

open Calendar ReadCommitted ReadCommitted.Service

namespace SaasBackend

open Service

-- The period of the quota lies inside of the life of the subscription.
def UsageQuota.IsWithin (q : UsageQuota) (s : Subscription) : Prop :=
  ∀ e, s.expiresAt = some e → s.startedAt ≤ q.periodStart ∧ q.periodEnd ≤ e

instance (q : UsageQuota) (s : Subscription) : Decidable (q.IsWithin s) :=
  inferInstanceAs <| Decidable (∀ e ∈ s.expiresAt, _)

-- All quotas lie inside of the lives of their subscriptions, and the first one lasts for the whole life.
structure Life (t : Instant) (d : Database) : Prop where
  started : ∀ s ∈ d.subscriptions, s.startedAt ≤ t
  covered : ∀ s ∈ d.subscriptions, ∀ e, s.expiresAt = some e →
              ∃ q ∈ d.quotas, q.subscriptionId = s.id ∧ q.periodStart = s.startedAt ∧ q.periodEnd = e
  inside  : ∀ q ∈ d.quotas, ∃ s ∈ d.subscriptions, s.id = q.subscriptionId ∧ q.IsWithin s

-- The clock is not read by the call before `t`, and not after `t'`.
def Call.ReadsClock (t t' : Instant) : Call → Prop
  | subscribe _ _ canceledAt o      => t ≤ canceledAt ∧ canceledAt ≤ o.start ∧ o.start ≤ t'
  | cancel _ canceledAt o           => t ≤ canceledAt ∧ canceledAt ≤ o.start ∧ o.start ≤ t'
  | enrollInFreePlan _ o            => t ≤ o.start ∧ o.start ≤ t'
  | recordRequest _ r               => t ≤ r.opening.start ∧ r.opening.start ≤ r.now ∧ r.now ≤ r.start ∧ r.start ≤ t'
  | expireDueSubscriptions now os   => t ≤ now ∧ ∀ id, now ≤ (os id).start ∧ (os id).start ≤ t'
  | setPlanActive _ _               => t ≤ t'

-- Requests are only recorded while the period that was paid for is not over.
def Call.InForce (d : Database) : Call → Prop
  | recordRequest user r  => ∀ s, getActiveSubscription d user = some s → ∀ e, s.expiresAt = some e → r.now < e
  | _                     => True

-- The tables, and what the clock reads.
structure Timeline where
  db  : Database
  now : Instant

-- The next call, and what the clock reads once it has ended.
def Timeline.step (σ : Timeline) (c : Call × Instant) : Timeline where
  db  := (c.1.service.run σ.db).2
  now := c.2

namespace Life

variable {t t' : Instant} {d d' : Database}

theorem mono (h : Life t d) (ht : t ≤ t') : Life t' d where
  started s hs  := (h.started s hs).trans ht
  covered       := h.covered
  inside        := h.inside

theorem of_empty (hs : ∀ s, s ∉ d.subscriptions) (hq : ∀ q, q ∉ d.quotas) : Life t d where
  started s h := (hs s h).elim
  covered s h := (hs s h).elim
  inside q h  := (hq q h).elim

theorem of_opened (h : Life t d) {user : Uuid} {plan : Plan} {expires : Bool} {o : Opening}
    {finish periodEnd : Instant} (ho : HasOpened user plan expires o finish periodEnd d d')
    (ht : o.start ≤ t) : Life t d' := by
  have he : ∀ e, (openedSubscription user plan expires o finish).expiresAt = some e → periodEnd = e := by
    intro e he
    have hp := ho.period
    cases expires
    case true   => cases he; cases hp; rfl
    case false  => cases he
  constructor
  case started =>
    intro s hs
    cases (ho.mem_subscriptions s).mp hs
    case inl hs => exact hs ▸ ht
    case inr hs => exact h.started s hs
  case covered =>
    intro s hs e hse
    cases (ho.mem_subscriptions s).mp hs
    case inl hs =>
      subst hs
      exact ⟨openedQuota o periodEnd, (ho.mem_quotas _).mpr <| .inl rfl, rfl, rfl, he e hse⟩
    case inr hs =>
      obtain ⟨q, hq, hc⟩ := h.covered s hs e hse
      exact ⟨q, (ho.mem_quotas q).mpr <| .inr hq, hc⟩
  case inside =>
    intro q hq
    cases (ho.mem_quotas q).mp hq
    case inl hq =>
      refine ⟨_, (ho.mem_subscriptions _).mpr <| .inl rfl, hq ▸ rfl, fun e hse => ?_⟩
      exact ⟨hq ▸ le_refl _, hq ▸ (he e hse).le⟩
    case inr hq =>
      obtain ⟨s, hs, hi⟩ := h.inside q hq
      exact ⟨s, (ho.mem_subscriptions s).mpr <| .inr hs, hi⟩

-- The end of a subscription does not change its terms.
theorem of_end (h : Life t d) {r r' : Subscription} (hr : r ∈ d.subscriptions) (ht : r'.terms = r.terms) :
    Life t (d.put <| .subscription r') := by
  have hk : Entity.key r = Entity.key r' := congrArg Key.subscription (Subscription.terms_eq.mp ht).left.symm
  have hold : ∀ s ∈ (d.put <| .subscription r').subscriptions, ∃ s₀ ∈ d.subscriptions, s.terms = s₀.terms := by
    intro s hs
    cases Table.mem_put.mp hs
    case inl he => exact ⟨r, hr, he ▸ ht⟩
    case inr hm => exact ⟨s, hm.left, rfl⟩
  have hnew : ∀ s ∈ d.subscriptions, ∃ s' ∈ (d.put <| .subscription r').subscriptions, s'.terms = s.terms := by
    intro s hs
    by_cases he : Entity.key s = Entity.key r'
    case pos => exact ⟨r', Table.mem_put_self .., by rw [Table.eq_of_key hs hr (he.trans hk.symm), ht]⟩
    case neg => exact ⟨s, Table.mem_put_of_ne hs he, rfl⟩
  constructor
  case started =>
    intro s hs
    obtain ⟨s₀, hs₀, ht⟩ := hold s hs
    exact (Subscription.terms_eq.mp ht).right.right.left ▸ h.started s₀ hs₀
  case covered =>
    intro s hs e he
    obtain ⟨s₀, hs₀, ht⟩ := hold s hs
    obtain ⟨hi, _, hs, he'⟩ := Subscription.terms_eq.mp ht
    obtain ⟨q, hq, hc⟩ := h.covered s₀ hs₀ e <| he'.symm.trans he
    exact ⟨q, hq, hi ▸ hs ▸ hc⟩
  case inside =>
    intro q hq
    obtain ⟨s, hs, hi, hw⟩ := h.inside q hq
    obtain ⟨s', hs', ht⟩ := hnew s hs
    obtain ⟨hi', _, hs, he'⟩ := Subscription.terms_eq.mp ht
    exact ⟨s', hs', hi'.trans hi, fun e he => hs ▸ hw e (he'.symm.trans he)⟩

theorem of_quotas (h : Life t d) (hs : d'.subscriptions = d.subscriptions)
    (hc : ∀ q ∈ d.quotas, ∃ q' ∈ d'.quotas, q'.subscriptionId = q.subscriptionId ∧
      q'.periodStart = q.periodStart ∧ q'.periodEnd = q.periodEnd)
    (hi : ∀ q ∈ d'.quotas, ∃ s ∈ d.subscriptions, s.id = q.subscriptionId ∧ q.IsWithin s) : Life t d' where
  started         := hs ▸ h.started
  covered s hm e he := by
    obtain ⟨q, hq, hi, hs, he⟩ := h.covered s (hs ▸ hm) e he
    obtain ⟨q', hq', hi', hs', he'⟩ := hc q hq
    exact ⟨q', hq', hi'.trans hi, hs'.trans hs, he'.trans he⟩
  inside          := hs ▸ hi

theorem of_insert (h : Life t d) {q : UsageQuota} (ha : Accepts d (⟨none, .usageQuota q⟩ : Write))
    {s : Subscription} (hs : s ∈ d.subscriptions) (hi : s.id = q.subscriptionId) (hw : q.IsWithin s) :
    Life t (d.put <| .usageQuota q) := by
  refine h.of_quotas rfl (fun q' hq' => ?_) fun q' hq' => ?_
  · exact ⟨q', Table.mem_put_of_ne hq' <| accepts_new ha q' hq', rfl, rfl, rfl⟩
  · cases Table.mem_put.mp hq'
    case inl he => exact ⟨s, hs, he ▸ hi, he ▸ hw⟩
    case inr hm => exact h.inside q' hm.left

theorem of_count (h : Life t d) {q : UsageQuota} (hq : q ∈ d.quotas) (n : Nat) :
    Life t (d.put <| .usageQuota { q with requestsUsed := n }) := by
  refine h.of_quotas rfl (fun q' hq' => ?_) fun q' hq' => ?_
  · by_cases hk : Entity.key q' = Entity.key q
    case pos => exact ⟨_, Table.mem_put_self .., by rw [Table.eq_of_key hq' hq hk]; exact ⟨rfl, rfl, rfl⟩⟩
    case neg => exact ⟨q', Table.mem_put_of_ne hq' hk, rfl, rfl, rfl⟩
  · cases Table.mem_put.mp hq'
    case inl he => exact he ▸ h.inside q hq
    case inr hm => exact h.inside q' hm.left

theorem of_save (h : Life t d) {id : Uuid} {g : Subscription → Subscription}
    (hr : (save Database.subscriptions .subscription (.subscription id) g).run d = (.ok (), d'))
    (hg : ∀ r, (g r).terms = r.terms) : Life t d' := by
  obtain ⟨r, hr, _, hd⟩ := run_save_eq_ok hr
  exact hd ▸ h.of_end hr (hg r)

-- What holds after each part of a service holds after the service.
theorem of_bind {α β : Type} {s : Service α} {f : α → Service β} (h : Life t (s.run d).2)
    (hf : ∀ a d', s.run d = (.ok a, d') → Life t d' → Life t ((f a).run d').2) :
    Life t ((s >>= f).run d).2 := by
  rw [run_bind]
  split
  case h_1 hr => exact hf _ _ hr <| by rwa [hr] at h
  case h_2 hr => rwa [hr] at h

theorem of_atomic {α : Type} {s : Service α} (h : Life t d)
    (hs : ∀ a d', s.run d = (.ok a, d') → Life t d') : Life t (s.atomic.run d).2 := by
  rw [run_atomic]
  split
  case h_1 hr => exact hs _ _ hr
  case h_2    => exact h

theorem of_create (h : Life t d) {r : Row} (hr : Accepts d (⟨none, r⟩ : Write) → Life t (d.put r)) :
    Life t ((create r).run d).2 := by
  cases hc : (create r).run d
  case mk x d' =>
    cases x
    case error  => exact run_create_eq_error hc ▸ h
    case ok     =>
      obtain ⟨ha, hd⟩ := run_create_eq_ok hc
      exact hd ▸ hr ha

end Life

section Run

variable {t : Instant} {d d' : Database} {user : Uuid} {o : Opening} {s : LoadedSubscription} {r : Recording}

theorem enrollInFreePlan_life (h : Life t d) (ho : o.start ≤ t) (user : Uuid) :
    Life t ((enrollInFreePlan user o).run d).2 := by
  cases hr : (enrollInFreePlan user o).run d
  case mk x d' =>
    cases x
    case error e  => exact run_atomic_eq_error hr ▸ h
    case ok s     =>
      obtain ⟨_, _, _, _, _, hd⟩ := enrollInFreePlan_run_opened hr
      exact h.of_opened hd ho

theorem subscribe_life (h : Life t d) (ho : o.start ≤ t) (planSlug : String) (canceledAt : Instant) :
    Life t ((subscribe user planSlug canceledAt o).run d).2 := by
  apply h.of_atomic
  intro s d' hr
  obtain ⟨plan, d₁, h₁, hr⟩ := run_bind_eq_ok.mp hr
  obtain ⟨_, h₁⟩ := run_select_eq_ok.mp h₁
  subst h₁
  cases plan
  case none       => cases hr
  case some plan  =>
    obtain ⟨current, d₂, h₂, hr⟩ := run_bind_eq_ok.mp hr
    obtain ⟨_, h₂⟩ := run_select_eq_ok.mp h₂
    subst h₂
    cases current
    case none =>
      obtain ⟨_, _, _, hd⟩ := createSubscription_run_opened hr
      exact h.of_opened hd ho
    case some =>
      simp only at hr
      split at hr
      case isTrue   => cases hr
      case isFalse  =>
        obtain ⟨_, d₃, h₃, hr⟩ := run_bind_eq_ok.mp hr
        obtain ⟨_, _, _, hd⟩ := createSubscription_run_opened hr
        exact (h.of_save h₃ fun _ => rfl).of_opened hd ho

theorem cancel_life (h : Life t d) (ho : o.start ≤ t) (canceledAt : Instant) :
    Life t ((cancel user canceledAt o).run d).2 := by
  apply h.of_atomic
  intro s d' hr
  obtain ⟨sub, d₁, h₁, hr⟩ := run_bind_eq_ok.mp hr
  obtain ⟨_, h₁⟩ := run_select_eq_ok.mp h₁
  subst h₁
  cases sub
  case none => cases hr
  case some =>
    obtain ⟨_, d₂, h₂, hr⟩ := run_bind_eq_ok.mp hr
    have h' := enrollInFreePlan_life (h.of_save h₂ fun _ => rfl) ho user
    rwa [hr] at h'

theorem expireSubscription_life (h : Life t d) (ho : o.start ≤ t) (s : LoadedSubscription)
    (affected : Nat) : Life t ((expireSubscription s o affected).run d).2 := by
  have ha : Life t ((atomic do
      save Database.subscriptions .subscription (.subscription s.id) fun s => { s with status := .expired }
      let _ ← enrollInFreePlan s.userId o
      return affected + 1).run d).2 := by
    apply h.of_atomic
    intro n d' hr
    obtain ⟨_, d₁, h₁, hr⟩ := run_bind_eq_ok.mp hr
    obtain ⟨_, d₂, h₂, hr⟩ := run_bind_eq_ok.mp hr
    cases hr
    have h' := enrollInFreePlan_life (h.of_save h₁ fun _ => rfl) ho s.userId
    rwa [h₂] at h'
  rw [expireSubscription, run_handle]
  split
  case h_1 hr => rwa [hr] at ha
  case h_2 hr => rwa [hr] at ha

theorem expireSubscriptions_life (h : Life t d) {openings : Uuid → Opening}
    (ho : ∀ id, (openings id).start ≤ t) (subs : List LoadedSubscription) (affected : Nat) :
    Life t ((expireSubscriptions openings subs affected).run d).2 := by
  induction subs generalizing affected d
  case nil            => exact h
  case cons sub _ hi  =>
    exact Life.of_bind (expireSubscription_life h (ho _) sub affected) fun n d' _ h => hi h n

theorem not_isCurrent {q : UsageQuota} {sub : Uuid} {now : Instant} (h : getCurrentQuota d sub now = none)
    (hq : q ∈ d.quotas) (hs : q.subscriptionId = sub) : ¬q.isCurrent now := by
  simp only [getCurrentQuota, List.argmax_eq_none, List.filter_eq_nil_iff] at h
  simpa [hs] using h q hq

-- As long as a subscription is in force, its first quota is the current one.
theorem currentOrRotateQuota_life (h : Life t d) (hs : s.toSubscription ∈ d.subscriptions)
    (hc : ∀ e, s.expiresAt = some e → s.startedAt ≤ r.now ∧ r.now < e) :
    Life t ((currentOrRotateQuota s r).run d).2 := by
  rw [currentOrRotateQuota, run_bind_of_ok (run_select ..)]
  cases hq : getCurrentQuota d s.id r.now
  case some q => exact h
  case none   =>
    have he : s.expiresAt = none := by
      cases he : s.expiresAt
      case none   => rfl
      case some e =>
        obtain ⟨hn, hl⟩ := hc e he
        obtain ⟨q, hm, hi, hs, hqe⟩ := h.covered _ hs e he
        exact (not_isCurrent hq hm hi <| by simp [UsageQuota.isCurrent, hs, hqe, hn, hl]).elim
    apply Life.of_bind
    case h  =>
      cases defaultPeriodWindow s.plan r.start
      case ok     => exact h
      case error  => exact h
    case hf =>
      rintro ⟨start, finish⟩ d₁ hw _
      obtain ⟨_, hd⟩ := run_ofExcept_eq_ok.mp hw
      subst hd
      refine Life.of_bind (h.of_create fun ha => ?_) fun _ _ _ h => h
      exact h.of_insert ha hs rfl fun e hse => by cases he.symm.trans hse

theorem charge_life (h : Life t d) (hs : s.toSubscription ∈ d.subscriptions)
    (hc : ∀ e, s.expiresAt = some e → s.startedAt ≤ r.now ∧ r.now < e) :
    Life t ((charge s r).run d).2 := by
  apply Life.of_bind (currentOrRotateQuota_life h hs hc)
  intro q d₁ _ h₁
  split
  case isTrue   => exact h₁
  case isFalse  =>
    rcases run_update_snd Database.quotas .usageQuota (.usageQuota q.id)
      (fun q => { q with requestsUsed := q.requestsUsed + 1 }) d₁ with hd | ⟨q', hq', _, hd⟩
    · rw [incrementUsage, hd]
      exact h₁
    · rw [incrementUsage, hd]
      exact h₁.of_count hq' _

theorem recordRequest_life (h : Life t d) (ho : r.opening.start ≤ t)
    (hn : ∀ s ∈ d.subscriptions, s.startedAt ≤ r.now)
    (hf : ∀ s, getActiveSubscription d user = some s → ∀ e, s.expiresAt = some e → r.now < e) :
    Life t ((recordRequest user r).run d).2 := by
  rw [recordRequest, run_bind_of_ok (run_select ..)]
  cases hs : getActiveSubscription d user
  case some s =>
    obtain ⟨hm, _⟩ := getActiveSubscription_eq_some hs
    exact charge_life h hm fun e he => ⟨hn _ hm, hf s hs e he⟩
  case none   =>
    apply Life.of_bind (enrollInFreePlan_life h ho user)
    intro s d' he h'
    obtain ⟨plan, finish, periodEnd, _, hs, hd⟩ := enrollInFreePlan_run_opened he
    subst hs
    exact charge_life h' ((hd.mem_subscriptions _).mpr <| .inl rfl) fun e he => by cases he

theorem Call.service_life (h : Life t d) {t' : Instant} {c : Call} (hc : c.ReadsClock t t')
    (hf : c.InForce d) : Life t' (c.service.run d).2 := by
  have hb : ∀ {α : Type} {s : Service α}, Life t' (s.run d).2 → Life t' ((do let _ ← s : Service Unit).run d).2 :=
    fun h => Life.of_bind h fun _ _ _ h => h
  cases c
  case subscribe =>
    obtain ⟨h₁, h₂, h₃⟩ := hc
    exact hb <| subscribe_life (h.mono <| h₁.trans <| h₂.trans h₃) h₃ ..
  case cancel =>
    obtain ⟨h₁, h₂, h₃⟩ := hc
    exact hb <| cancel_life (h.mono <| h₁.trans <| h₂.trans h₃) h₃ ..
  case enrollInFreePlan =>
    obtain ⟨h₁, h₂⟩ := hc
    exact hb <| enrollInFreePlan_life (h.mono <| h₁.trans h₂) h₂ _
  case recordRequest =>
    obtain ⟨h₁, h₂, h₃, h₄⟩ := hc
    have ho := h₂.trans <| h₃.trans h₄
    exact recordRequest_life (h.mono <| h₁.trans ho) ho (fun s hs => (h.started s hs).trans <| h₁.trans h₂) hf
  case expireDueSubscriptions now openings =>
    obtain ⟨h₁, h₂⟩ := hc
    have ht : t ≤ t' := h₁.trans <| (h₂ 0).left.trans (h₂ 0).right
    refine hb ?_
    rw [SaasBackend.expireDueSubscriptions, run_bind_of_ok (run_select ..)]
    exact expireSubscriptions_life (h.mono ht) (fun id => (h₂ id).right) ..
  case setPlanActive plan isActive =>
    rcases run_update_snd Database.plans .plan (.plan plan) (fun p => { p with isActive := isActive }) d
      with hd | ⟨p, _, _, hd⟩
    · rw [service, SaasBackend.setPlanActive, hd]
      exact h.mono hc
    · rw [service, SaasBackend.setPlanActive, hd]
      exact (h.mono hc).of_quotas rfl (fun q hq => ⟨q, hq, rfl, rfl, rfl⟩) h.inside

-- In every run from tables without subscriptions, the quotas lie inside of the lives of their
-- subscriptions if requests are only recorded while these are in force.
theorem quotas_within_life (d : Database) (t : Instant) (cs : List (Call × Instant))
    (hs : ∀ s, s ∉ d.subscriptions) (hq : ∀ q, q ∉ d.quotas)
    (hc : Throughout Timeline.step (fun σ c => c.1.ReadsClock σ.now c.2 ∧ c.1.InForce σ.db) ⟨d, t⟩ cs) :
    let σ := cs.foldl Timeline.step ⟨d, t⟩
    ∀ q ∈ σ.db.quotas, ∀ s ∈ σ.db.subscriptions, s.id = q.subscriptionId → q.IsWithin s := by
  intro σ q hq' s hs' hi
  have h : Life σ.now σ.db := hc.induction (P := fun σ => Life σ.now σ.db) (.of_empty hs hq)
    fun _ _ hc h => Call.service_life h hc.left hc.right
  have ⟨s', hs₁, hi', hw⟩ := h.inside q hq'
  exact Subscription.eq_of_id hs₁ hs' (hi'.trans hi.symm) ▸ hw

end Run

section Example

def subscribeToPro : Call × Instant :=
  (.subscribe 1 PlanSlug.pro (.midnight 739000) ⟨.midnight 739000, 1, 1⟩, .midnight 739000)

def recordOn (day : Nat) : Call × Instant :=
  (.recordRequest 1 ⟨⟨.midnight day, 2, 2⟩, .midnight day, .midnight day, 2⟩, .midnight day)

theorem quota_within_paid_period :
    let σ := [subscribeToPro, recordOn 739001].foldl Timeline.step ⟨Seed.database, .midnight 739000⟩
    ∀ q ∈ σ.db.quotas, ∀ s ∈ σ.db.subscriptions, s.id = q.subscriptionId → q.IsWithin s := by
  have hs : ∀ s, s ∉ Seed.database.subscriptions := Table.not_mem_empty
  have hq : ∀ q, q ∉ Seed.database.quotas := Table.not_mem_empty
  have he : ((getActiveSubscription (subscribeToPro.1.service.run Seed.database).2 1).bind (·.expiresAt)) =
      some (.midnight 739030) := by decide +kernel
  apply quotas_within_life Seed.database (.midnight 739000) [subscribeToPro, recordOn 739001] hs hq
  refine ⟨⟨⟨le_refl _, le_refl _, le_refl _⟩, trivial⟩, ⟨⟨?_, le_refl _, le_refl _, le_refl _⟩, ?_⟩, trivial⟩
  · decide
  · intro s hs e hse
    have hs : getActiveSubscription (subscribeToPro.1.service.run Seed.database).2 1 = some s := hs
    rw [hs, Option.bind_some, hse] at he
    cases he
    decide

-- A request is recorded on the day after the period that was paid for.
theorem quota_outlives_paid_period :
    let σ := [subscribeToPro, recordOn 739031].foldl Timeline.step ⟨Seed.database, .midnight 739000⟩
    Throughout Timeline.step (fun σ c => c.1.ReadsClock σ.now c.2) ⟨Seed.database, .midnight 739000⟩
      [subscribeToPro, recordOn 739031] ∧
    ¬∀ q ∈ σ.db.quotas, ∀ s ∈ σ.db.subscriptions, s.id = q.subscriptionId → q.IsWithin s := by
  refine ⟨⟨⟨le_refl _, le_refl _, le_refl _⟩, ⟨?_, le_refl _, le_refl _, le_refl _⟩, trivial⟩, ?_⟩
  · decide
  · decide +kernel

end Example
end SaasBackend
