import SaasBackend.Subscriptions.Lifetimes
import SaasBackend.Subscriptions.Windows

open Calendar ReadCommitted ReadCommitted.Service

namespace SaasBackend

open Service

namespace UsageQuota

-- The value -1 stands for unlimited.
def quotaRemaining (q : UsageQuota) (plan : Plan) : Int :=
  let limit := plan.requestQuota
  if limit = 0 then -1 else max 0 ((limit : Int) - q.requestsUsed)

-- How much the quota has been used, where a quota that does not exist yet has not been used at all.
def usedIn (q : UsageQuota) (d : Database) : Nat :=
  (d.quotas.lookup (.usageQuota q.id)).elim 0 (·.requestsUsed)

theorem usedIn_of_mem {q q₀ : UsageQuota} {d : Database} (h : q₀ ∈ d.quotas) (hi : q₀.id = q.id) :
    q.usedIn d = q₀.requestsUsed := by
  have hl : d.quotas.lookup (.usageQuota q.id) = some q₀ :=
    Table.lookup_eq_some.mpr ⟨h, congrArg Key.usageQuota hi⟩
  simp [usedIn, hl]

theorem usedIn_of_not_mem {q : UsageQuota} {d : Database} (h : ∀ q₀ ∈ d.quotas, q₀.id ≠ q.id) :
    q.usedIn d = 0 := by
  cases hl : d.quotas.lookup (.usageQuota q.id)
  case none     => simp [usedIn, hl]
  case some q₀  =>
    obtain ⟨hm, hk⟩ := Table.lookup_eq_some.mp hl
    exact (h q₀ hm <| Key.usageQuota.inj hk).elim

end UsageQuota

-- The request is counted by `q` and by no other quota. If no quota was current, then a new period has
-- started.
structure Counts (s : LoadedSubscription) (r : Recording) (d : Database) (q : UsageQuota)
    (d' : Database) : Prop where
  window : q.subscriptionId = s.id ∧ q.isCurrent r.now
  mem    : q ∈ d'.quotas
  used   : q.requestsUsed = q.usedIn d + 1
  limit  : s.plan.requestQuota = 0 ∨ q.requestsUsed ≤ s.plan.requestQuota
  before : { q with requestsUsed := q.usedIn d } ∈ d.quotas ∨
            (∀ q₀ ∈ d.quotas, q₀.id ≠ q.id ∧ (q₀.subscriptionId = s.id → ¬q₀.isCurrent r.now)) ∧
            q.id = r.quotaId ∧ q.periodStart = r.now ∧
            r.now.addDays s.plan.periodDays = some q.periodEnd
  frame  : ∀ q', q'.id ≠ q.id → (q' ∈ d'.quotas ↔ q' ∈ d.quotas)
  others : d' = { d with quotas := d'.quotas }

-- What becomes of a request that is recorded for a subscription.
inductive Recorded (s : LoadedSubscription) (r : Recording) (d : Database) :
    Except Exn Unit × Database → Prop
  | counts {q : UsageQuota} {d' : Database} (h : Counts s r d q d') : Recorded s r d (.ok (), d')
  | exceeds {q : UsageQuota} (hq : q ∈ d.quotas) (hw : q.subscriptionId = s.id ∧ q.isCurrent r.now)
      (hl : 0 < s.plan.requestQuota ∧ s.plan.requestQuota ≤ q.requestsUsed) :
      Recorded s r d (.error <| quotaExceeded s.plan q.requestsUsed, d)
  | overflows (hn : ∀ q ∈ d.quotas, q.subscriptionId = s.id → ¬q.isCurrent r.now)
      (ho : r.now.addDays s.plan.periodDays = none) : Recorded s r d (.error .overflowError, d)

section Step

variable {d : Database} {s : LoadedSubscription} {r : Recording} {user : Uuid} {q : UsageQuota}

theorem isOverLimit_iff {limit used : Nat} : isOverLimit limit used ↔ 0 < limit ∧ limit ≤ used := by
  simp [isOverLimit, Nat.pos_iff_ne_zero]

theorem charge_current (hq : getCurrentQuota d s.id r.now = some q) :
    Recorded s r d ((charge s r).run d) := by
  obtain ⟨hm, hs, hc⟩ := getCurrentQuota_eq_some hq
  rw [charge_run hq]
  split
  case isTrue h   => exact .exceeds hm ⟨hs, hc⟩ <| isOverLimit_iff.mp h
  case isFalse h  =>
    have hu : UsageQuota.usedIn { q with requestsUsed := q.requestsUsed + 1 } d = q.requestsUsed :=
      UsageQuota.usedIn_of_mem hm rfl
    rw [isOverLimit_iff] at h
    refine .counts (q := { q with requestsUsed := q.requestsUsed + 1 }) ?_
    constructor
    case window => exact ⟨hs, hc⟩
    case mem    => exact Table.mem_put_self ..
    case used   => exact congrArg (· + 1) hu.symm
    case limit  => dsimp only; omega
    case before => exact .inl <| hu.symm ▸ hm
    case frame  =>
      intro q' hq'
      refine Table.mem_put.trans ⟨?_, fun h => .inr ⟨h, fun hk => hq' <| Key.usageQuota.inj hk⟩⟩
      rintro (rfl | ⟨hm', _⟩)
      · exact (hq' rfl).elim
      · exact hm'
    case others => rfl

-- A new period starts if the keys of its quota are not in use.
theorem charge_rotates {finish : Instant} (hn : getCurrentQuota d s.id r.now = none) (hc : r.start = r.now)
    (hw : r.now.addDays s.plan.periodDays = some finish) (hf : ∀ q ∈ d.quotas, q.id ≠ r.quotaId)
    (hs : ∀ q ∈ d.quotas, q.subscriptionId = s.id → q.periodStart < q.periodEnd) :
    Recorded s r d ((charge s r).run d) := by
  let q : UsageQuota := ⟨r.quotaId, s.id, r.now, finish, 0⟩
  have hcur : q.isCurrent r.now := UsageQuota.isCurrent_iff.mpr
    ⟨le_rfl, Instant.lt_of_addDays hw s.plan.periodDays_pos⟩
  have hcreate : (create <| .usageQuota q).run d = (.ok (), d.put <| .usageQuota q) := by
    refine run_create_of_fits rfl (fun q₀ hq₀ hk => hf q₀ hq₀ <| Key.usageQuota.inj hk) ?_
    intro q₀ hq₀ k hk hk₀
    cases List.mem_singleton.mp hk
    obtain ⟨hi, ht⟩ := Key.quotaPeriod.inj <| List.mem_singleton.mp hk₀
    refine not_isCurrent hn hq₀ hi.symm <| UsageQuota.isCurrent_iff.mpr ⟨ht.ge, ?_⟩
    exact ht.trans_lt <| hs q₀ hq₀ hi.symm
  have hwin : defaultPeriodWindow s.plan r.start = .ok (r.now, finish) :=
    defaultPeriodWindow_iff.mpr ⟨hc.symm, by rw [hc, hw]⟩
  have hr : (currentOrRotateQuota s r).run d = (.ok q, d.put <| .usageQuota q) := by
    rw [currentOrRotateQuota, run_bind_of_ok (run_select ..), hn, hwin]
    exact run_bind_of_ok hcreate
  have ho : ¬isOverLimit s.plan.requestQuota q.requestsUsed := by
    rw [isOverLimit_iff]
    exact fun h => absurd h.left (Nat.not_lt.mpr h.right)
  have hq : q ∈ (d.put <| .usageQuota q).quotas := Table.mem_put_self ..
  rw [charge, run_bind_of_ok hr, if_neg ho, incrementUsage_run hq]
  have hu : UsageQuota.usedIn { q with requestsUsed := q.requestsUsed + 1 } d = 0 :=
    UsageQuota.usedIn_of_not_mem hf
  refine .counts (q := { q with requestsUsed := q.requestsUsed + 1 }) ?_
  constructor
  case window => exact ⟨rfl, hcur⟩
  case mem    => exact Table.mem_put_self ..
  case used   => exact congrArg (· + 1) hu.symm
  case limit  => exact Nat.eq_zero_or_pos _
  case before => exact .inr ⟨fun q₀ hq₀ => ⟨hf q₀ hq₀, not_isCurrent hn hq₀⟩, rfl, rfl, hw⟩
  case frame  =>
    intro q' hq'
    have hk : Entity.key q' ≠ Entity.key q := fun hk => hq' <| Key.usageQuota.inj hk
    refine Table.mem_put.trans ⟨?_, fun h => .inr ⟨Table.mem_put_of_ne h hk, hk⟩⟩
    rintro (rfl | ⟨hm, _⟩)
    · exact (hq' rfl).elim
    · exact (Table.mem_put.mp hm).elim (fun he => (hk <| congrArg Entity.key he).elim) And.left
  case others => rfl

theorem recordRequest_recorded (ha : getActiveSubscription d user = some s) (hc : r.start = r.now)
    (hf : ∀ q ∈ d.quotas, q.id ≠ r.quotaId)
    (hs : ∀ q ∈ d.quotas, q.subscriptionId = s.id → q.periodStart < q.periodEnd) :
    Recorded s r d ((recordRequest user r).run d) := by
  rw [recordRequest_run ha]
  cases hq : getCurrentQuota d s.id r.now
  case some q => exact charge_current hq
  case none   =>
    cases hw : r.now.addDays s.plan.periodDays
    case some finish  => exact charge_rotates hq hc hw hf hs
    case none         =>
      have hwin : defaultPeriodWindow s.plan r.start = .error .overflowError := by
        rw [defaultPeriodWindow_eq]
        dsimp only
        rw [hc, hw]
        rfl
      have hr : (currentOrRotateQuota s r).run d = (.error .overflowError, d) := by
        rw [currentOrRotateQuota, run_bind_of_ok (run_select ..), hq, hwin]
        rfl
      rw [charge, run_bind, hr]
      exact .overflows (fun q₀ hq₀ => not_isCurrent hq hq₀) hw

end Step

-- The tables after the requests were recorded one after another.
def recordSerially (user : Uuid) (rs : List Recording) (d : Database) : Database :=
  rs.foldl (fun d r => ((recordRequest user r).run d).2) d

-- What becomes of each of the requests.
def outcomes (user : Uuid) : List Recording → Database → List (Recording × Except Exn Unit)
  | [],      _ => []
  | r :: rs, d =>
    (r, ((recordRequest user r).run d).1) :: outcomes user rs ((recordRequest user r).run d).2

-- What becomes of the requests that fall into one period: as many as there is room for are accepted.
def meteredOutcomes (plan : Plan) (used calls : Nat) : List (Except Exn Unit) :=
  let accepted := if plan.requestQuota = 0 then calls else min calls (plan.requestQuota - used)
  .replicate accepted (.ok ()) ++
    .replicate (calls - accepted) (.error <| quotaExceeded plan <| max plan.requestQuota used)

-- The subscription is the active one of the user, its periods do not overlap, and the requests are made
-- in the order of time. Each request reads the clock once.
structure Metered (user : Uuid) (s : LoadedSubscription) (rs : List Recording) (d : Database) :
    Prop where
  active   : getActiveSubscription d user = some s
  apart    : AtMostOneCurrent d s.id
  periods  : ∀ q ∈ d.quotas, q.subscriptionId = s.id →
              q.periodStart < q.periodEnd ∧ ∀ r ∈ rs, q.periodStart ≤ r.now
  order    : rs.Pairwise (·.now ≤ ·.now)
  clock    : ∀ r ∈ rs, r.start = r.now
  fresh    : ∀ r ∈ rs, ∀ q ∈ d.quotas, q.id ≠ r.quotaId
  distinct : rs.Pairwise (·.quotaId ≠ ·.quotaId)

-- The quotas have the same id and the same period.
def UsageQuota.period (q : UsageQuota) : Uuid × Uuid × Instant × Instant :=
  (q.id, q.subscriptionId, q.periodStart, q.periodEnd)

section Outcomes

variable {plan : Plan} {used : Nat}

theorem meteredOutcomes_accept (h : plan.requestQuota = 0 ∨ used + 1 ≤ plan.requestQuota) (n : Nat) :
    meteredOutcomes plan used (n + 1) = .ok () :: meteredOutcomes plan (used + 1) n := by
  unfold meteredOutcomes
  by_cases hz : plan.requestQuota = 0
  case pos => simp [hz, List.replicate_succ]
  case neg =>
    have hl : used + 1 ≤ plan.requestQuota := h.resolve_left hz
    have hm : min (n + 1) (plan.requestQuota - used) = min n (plan.requestQuota - (used + 1)) + 1 := by omega
    simp only [if_neg hz, hm, List.replicate_succ, List.cons_append, Nat.add_sub_add_right]
    rw [max_eq_left hl, max_eq_left <| Nat.le_of_succ_le hl]

theorem meteredOutcomes_exceed (h : 0 < plan.requestQuota ∧ plan.requestQuota ≤ used) (n : Nat) :
    meteredOutcomes plan used (n + 1) =
      .error (quotaExceeded plan used) :: meteredOutcomes plan used n := by
  unfold meteredOutcomes
  simp [h.left.ne', Nat.sub_eq_zero_of_le h.right, max_eq_right h.right, List.replicate_succ]

end Outcomes

section Period

variable {q q' : UsageQuota} {now : Instant}

theorem UsageQuota.period_eq :
    q'.period = q.period ↔ q'.id = q.id ∧ q'.subscriptionId = q.subscriptionId ∧
      q'.periodStart = q.periodStart ∧ q'.periodEnd = q.periodEnd := by
  simp [period]

theorem UsageQuota.isCurrent_congr (h : q'.period = q.period) : q'.isCurrent now = q.isCurrent now := by
  obtain ⟨_, _, hs, he⟩ := period_eq.mp h
  simp only [isCurrent, hs, he]

theorem UsageQuota.usedIn_congr {d d' : Database} (h : ∀ q₀, q₀.id = q.id → (q₀ ∈ d'.quotas ↔ q₀ ∈ d.quotas)) :
    q.usedIn d' = q.usedIn d := by
  by_cases hm : ∃ q₀ ∈ d.quotas, q₀.id = q.id
  case pos =>
    obtain ⟨q₀, hq₀, hi⟩ := hm
    rw [usedIn_of_mem hq₀ hi, usedIn_of_mem ((h q₀ hi).mpr hq₀) hi]
  case neg =>
    rw [usedIn_of_not_mem fun q₀ hq₀ hi => hm ⟨q₀, hq₀, hi⟩]
    exact usedIn_of_not_mem fun q₀ hq₀ hi => hm ⟨q₀, (h q₀ hi).mp hq₀, hi⟩

end Period

namespace Counts

variable {d d' : Database} {s : LoadedSubscription} {r : Recording} {q q' : UsageQuota}

theorem cases_mem (h : Counts s r d q d') (hq' : q' ∈ d'.quotas) :
    q' = q ∨ q'.id ≠ q.id ∧ q' ∈ d.quotas := by
  by_cases hi : q'.id = q.id
  case pos => exact .inl <| Table.eq_of_key hq' h.mem <| congrArg Key.usageQuota hi
  case neg => exact .inr ⟨hi, (h.frame q' hi).mp hq'⟩

-- A period is either the one that was counted in, or it has been there before.
theorem origin (h : Counts s r d q d') (hq' : q' ∈ d'.quotas) :
    (∃ q₀ ∈ d.quotas, q₀.period = q'.period) ∨
      q' = q ∧ q.id = r.quotaId ∧ q.periodStart = r.now ∧
        r.now.addDays s.plan.periodDays = some q.periodEnd := by
  cases h.cases_mem hq'
  case inr hm => exact .inl ⟨q', hm.right, rfl⟩
  case inl he =>
    subst he
    cases h.before
    case inl hm => exact .inl ⟨_, hm, rfl⟩
    case inr hn => exact .inr ⟨rfl, hn.right⟩

theorem persists (h : Counts s r d q d') {q₀ : UsageQuota} (hq₀ : q₀ ∈ d.quotas) :
    ∃ q' ∈ d'.quotas, q'.period = q₀.period := by
  by_cases hi : q₀.id = q.id
  case neg => exact ⟨q₀, (h.frame q₀ hi).mpr hq₀, rfl⟩
  case pos =>
    refine ⟨q, h.mem, ?_⟩
    cases h.before
    case inl hm =>
      have he : q₀ = { q with requestsUsed := q.usedIn d } := Table.eq_of_key hq₀ hm <| congrArg Key.usageQuota hi
      rw [he]
      rfl
    case inr hn => exact ((hn.left q₀ hq₀).left hi).elim

end Counts

namespace Metered

variable {d d' : Database} {user : Uuid} {s : LoadedSubscription} {r : Recording} {rs : List Recording}
  {q q₁ q₂ : UsageQuota}

theorem recorded (h : Metered user s (r :: rs) d) : Recorded s r d ((recordRequest user r).run d) :=
  recordRequest_recorded h.active (h.clock r List.mem_cons_self) (h.fresh r List.mem_cons_self)
    fun q hq hs => (h.periods q hq hs).left

theorem tail (h : Metered user s (r :: rs) d) : Metered user s rs d where
  active         := h.active
  apart          := h.apart
  periods q hq hs := (h.periods q hq hs).imp_right fun h r hr => h r <| List.mem_cons_of_mem _ hr
  order          := h.order.of_cons
  clock r hr     := h.clock r <| List.mem_cons_of_mem _ hr
  fresh r hr     := h.fresh r <| List.mem_cons_of_mem _ hr
  distinct       := h.distinct.of_cons

-- What was there before is not current together with the period that has been counted in.
theorem apart_counts (h : Metered user s (r :: rs) d) (hc : Counts s r d q d') (hq₁ : q₁ ∈ d.quotas)
    (hi : q₁.id ≠ q.id) (hs : q₁.subscriptionId = s.id) {now : Instant} (h₁ : q₁.isCurrent now) :
    ¬q.isCurrent now := by
  intro hn
  cases hc.before
  case inl hm =>
    have he := h.apart now q₁ hq₁ _ hm hs hc.window.left h₁ hn
    exact hi <| (congrArg UsageQuota.id he).trans rfl
  case inr hb =>
    obtain ⟨hb, _, hst, _⟩ := hb
    have hle := (UsageQuota.isCurrent_iff.mp hn).left
    have hlt := (UsageQuota.isCurrent_iff.mp h₁).right
    refine (hb q₁ hq₁).right hs <| UsageQuota.isCurrent_iff.mpr ⟨?_, ?_⟩
    · exact (h.periods q₁ hq₁ hs).right r List.mem_cons_self
    · exact (hst ▸ hle).trans_lt hlt

theorem counts (h : Metered user s (r :: rs) d) (hc : Counts s r d q d') : Metered user s rs d' := by
  constructor
  case active   =>
    rw [hc.others]
    exact (getActiveSubscription_congr rfl rfl user).trans h.active
  case apart    =>
    intro now q₁ hq₁ q₂ hq₂ hs₁ hs₂ h₁ h₂
    rcases hc.cases_mem hq₁ with rfl | ⟨hi₁, hm₁⟩ <;> rcases hc.cases_mem hq₂ with rfl | ⟨hi₂, hm₂⟩
    · rfl
    · exact (h.apart_counts hc hm₂ hi₂ hs₂ h₂ h₁).elim
    · exact (h.apart_counts hc hm₁ hi₁ hs₁ h₁ h₂).elim
    · exact h.apart now q₁ hm₁ q₂ hm₂ hs₁ hs₂ h₁ h₂
  case periods  =>
    intro q' hq' hs
    rcases hc.origin hq' with ⟨q₀, hq₀, hp⟩ | ⟨rfl, _, hst, hf⟩
    · obtain ⟨_, hs₀, hst, hen⟩ := UsageQuota.period_eq.mp hp
      rw [←hst, ←hen]
      exact h.tail.periods q₀ hq₀ <| hs₀.trans hs
    · rw [hst]
      exact ⟨Instant.lt_of_addDays hf s.plan.periodDays_pos, fun _ => List.rel_of_pairwise_cons h.order⟩
  case order    => exact h.tail.order
  case clock    => exact h.tail.clock
  case fresh    =>
    intro r' hr' q' hq'
    rcases hc.origin hq' with ⟨q₀, hq₀, hp⟩ | ⟨rfl, hi, _⟩
    · rw [←(UsageQuota.period_eq.mp hp).left]
      exact h.tail.fresh r' hr' q₀ hq₀
    · rw [hi]
      exact List.rel_of_pairwise_cons h.distinct hr'
  case distinct => exact h.tail.distinct

theorem step (h : Metered user s (r :: rs) d) : Metered user s rs ((recordRequest user r).run d).2 := by
  have hr := h.recorded
  generalize (recordRequest user r).run d = x at hr
  cases hr
  case counts hc  => exact h.counts hc
  case exceeds    => exact h.tail
  case overflows  => exact h.tail

theorem run {pre : List Recording} (h : Metered user s (pre ++ rs) d) :
    Metered user s rs (recordSerially user pre d) := by
  induction pre generalizing d
  case nil        => exact h
  case cons hi    => exact hi h.step

theorem persists (h : Metered user s rs d) (hq : q ∈ d.quotas) :
    ∃ q' ∈ (recordSerially user rs d).quotas, q'.period = q.period := by
  induction rs generalizing d q
  case nil            => exact ⟨q, hq, rfl⟩
  case cons r rs hi   =>
    have hr : ∃ q' ∈ ((recordRequest user r).run d).2.quotas, q'.period = q.period := by
      have hr := h.recorded
      generalize (recordRequest user r).run d = x at hr
      cases hr
      case counts hc  => exact hc.persists hq
      case exceeds    => exact ⟨q, hq, rfl⟩
      case overflows  => exact ⟨q, hq, rfl⟩
    obtain ⟨q₁, hq₁, hp₁⟩ := hr
    obtain ⟨q₂, hq₂, hp₂⟩ := hi h.step hq₁
    exact ⟨q₂, hq₂, hp₂.trans hp₁⟩

-- A period that is new has started with one of the requests.
theorem origin (h : Metered user s rs d) (hq : q ∈ (recordSerially user rs d).quotas) :
    (∃ q₀ ∈ d.quotas, q₀.period = q.period) ∨
      ∃ r ∈ rs, q.periodStart = r.now ∧ ∃ finish, r.now.addDays s.plan.periodDays = some finish := by
  induction rs generalizing d
  case nil            => exact .inl ⟨q, hq, rfl⟩
  case cons r rs hi   =>
    rcases hi h.step hq with ⟨q₁, hq₁, hp⟩ | ⟨r', hr', hs, hf⟩
    case inr => exact .inr ⟨r', List.mem_cons_of_mem _ hr', hs, hf⟩
    case inl =>
      have hr : (∃ q₀ ∈ d.quotas, q₀.period = q₁.period) ∨
          q₁.periodStart = r.now ∧ ∃ finish, r.now.addDays s.plan.periodDays = some finish := by
        have hr := h.recorded
        generalize (recordRequest user r).run d = x at hr hq₁
        cases hr
        case counts hc  =>
          refine (hc.origin hq₁).imp_right ?_
          rintro ⟨rfl, _, hst, hf⟩
          exact ⟨hst, _, hf⟩
        case exceeds    => exact .inl ⟨q₁, hq₁, rfl⟩
        case overflows  => exact .inl ⟨q₁, hq₁, rfl⟩
      rcases hr with ⟨q₀, hq₀, hp₀⟩ | ⟨hst, hf⟩
      · exact .inl ⟨q₀, hq₀, hp₀.trans hp⟩
      · obtain ⟨_, _, hst', _⟩ := UsageQuota.period_eq.mp hp
        exact .inr ⟨r, List.mem_cons_self, hst'.symm.trans hst, hf⟩

-- Of the requests that fall into a period, the first ones are accepted.
theorem outcomes_eq (h : Metered user s rs d) (hq : q ∈ (recordSerially user rs d).quotas)
    (hs : q.subscriptionId = s.id) :
    ((outcomes user rs d).filter fun x => q.isCurrent x.1.now).map (·.2) =
      meteredOutcomes s.plan (q.usedIn d) (rs.countP fun r => q.isCurrent r.now) := by
  induction rs generalizing d
  case nil          => simp [outcomes, meteredOutcomes]
  case cons r rs hi =>
    have hi := hi h.step hq
    -- The current period is the only one at that time, also in the end.
    have hcur : ∀ q₁ ∈ ((recordRequest user r).run d).2.quotas, q₁.subscriptionId = s.id →
        q₁.isCurrent r.now → (q.isCurrent r.now ↔ q₁.id = q.id) := by
      intro q₁ hq₁ hs₁ hc₁
      obtain ⟨q₂, hq₂, hp⟩ := h.step.persists hq₁
      obtain ⟨hi₂, hs₂, _⟩ := UsageQuota.period_eq.mp hp
      have hc₂ : q₂.isCurrent r.now := (UsageQuota.isCurrent_congr hp).trans hc₁
      have hf : Metered user s [] (recordSerially user (r :: rs) d) := Metered.run <| by simpa using h
      constructor
      case mp =>
        intro hc
        rw [hf.apart r.now q hq q₂ hq₂ hs (hs₂.trans hs₁) hc hc₂, hi₂]
      case mpr =>
        intro he
        rw [Table.eq_of_key hq hq₂ <| congrArg Key.usageQuota <| he.symm.trans hi₂.symm]
        exact hc₂
    have hor := h.origin hq
    have hord := h.order
    have hr := h.recorded
    rw [outcomes, List.filter_cons, List.countP_cons]
    dsimp only
    generalize (recordRequest user r).run d = x at hr hi hcur hq ⊢
    cases hr
    case counts q₁ d' hc =>
      have hcur := hcur q₁ hc.mem hc.window.left hc.window.right
      by_cases hn : q.isCurrent r.now
      case pos =>
        have hid := hcur.mp hn
        have hu : q.usedIn d' = q.usedIn d + 1 := by
          rw [UsageQuota.usedIn_of_mem hc.mem hid, hc.used, UsageQuota.usedIn, UsageQuota.usedIn, hid]
        have hl : s.plan.requestQuota = 0 ∨ q.usedIn d + 1 ≤ s.plan.requestQuota := by
          rw [←hu, UsageQuota.usedIn_of_mem hc.mem hid]
          exact hc.limit
        simp only [hn, if_true, List.map_cons, hi, hu, meteredOutcomes_accept hl]
      case neg =>
        have hu : q.usedIn d' = q.usedIn d :=
          UsageQuota.usedIn_congr fun q₀ hq₀ => hc.frame q₀ fun he => hn <| hcur.mpr <| he.symm.trans hq₀
        simp only [hn, if_false, Bool.false_eq_true, hi, hu, Nat.add_zero]
    case exceeds q₁ hq₁ hw hl =>
      have hcur := hcur q₁ hq₁ hw.left hw.right
      by_cases hn : q.isCurrent r.now
      case neg => simp only [hn, if_false, Bool.false_eq_true, hi, Nat.add_zero]
      case pos =>
        have hu : q.usedIn d = q₁.requestsUsed := UsageQuota.usedIn_of_mem hq₁ <| hcur.mp hn
        simp only [hn, if_true, List.map_cons, hi, hu, meteredOutcomes_exceed hl]
    case overflows hno ho =>
      by_cases hn : q.isCurrent r.now
      case neg => simp only [hn, if_false, Bool.false_eq_true, hi, Nat.add_zero]
      case pos =>
        rcases hor with ⟨q₀, hq₀, hp⟩ | ⟨r', hr', hst, finish, hf⟩
        · have hs₀ := (UsageQuota.period_eq.mp hp).right.left
          exact (hno q₀ hq₀ (hs₀.trans hs) <| (UsageQuota.isCurrent_congr hp).trans hn).elim
        · have hle : r'.now ≤ r.now := hst ▸ (UsageQuota.isCurrent_iff.mp hn).left
          have hge : r.now ≤ r'.now := by
            cases hr'
            case head     => exact le_rfl
            case tail hr' => exact List.rel_of_pairwise_cons hord hr'
          cases ho.symm.trans <| (le_antisymm hle hge) ▸ hf

-- A request does not fall into any period only if its period cannot be represented.
theorem outcomes_mem (h : Metered user s rs d) {x : Recording × Except Exn Unit}
    (hx : x ∈ outcomes user rs d) :
    (∃ q ∈ (recordSerially user rs d).quotas, q.subscriptionId = s.id ∧ q.isCurrent x.1.now) ∨
      x.2 = .error .overflowError ∧ x.1.now.addDays s.plan.periodDays = none := by
  induction rs generalizing d
  case nil          => cases hx
  case cons r rs hi =>
    cases hx
    case tail hx => exact hi h.step hx
    case head    =>
      have hr : (∃ q ∈ ((recordRequest user r).run d).2.quotas, q.subscriptionId = s.id ∧ q.isCurrent r.now) ∨
          ((recordRequest user r).run d).1 = .error .overflowError ∧
            r.now.addDays s.plan.periodDays = none := by
        have hr := h.recorded
        generalize (recordRequest user r).run d = x at hr
        cases hr
        case counts hc        => exact .inl ⟨_, hc.mem, hc.window⟩
        case exceeds hq hw _  => exact .inl ⟨_, hq, hw⟩
        case overflows ho     => exact .inr ⟨rfl, ho⟩
      refine hr.imp_left ?_
      rintro ⟨q₁, hq₁, hs₁, hc₁⟩
      obtain ⟨q₂, hq₂, hp⟩ := h.step.persists hq₁
      exact ⟨q₂, hq₂, (UsageQuota.period_eq.mp hp).right.left.trans hs₁,
        (UsageQuota.isCurrent_congr hp).trans hc₁⟩

end Metered

theorem Recorded.isError_iff {d d' : Database} {s : LoadedSubscription} {r : Recording}
    {x : Except Exn Unit} (h : Recorded s r d (x, d')) (ha : AtMostOneCurrent d s.id) {q : UsageQuota}
    (hq : getCurrentQuota d s.id r.now = some q) :
    (∃ e, x = .error e) ↔ q.quotaRemaining s.plan = 0 := by
  obtain ⟨hm, hs, hc⟩ := getCurrentQuota_eq_some hq
  have hz : q.quotaRemaining s.plan = 0 ↔ 0 < s.plan.requestQuota ∧ s.plan.requestQuota ≤ q.requestsUsed := by
    simp only [UsageQuota.quotaRemaining]
    split <;> omega
  rw [hz]
  cases h
  case overflows hn _ => exact (hn q hm hs hc).elim
  case exceeds q₁ hq₁ hw hl =>
    cases ha r.now q₁ hq₁ q hm hw.left hs hw.right hc
    exact ⟨fun _ => hl, fun _ => ⟨_, rfl⟩⟩
  case counts q₁ h =>
    have hb : { q₁ with requestsUsed := q₁.usedIn d } = q := by
      rcases h.before with hm₁ | ⟨hn, _⟩
      · exact ha r.now _ hm₁ q hm h.window.left hs h.window.right hc
      · exact ((hn q hm).right hs hc).elim
    have hu : q₁.usedIn d = q.requestsUsed := congrArg UsageQuota.requestsUsed hb
    have hl := h.limit
    have hused := h.used
    constructor
    case mp   =>
      rintro ⟨_, he⟩
      cases he
    case mpr  =>
      intro hle
      omega

section Example

def overdueRecording (day : Nat) (id : Uuid) : Recording :=
  ⟨⟨.midnight day, 2, 2⟩, .midnight day, .midnight day, id⟩

theorem overdue_metered {rs : List Recording} (s : LoadedSubscription)
    (hs : getActiveSubscription overdue 1 = some s)
    (hp : ∀ q ∈ overdue.quotas, q.periodStart < q.periodEnd ∧ ∀ r ∈ rs, q.periodStart ≤ r.now)
    (ho : rs.Pairwise (·.now ≤ ·.now)) (hc : ∀ r ∈ rs, r.start = r.now)
    (hf : ∀ r ∈ rs, ∀ q ∈ overdue.quotas, q.id ≠ r.quotaId) (hd : rs.Pairwise (·.quotaId ≠ ·.quotaId)) :
    Metered 1 s rs overdue where
  active         := hs
  apart          := overdue_atMostOneCurrent s.id
  periods q hq _ := hp q hq
  order          := ho
  clock          := hc
  fresh          := hf
  distinct       := hd

end Example
end SaasBackend
