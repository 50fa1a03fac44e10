import SaasBackend.ReadCommitted.Emits
import SaasBackend.Subscriptions.Calls
import SaasBackend.Subscriptions.Seed

open Calendar ReadCommitted ReadCommitted.Session ReadCommitted.Service

namespace SaasBackend

open Service

-- At each point in time, at most one quota of the subscription is current.
def AtMostOneCurrent (d : Database) (sub : Uuid) : Prop :=
  ∀ now, ∀ q₁ ∈ d.quotas, ∀ q₂ ∈ d.quotas, q₁.subscriptionId = sub → q₂.subscriptionId = sub →
    q₁.isCurrent now → q₂.isCurrent now → q₁ = q₂

-- What a statement may write to the quotas: a new one, or how many requests one of them has counted.
inductive Records (d : Database) : List Write → Prop
  | nothing : Records d []
  | inserts (q : UsageQuota) : Records d [⟨none, .usageQuota q⟩]
  | counts {q : UsageQuota} (hq : q ∈ d.quotas) (n : Nat) :
    Records d [⟨some <| .usageQuota q, .usageQuota { q with requestsUsed := n }⟩]
  | others {w : Write} (h : ∀ q, w.new ≠ .usageQuota q) : Records d [w]

-- The row is not a quota which is still current, or has yet to start, when the period of `q` starts.
def IsOver (q : UsageQuota) : Row → Prop
  | .usageQuota q'  => q'.subscriptionId = q.subscriptionId →
                        q'.periodStart ≤ q.periodStart ∧ ¬q'.isCurrent q.periodStart
  | _               => True

instance (q : UsageQuota) : (r : Row) → Decidable (IsOver q r)
  | .usageQuota _ => inferInstanceAs <| Decidable (_ → _ ∧ ¬_)
  | .user _ | .plan _ | .subscription _ | .verificationToken _ | .resetToken _ | .session _ | .apiKey _
  | .requestLog _ | .dailyUsage _ | .outstandingToken _ | .blacklistedToken _ => isTrue trivial

section Emits

theorem records_assign {R : Type} [Entity R Key] {table : Database → Table R} {row : R → Row}
    [IsTable table row] {g : R → R}
    (h : ∀ d, ∀ r ∈ table d, Records d [⟨some <| row r, row <| g r⟩]) (k : Key) (d : Database) :
    Records d (assign table row k g d).toList := by
  cases ha : assign table row k g d
  case none   => exact .nothing
  case some w =>
    have ⟨r, hr, _, hw⟩ := assign_eq_some.mp ha
    exact hw ▸ h d r hr

theorem Emits.ofExcept {α : Type} (r : Except Exn α) : (ofExcept r).Emits Records := by
  cases r
  case ok a     => exact Emits.pure a
  case error e  => exact Emits.raise e

theorem emits_endSubscription (id : Uuid) (g : Subscription → Subscription) :
    (save Database.subscriptions .subscription (.subscription id) g).Emits Records :=
  Emits.stmt <| records_assign (fun _ _ _ => .others <| by simp) _

theorem createSubscription_emits (user : Uuid) (plan : Plan) (expires : Bool) (o : Opening) :
    (createSubscription user plan expires o).Emits Records :=
  Emits.bind (Emits.ofExcept _) fun _ =>
    Emits.bind (Emits.execute fun _ => .others <| by simp) fun _ =>
      Emits.bind (Emits.ofExcept _) fun _ =>
        Emits.bind (Emits.execute fun _ => .inserts _) fun _ => Emits.pure _

theorem enrollInFreePlan_emits (user : Uuid) (o : Opening) :
    (enrollInFreePlan user o).Emits Records := by
  apply Emits.atomic
  apply Emits.bind <| Emits.select (fun _ => .nothing) _
  intro plan
  cases plan
  case none   => exact Emits.raise _
  case some p => exact createSubscription_emits ..

theorem subscribe_emits (user : Uuid) (planSlug : String) (canceledAt : Instant) (o : Opening) :
    (subscribe user planSlug canceledAt o).Emits Records := by
  apply Emits.atomic
  apply Emits.bind <| Emits.select (fun _ => .nothing) _
  intro plan
  cases plan
  case none   => exact Emits.raise _
  case some p =>
    apply Emits.bind <| Emits.select (fun _ => .nothing) _
    intro current
    cases current
    case none   => exact createSubscription_emits ..
    case some s =>
      simp only
      split
      case isTrue  => exact Emits.raise _
      case isFalse => exact Emits.bind (emits_endSubscription ..) fun _ => createSubscription_emits ..

theorem cancel_emits (user : Uuid) (canceledAt : Instant) (o : Opening) :
    (cancel user canceledAt o).Emits Records := by
  apply Emits.atomic
  apply Emits.bind <| Emits.select (fun _ => .nothing) _
  intro sub
  cases sub
  case none   => exact Emits.raise _
  case some s => exact Emits.bind (emits_endSubscription ..) fun _ => enrollInFreePlan_emits ..

theorem charge_emits (s : LoadedSubscription) (r : Recording) : (charge s r).Emits Records := by
  apply Emits.bind
  case h  =>
    apply Emits.bind <| Emits.select (fun _ => .nothing) _
    intro quota
    cases quota
    case some q => exact Emits.pure _
    case none   =>
      apply Emits.bind <| Emits.ofExcept _
      intro _
      exact Emits.bind (Emits.execute fun _ => .inserts _) fun _ => Emits.pure _
  case hf =>
    intro quota
    split
    case isTrue  => exact Emits.raise _
    case isFalse => exact Emits.execute <| records_assign (fun _ _ hq => .counts hq _) _

theorem recordRequest_emits (user : Uuid) (r : Recording) : (recordRequest user r).Emits Records := by
  apply Emits.bind <| Emits.select (fun _ => .nothing) _
  intro sub
  cases sub
  case some s => exact charge_emits ..
  case none   => exact Emits.bind (enrollInFreePlan_emits ..) fun _ => charge_emits ..

theorem expireSubscriptions_emits (openings : Uuid → Opening) (subs : List LoadedSubscription)
    (affected : Nat) : (expireSubscriptions openings subs affected).Emits Records := by
  induction subs generalizing affected
  case nil     => exact Emits.pure _
  case cons hi =>
    refine Emits.bind (Emits.handle (Emits.atomic ?_) fun _ => Emits.pure _) fun _ => hi _
    refine Emits.bind (emits_endSubscription ..) fun _ => ?_
    exact Emits.bind (enrollInFreePlan_emits ..) fun _ => Emits.pure _

theorem Call.service_emits (c : Call) : c.service.Emits Records := by
  have h : ∀ {α} {s : Service α}, s.Emits Records → (do let _ ← s : Service Unit).Emits Records :=
    fun h => Emits.bind h fun _ => Emits.pure _
  cases c
  case subscribe              => exact h <| subscribe_emits ..
  case cancel                 => exact h <| cancel_emits ..
  case enrollInFreePlan       => exact h <| enrollInFreePlan_emits ..
  case recordRequest          => exact recordRequest_emits ..
  case setPlanActive          => exact Emits.execute <| records_assign (fun _ _ _ => .others <| by simp) _
  case expireDueSubscriptions =>
    exact h <| Emits.bind (Emits.select (fun _ => .nothing) _) fun _ => expireSubscriptions_emits ..

end Emits

section Windows

variable {d : Database} {sub : Uuid} {q q₁ q₂ : UsageQuota} {now : Instant}

theorem UsageQuota.isCurrent_iff : q.isCurrent now ↔ q.periodStart ≤ now ∧ now < q.periodEnd := by
  simp [isCurrent]

-- Two quotas are never current at the same time, unless they are the same quota.
def Apart (q₁ q₂ : UsageQuota) : Prop :=
  q₁.subscriptionId = q₂.subscriptionId → ∀ now, q₁.isCurrent now → q₂.isCurrent now → q₁.id = q₂.id

theorem Apart.symm (h : Apart q₁ q₂) : Apart q₂ q₁ :=
  fun hs now h₁ h₂ => (h hs.symm now h₂ h₁).symm

theorem Apart.refl (q : UsageQuota) : Apart q q :=
  fun _ _ _ _ => rfl

theorem Apart.count (h : Apart q₁ q₂) (n : Nat) : Apart { q₁ with requestsUsed := n } q₂ :=
  h

-- What is over when a period starts is never current together with it.
theorem Apart.of_isOver (h : IsOver q (.usageQuota q₂)) : Apart q q₂ := by
  intro hs now h₁ h₂
  have ⟨hle, hc⟩ := h hs.symm
  have hn : ¬q.periodStart < q₂.periodEnd := fun hl => hc <| UsageQuota.isCurrent_iff.mpr ⟨hle, hl⟩
  have h₁ := (UsageQuota.isCurrent_iff.mp h₁).left
  have h₂ := (UsageQuota.isCurrent_iff.mp h₂).right
  exact (hn <| h₁.trans_lt h₂).elim

theorem AtMostOneCurrent.apart (h : ∀ sub, AtMostOneCurrent d sub) (h₁ : q₁ ∈ d.quotas)
    (h₂ : q₂ ∈ d.quotas) : Apart q₁ q₂ :=
  fun hs now hc₁ hc₂ => congrArg UsageQuota.id <| h _ now q₁ h₁ q₂ h₂ hs rfl hc₁ hc₂

theorem AtMostOneCurrent.of_apart (h : ∀ q₁ ∈ d.quotas, ∀ q₂ ∈ d.quotas, Apart q₁ q₂) (sub : Uuid) :
    AtMostOneCurrent d sub :=
  fun now q₁ h₁ q₂ h₂ hs₁ hs₂ hc₁ hc₂ => Table.eq_of_key h₁ h₂ <|
    congrArg Key.usageQuota <| h q₁ h₁ q₂ h₂ (hs₁.trans hs₂.symm) now hc₁ hc₂

end Windows

section System

open System

variable {ι : Type} [Fintype ι] [DecidableEq ι] {σ : Backend ι Unit}

-- When a quota is inserted, what `_current_or_rotate_quota` checks is the case: all other quotas of the
-- subscription are over at the start of its period, even those that are not committed yet.
def TakesTurn (σ : Backend ι Unit) : Write → Prop
  | ⟨none, .usageQuota q⟩ => (∀ r ∈ σ.db.rows, IsOver q r) ∧
                              ∀ i, ∀ w ∈ (σ.session i).pending, IsOver q w.new
  | _                     => True

instance (σ : Backend ι Unit) : (w : Write) → Decidable (TakesTurn σ w)
  | ⟨none, .usageQuota _⟩ => inferInstanceAs <| Decidable (_ ∧ ∀ _, _)
  | ⟨some _, _⟩ | ⟨none, .user _⟩ | ⟨none, .plan _⟩ | ⟨none, .subscription _⟩
  | ⟨none, .verificationToken _⟩ | ⟨none, .resetToken _⟩ | ⟨none, .session _⟩ | ⟨none, .apiKey _⟩
  | ⟨none, .requestLog _⟩ | ⟨none, .dailyUsage _⟩ | ⟨none, .outstandingToken _⟩
  | ⟨none, .blacklistedToken _⟩ => isTrue trivial

omit [Fintype ι] [DecidableEq ι] in
theorem TakesTurn.apart {q q' : UsageQuota} (h : TakesTurn σ ⟨none, .usageQuota q⟩)
    (hq : σ.Holds (.usageQuota q')) : Apart q q' := by
  apply Apart.of_isOver
  rcases hq with hq | ⟨i, w, hw, hq⟩
  · exact h.left _ hq
  · exact hq ▸ h.right i w hw

-- The quotas are apart, no matter whether they are committed.
structure Rotates (σ : Backend ι Unit) : Prop where
  emits : ∀ i, (σ.session i).program.Emits Records
  apart : ∀ q₁ q₂, σ.Holds (.usageQuota q₁) → σ.Holds (.usageQuota q₂) → Apart q₁ q₂

omit [Fintype ι] [DecidableEq ι] in
theorem Rotates.writes (h : Rotates σ) (a : Action ι Exn) :
    ∃ d : Database, (∀ r ∈ d.rows, σ.Holds r) ∧ Records d (σ.writes a) := by
  cases a
  case go i   => exact ⟨_, fun _ hr => holds_of_view (i := i) hr, Session.emits_next (h.emits i) (fun _ => .nothing) _⟩
  case fail i => exact ⟨σ.db, fun _ => .inl, .nothing⟩

theorem Rotates.step (h : Rotates σ) {a : Action ι Exn} (hc : ∀ w ∈ σ.writes a, TakesTurn σ w) :
    Rotates (σ.step a) where
  emits := emits_step h.emits a
  apart := by
    have ⟨d, hd, hw⟩ := h.writes a
    -- What has just been written is apart from what was there before.
    have hn : ∀ w ∈ σ.writes a, ∀ q q', w.new = .usageQuota q → σ.Holds (.usageQuota q') → Apart q q' := by
      intro w hm q q' hq hq'
      generalize σ.writes a = ws at hc hw hm
      cases hw
      case nothing  => exact (List.not_mem_nil hm).elim
      case inserts  =>
        cases List.mem_singleton.mp hm
        cases hq
        exact (hc _ <| List.mem_singleton_self _).apart hq'
      case counts hq₀ n =>
        cases List.mem_singleton.mp hm
        cases hq
        exact (h.apart _ _ (hd _ <| Database.usageQuota_mem_rows.mpr hq₀) hq').count n
      case others ho =>
        cases List.mem_singleton.mp hm
        exact (ho q hq).elim
    have hs : ∀ w₁ ∈ σ.writes a, ∀ w₂ ∈ σ.writes a, w₁ = w₂ := by
      generalize σ.writes a = ws at hw
      cases hw <;> simp
    intro q₁ q₂ h₁ h₂
    rcases holds_step h₁ with h₁ | ⟨w₁, hw₁, h₁⟩ <;> rcases holds_step h₂ with h₂ | ⟨w₂, hw₂, h₂⟩
    · exact h.apart q₁ q₂ h₁ h₂
    · exact (hn w₂ hw₂ q₂ q₁ h₂ h₁).symm
    · exact hn w₁ hw₁ q₁ q₂ h₁ h₂
    · cases h₁.symm.trans <| (congrArg Put.new <| hs w₁ hw₁ w₂ hw₂).trans h₂
      exact .refl q₁

-- At most one quota of each subscription is current in every interleaving in which the quotas take turns.
theorem at_most_one_current (d : Database) (calls : ι → Call) (as : List (Action ι Exn))
    (hd : ∀ sub, AtMostOneCurrent d sub)
    (hc : Along (fun σ a => ∀ w ∈ σ.writes a, TakesTurn σ w)
      (.start d fun i => (calls i).service) as) (sub : Uuid) :
    AtMostOneCurrent ((System.start d fun i => (calls i).service).run as).db sub := by
  have h : Rotates (System.start d fun i => (calls i).service) := by
    refine ⟨fun i => (calls i).service_emits.program, fun q₁ q₂ h₁ h₂ => ?_⟩
    have hq : ∀ q, (System.start d fun i => (calls i).service).Holds (.usageQuota q) → q ∈ d.quotas := by
      rintro q (hq | ⟨i, w, hw, _⟩)
      · exact Database.usageQuota_mem_rows.mp hq
      · exact (List.not_mem_nil hw).elim
    exact AtMostOneCurrent.apart hd (hq q₁ h₁) (hq q₂ h₂)
  have h := run_induction_along (P := Rotates) hc h fun _ _ hc h => h.step hc
  refine .of_apart (fun q₁ h₁ q₂ h₂ => ?_) sub
  exact h.apart q₁ q₂ (.inl <| Database.usageQuota_mem_rows.mpr h₁) (.inl <| Database.usageQuota_mem_rows.mpr h₂)

end System

section Example

-- A subscription to the pro plan whose first period is over.
def overdue : Database :=
  ((subscribe 1 PlanSlug.pro (.midnight 739000) ⟨.midnight 739000, 1, 1⟩).run Seed.database).2

-- A request at midnight, and another one a microsecond later.
def overdueCall (i : Fin 2) : Call :=
  let now : Instant := if i.val = 0 then .midnight 739031 else ⟨(Instant.midnight 739031).micros + 1, by decide⟩
  .recordRequest 1 ⟨⟨now, 2, 2⟩, now, now, 3 + i.val⟩

theorem overdue_atMostOneCurrent (sub : Uuid) : AtMostOneCurrent overdue sub := by
  have h : ∀ q₁ ∈ overdue.quotas, ∀ q₂ ∈ overdue.quotas, q₁ = q₂ := by decide +kernel
  exact fun _ q₁ h₁ q₂ h₂ _ _ _ _ => h q₁ h₁ q₂ h₂

-- The second call looks for a current quota after the first one has inserted it.
theorem quota_rotated_in_turn :
    AtMostOneCurrent ((System.start overdue fun i => (overdueCall i).service).run
      (.replicate 4 (.go 0) ++ .replicate 3 (.go 1))).db 1 :=
  at_most_one_current overdue overdueCall _ overdue_atMostOneCurrent (by decide +kernel) 1

-- Both calls find that there is no current quota, and each inserts one.
theorem quota_rotated_twice :
    (∀ sub, AtMostOneCurrent overdue sub) ∧
    ¬AtMostOneCurrent ((System.start overdue fun i => (overdueCall i).service).run
      [.go 0, .go 0, .go 1, .go 1, .go 0, .go 1]).db 1 := by
  refine ⟨overdue_atMostOneCurrent, fun h => ?_⟩
  exact absurd (h (.midnight 739032)) <| by decide +kernel

end Example
end SaasBackend
