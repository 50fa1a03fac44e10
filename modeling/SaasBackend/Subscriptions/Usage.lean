import SaasBackend.Subscriptions.Seed
import SaasBackend.Subscriptions.Serial

open Calendar ReadCommitted ReadCommitted.Service

namespace SaasBackend

open Service

-- The calls by which a user may change or use a subscription.
inductive UserCall
  | recordRequest (r : Recording)
  | subscribe (planSlug : String) (canceledAt : Instant) (o : Opening)
  | cancel (canceledAt : Instant) (o : Opening)

namespace UserCall

def service (user : Uuid) : UserCall → Service Unit
  | recordRequest r => SaasBackend.recordRequest user r
  | subscribe p t o => do let _ ← SaasBackend.subscribe user p t o
  | cancel t o      => do let _ ← SaasBackend.cancel user t o

-- The tables after the calls of a user were executed one after another.
def serially (user : Uuid) (cs : List UserCall) (d : Database) : Database :=
  cs.foldl (fun d c => ((c.service user).run d).2) d

-- The call returns normally, and counts a request while the plan is the active one of the user.
def isAccepted (user plan : Uuid) (d : Database) : UserCall → Bool
  | recordRequest r =>
    match (SaasBackend.recordRequest user r).run d with
    | (.ok _, d')    => (getActiveSubscription d' user).any (·.planId = plan)
    | (.error _, _)  => false
  | _               => false

-- The number of requests that are accepted in the course of the calls.
def accepted (user plan : Uuid) : List UserCall → Database → Nat
  | [],      _ => 0
  | c :: cs, d =>
    (c.isAccepted user plan d).toNat + accepted user plan cs ((c.service user).run d).2

end UserCall

-- The quota belongs to a subscription of the user to the plan.
def UsageQuota.isFor (d : Database) (user plan : Uuid) (q : UsageQuota) : Bool :=
  d.subscriptions.rows.any fun s => s.id = q.subscriptionId ∧ s.userId = user ∧ s.planId = plan

-- The number of requests that the quota has counted, up to a limit.
def UsageQuota.countedFor (d : Database) (user plan : Uuid) (limit : Nat) (q : UsageQuota) : Nat :=
  if q.isFor d user plan then min q.requestsUsed limit else 0

-- The periods of all subscriptions of the user to the plan.
def periods (d : Database) (user plan : Uuid) : List UsageQuota :=
  d.quotas.rows.filter (·.isFor d user plan)

def usage (d : Database) (user plan : Uuid) (limit : Nat) : Nat :=
  (d.quotas.rows.map (·.countedFor d user plan limit)).sum

-- Subscriptions keep their owner and their plan, and usage is only added to.
structure Accumulates (d d' : Database) : Prop where
  plans         : d'.plans = d.plans
  subscriptions : ∀ s ∈ d.subscriptions, ∃ s' ∈ d'.subscriptions,
                    s'.id = s.id ∧ s'.userId = s.userId ∧ s'.planId = s.planId
  quotas        : ∀ q ∈ d.quotas, ∃ q' ∈ d'.quotas,
                    q'.id = q.id ∧ q'.subscriptionId = q.subscriptionId ∧
                    q.requestsUsed ≤ q'.requestsUsed

namespace Accumulates

instance : Std.Refl Accumulates where
  refl _ := ⟨rfl, fun s h => ⟨s, h, rfl, rfl, rfl⟩, fun q h => ⟨q, h, rfl, rfl, Nat.le_refl _⟩⟩

instance : IsTrans Database Accumulates where
  trans _ _ _ h₁ h₂ := {
    plans         := h₂.plans.trans h₁.plans
    subscriptions := fun s h =>
      have ⟨_, h, hi, hu, hp⟩ := h₁.subscriptions s h
      have ⟨s', h, hi', hu', hp'⟩ := h₂.subscriptions _ h
      ⟨s', h, hi'.trans hi, hu'.trans hu, hp'.trans hp⟩
    quotas        := fun q h =>
      have ⟨_, h, hi, hs, hu⟩ := h₁.quotas q h
      have ⟨q', h, hi', hs', hu'⟩ := h₂.quotas _ h
      ⟨q', h, hi'.trans hi, hs'.trans hs, hu.trans hu'⟩
  }

theorem of_bills {d : Database} {w : Write} (hw : Bills w) (ha : Accepts d w) :
    Accumulates d (d.put w.new) := by
  cases hw
  case opens s =>
    refine ⟨rfl, fun r hr => ⟨r, ?_, rfl, rfl, rfl⟩, fun q h => ⟨q, h, rfl, rfl, Nat.le_refl _⟩⟩
    exact Table.mem_put_of_ne hr <| accepts_new ha r hr
  case ends s s' hi hu hp =>
    refine ⟨rfl, fun r hr => ?_, fun q h => ⟨q, h, rfl, rfl, Nat.le_refl _⟩⟩
    have ⟨hs, hk⟩ := accepts_old ha
    by_cases h : Entity.key r = Entity.key s'
    case neg => exact ⟨r, Table.mem_put_of_ne hr h, rfl, rfl, rfl⟩
    case pos =>
      rw [Table.eq_of_key hr hs <| h.trans hk.symm]
      exact ⟨s', Table.mem_put_self .., hi, hu, hp⟩
  case rotates q =>
    refine ⟨rfl, fun s h => ⟨s, h, rfl, rfl, rfl⟩, fun r hr => ⟨r, ?_, rfl, rfl, Nat.le_refl _⟩⟩
    exact Table.mem_put_of_ne hr <| accepts_new ha r hr
  case counts q q' hi hs hu =>
    refine ⟨rfl, fun s h => ⟨s, h, rfl, rfl, rfl⟩, fun r hr => ?_⟩
    have ⟨hq, hk⟩ := accepts_old ha
    by_cases h : Entity.key r = Entity.key q'
    case neg => exact ⟨r, Table.mem_put_of_ne hr h, rfl, rfl, Nat.le_refl _⟩
    case pos =>
      rw [Table.eq_of_key hr hq <| h.trans hk.symm]
      exact ⟨q', Table.mem_put_self .., hi, hs, hu⟩

variable {d d' : Database}

theorem isFor (h : Accumulates d d') {user plan : Uuid} {q q' : UsageQuota}
    (hs : q'.subscriptionId = q.subscriptionId) (hq : q.isFor d user plan) :
    q'.isFor d' user plan := by
  have ⟨s, hm, hi, hu, hp⟩ : ∃ s ∈ d.subscriptions.rows, s.id = q.subscriptionId ∧ s.userId = user ∧
    s.planId = plan := by simpa [UsageQuota.isFor] using hq
  have ⟨s', hm', hi', hu', hp'⟩ := h.subscriptions s hm
  refine List.any_eq_true.mpr ⟨s', hm', ?_⟩
  simp [hi', hu', hp', hi, hu, hp, hs]

theorem usage_le (h : Accumulates d d') (user plan : Uuid) (limit : Nat) :
    usage d user plan limit ≤ usage d' user plan limit := by
  apply Table.sum_le_sum
  intro q hq
  have ⟨q', hm, hi, hs, hu⟩ := h.quotas q hq
  refine ⟨q', hm, congrArg Key.usageQuota hi, ?_⟩
  unfold UsageQuota.countedFor
  split
  case isFalse    => exact Nat.zero_le _
  case isTrue hf  =>
    rw [if_pos <| h.isFor hs hf]
    exact min_le_min_right _ hu

end Accumulates

section Accepted

variable {d d' : Database} {user plan : Uuid} {limit : Nat} {s : LoadedSubscription} {r : Recording}

-- The quota which is counted up is the only one that changes.
theorem usage_put {q : UsageQuota} (hq : q ∈ d.quotas) (hf : q.isFor d user plan)
    (hl : q.requestsUsed < limit) :
    usage (d.put <| .usageQuota { q with requestsUsed := q.requestsUsed + 1 }) user plan limit =
      usage d user plan limit + 1 := by
  have hs := Table.sum_put_old (n := { q with requestsUsed := q.requestsUsed + 1 })
    (·.countedFor d user plan limit) hq rfl
  have h : q.countedFor d user plan limit = q.requestsUsed :=
    (if_pos hf).trans <| min_eq_left hl.le
  have h' : ({ q with requestsUsed := q.requestsUsed + 1 } : UsageQuota).countedFor d user plan limit =
    q.requestsUsed + 1 := (if_pos hf).trans <| min_eq_left hl
  rw [h, h'] at hs
  exact Nat.add_right_cancel <| hs.trans <| Nat.add_right_comm _ _ 1

-- A request that is charged to a subscription adds to its usage.
theorem usage_charge (hs : getActiveSubscription d user = some s) (hl : 0 < s.plan.requestQuota)
    (h : (charge s r).run d = (.ok (), d')) :
    usage d user s.planId s.plan.requestQuota + 1 ≤ usage d' user s.planId s.plan.requestQuota := by
  have ⟨d₁, q, hr, ho, hd⟩ := charge_run_eq_ok h
  have ⟨hq, hi, hsub, _⟩ := currentOrRotateQuota_run_eq_ok hr
  have ha : Accumulates d d₁ := by
    simpa [hr] using (currentOrRotateQuota_maintains (fun _ _ => Accumulates.of_bills) s r).related d
  have ⟨hm, hu, _⟩ := getActiveSubscription_eq_some hs
  have hf : q.isFor d₁ user s.planId :=
    List.any_eq_true.mpr ⟨s.toSubscription, hsub ▸ hm, by simp [hi, hu]⟩
  have hlt : q.requestsUsed < s.plan.requestQuota := by
    simp only [isOverLimit, decide_eq_true_eq, not_and, not_le] at ho
    exact ho <| by omega
  rw [hd, usage_put hq hf hlt]
  exact Nat.succ_le_succ <| ha.usage_le ..

-- A request that is accepted is charged to what is then the active subscription.
theorem recordRequest_run_eq_ok (h : (recordRequest user r).run d = (.ok (), d')) :
    ∃ s d₁, Accumulates d d₁ ∧ getActiveSubscription d₁ user = some s ∧
      getActiveSubscription d' user = some s ∧ (charge s r).run d₁ = (.ok (), d') := by
  have hc : ∀ s d₁, getActiveSubscription d₁ user = some s → (charge s r).run d₁ = (.ok (), d') →
      getActiveSubscription d' user = some s := by
    intro s d₁ hs h
    have ⟨d₂, q, hr, _, hd⟩ := charge_run_eq_ok h
    have ⟨_, _, hs', hp'⟩ := currentOrRotateQuota_run_eq_ok hr
    have hd := (congrArg (getActiveSubscription · user) hd).trans <|
      getActiveSubscription_congr (d := d₁) hs' hp' user
    exact hd.trans hs
  have ⟨sub, d₁, h₁, h⟩ := run_bind_eq_ok.mp h
  have ⟨hs, h₁⟩ := run_select_eq_ok.mp h₁
  subst h₁
  cases sub
  case some s => exact ⟨s, d, Std.Refl.refl d, hs, hc s d hs h, h⟩
  case none   =>
    have ⟨s, d₁, h₁, h⟩ := run_bind_eq_ok.mp h
    have hs := enrollInFreePlan_run_eq_ok h₁
    refine ⟨s, d₁, ?_, hs, hc s d₁ hs h, h⟩
    simpa [h₁] using
      (enrollInFreePlan_maintains (fun _ _ => Accumulates.of_bills) user r.opening).related d

theorem UserCall.service_accumulates (user : Uuid) (c : UserCall) : (c.service user).Maintains Accumulates := by
  have h : ∀ d w, Bills w → Accepts d w → Accumulates d (d.put w.new) := fun _ _ => .of_bills
  cases c
  case recordRequest => exact recordRequest_maintains h ..
  case subscribe     => exact Maintains.bind (subscribe_maintains h ..) fun _ => Maintains.pure _
  case cancel        => exact Maintains.bind (cancel_maintains h ..) fun _ => Maintains.pure _

-- Each call adds at least as much to the usage of a plan as it is accepted for.
theorem usage_step (user : Uuid) {p : Plan} (hp : p ∈ d.plans) (hl : 0 < p.requestQuota) (c : UserCall) :
    (c.isAccepted user p.id d).toNat + usage d user p.id p.requestQuota ≤
      usage ((c.service user).run d).2 user p.id p.requestQuota := by
  have ha := (c.service_accumulates user).related d
  cases hc : c.isAccepted user p.id d
  case false => simpa using ha.usage_le ..
  case true  =>
    cases c <;> simp only [UserCall.isAccepted, Bool.false_eq_true] at hc
    case recordRequest r =>
      split at hc
      case h_2          => cases hc
      case h_1 d' hr    =>
        have ⟨s, d₁, ha, hs, hs', h⟩ := recordRequest_run_eq_ok hr
        have hi : s.planId = p.id := by simpa [hs'] using hc
        have ⟨_, _, _, hm, hk⟩ := getActiveSubscription_eq_some hs
        have he : s.plan = p :=
          Table.eq_of_key hm (ha.plans ▸ hp) <| congrArg Key.plan <| hk.trans hi
        have hle := ha.usage_le user p.id p.requestQuota
        have hch := usage_charge hs (he ▸ hl) h
        rw [hi, he] at hch
        have hd : ((UserCall.recordRequest r).service user).run d = (.ok (), d') := hr
        rw [hd, Bool.toNat_true]
        exact (Nat.add_comm ..).trans_le <| (Nat.succ_le_succ hle).trans hch

end Accepted

-- The usage of a plan is limited for each period.
theorem usage_le_periods (d : Database) (user plan : Uuid) (limit : Nat) :
    usage d user plan limit ≤ limit * (periods d user plan).length := by
  unfold usage periods
  induction d.quotas.rows
  case nil          => exact Nat.zero_le _
  case cons q qs hi =>
    have hm : min q.requestsUsed limit ≤ limit := min_le_right ..
    cases hq : q.isFor d user plan <;> simp [UsageQuota.countedFor, hq, Nat.mul_add] at hi ⊢ <;> omega

open UserCall

section Example

-- The `n`th call takes ids of its own. All calls happen on the same day.
def exampleOpening (n : Nat) : Opening :=
  ⟨.midnight 739000, 2 * n, 2 * n⟩

def exampleRecording (n : Nat) : Recording :=
  ⟨exampleOpening n, .midnight 739000, .midnight 739000, 2 * n + 1⟩

end Example
end SaasBackend
