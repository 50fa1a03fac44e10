import SaasBackend.ReadCommitted.Phases
import SaasBackend.Subscriptions.Seed
import SaasBackend.Subscriptions.Serial

open Calendar ReadCommitted ReadCommitted.Service
open scoped Finset

namespace SaasBackend

open Service

-- How far a call of `record_request` has got: it has not compared the usage with the limit yet, it
-- has found the usage below the limit and is about to count the request, or it has ended.
inductive ChargePhase
  | reading
  | passed
  | returned
  | raised
  deriving DecidableEq

-- The states of a call that is charged to the quota `q` of the subscription `s`.
inductive Charging (user : Uuid) (s : LoadedSubscription) (q : UsageQuota) (r : Recording) :
    Session Database Write Exn Unit → ChargePhase → Prop
  | start     : Charging user s q r ⟨(recordRequest user r).program, []⟩ .reading
  | loaded    : Charging user s q r ⟨(charge s r).program, []⟩ .reading
  | passed    : Charging user s q r ⟨(incrementUsage q).program, []⟩ .passed
  | returned  : Charging user s q r ⟨.ret (), []⟩ .returned
  | raised e  : Charging user s q r ⟨.raise e, []⟩ .raised

-- The database once `n` more requests were counted.
def counted (d : Database) (q : UsageQuota) (n : Nat) : Database :=
  d.put <| .usageQuota { q with requestsUsed := q.requestsUsed + n }

section Counted

variable {d : Database} {user : Uuid} {s : LoadedSubscription} {q : UsageQuota} {r : Recording}

theorem counted_zero (h : q ∈ d.quotas) : counted d q 0 = d :=
  congrArg (fun t => { d with quotas := t }) <| Table.put_of_mem h

theorem getActiveSubscription_counted (h : getActiveSubscription d user = some s) (n : Nat) :
    getActiveSubscription (counted d q n) user = some s :=
  (getActiveSubscription_congr rfl rfl user).trans h

theorem getCurrentQuota_counted {now : Instant} (h : getCurrentQuota d s.id now = some q) (n : Nat) :
    getCurrentQuota (counted d q n) s.id now =
      some { q with requestsUsed := q.requestsUsed + n } :=
  getCurrentQuota_put h rfl rfl rfl rfl

theorem put_counted (n m : Nat) :
    (counted d q n).put (.usageQuota { q with requestsUsed := q.requestsUsed + m }) =
      counted d q m := by
  have h := d.quotas.put_put (a := { q with requestsUsed := q.requestsUsed + n })
    (b := { q with requestsUsed := q.requestsUsed + m }) rfl
  exact congrArg (fun t => { d with quotas := t }) h

theorem advance_recordRequest (h : getActiveSubscription d user = some s) :
    Session.advance ⟨(recordRequest user r).program, []⟩ d = (d, ⟨(charge s r).program, []⟩) := by
  rw [recordRequest, Session.advance_select, h]

theorem advance_charge (h : getCurrentQuota d s.id r.now = some q) :
    Session.advance ⟨(charge s r).program, []⟩ d =
      (d, ⟨if isOverLimit s.plan.requestQuota q.requestsUsed then
            .raise <| quotaExceeded s.plan q.requestsUsed
          else (incrementUsage q).program, []⟩) := by
  rw [charge, currentOrRotateQuota, bind_assoc, Session.advance_select, h, pure_bind]
  split <;> rfl

theorem advance_incrementUsage_counted (n : Nat) :
    Session.advance ⟨(incrementUsage q).program, []⟩ (counted d q n) =
      (counted d q (n + 1), ⟨.ret (), []⟩) := by
  have hm : { q with requestsUsed := q.requestsUsed + n } ∈ (counted d q n).quotas :=
    Table.mem_put_self ..
  exact (advance_incrementUsage hm).trans <| congrArg (·, _) <| put_counted n (n + 1)

end Counted

namespace Charging

variable {d : Database} {user : Uuid} {s : LoadedSubscription} {q : UsageQuota} {r : Recording}
  {ses : Session Database Write Exn Unit} {x : ChargePhase}

-- What a call may do next.
inductive Advances (d : Database) (q : UsageQuota) (n : Nat) :
    ChargePhase → ChargePhase → Database → Prop
  | stay x  : Advances d q n x x (counted d q n)
  | pass    : Advances d q n .reading .passed (counted d q n)
  | refuse  : Advances d q n .reading .raised (counted d q n)
  | fail    : Advances d q n .passed .raised (counted d q n)
  | count   : Advances d q n .passed .returned (counted d q (n + 1))

theorem Advances.db_of_passed {db : Database} {n : Nat} (h : Advances d q n .reading .passed db) :
    db = counted d q n := by
  cases h
  rfl

theorem advance (hs : getActiveSubscription d user = some s)
    (hq : getCurrentQuota d s.id r.now = some q) (h : Charging user s q r ses x) (n : Nat) :
    ∃ y, Charging user s q r (ses.advance (counted d q n)).2 y ∧
      Advances d q n x y (ses.advance (counted d q n)).1 := by
  cases h
  case start =>
    rw [advance_recordRequest <| getActiveSubscription_counted hs n]
    exact ⟨_, .loaded, .stay _⟩
  case loaded =>
    rw [advance_charge <| getCurrentQuota_counted hq n]
    split
    case isTrue   => exact ⟨_, .raised _, .refuse⟩
    case isFalse  => exact ⟨_, .passed, .pass⟩
  case passed =>
    rw [advance_incrementUsage_counted]
    exact ⟨_, .returned, .count⟩
  case returned => exact ⟨_, .returned, .stay _⟩
  case raised e => exact ⟨_, .raised e, .stay _⟩

theorem fails (h : Charging user s q r ses x) (e : Exn) (n : Nat) :
    ∃ y, Charging user s q r (ses.fails e) y ∧ (y = x ∨ y = .raised) ∧
      Advances d q n x y (counted d q n) := by
  cases h
  case start    => exact ⟨_, .raised e, .inr rfl, .refuse⟩
  case loaded   => exact ⟨_, .raised e, .inr rfl, .refuse⟩
  case passed   => exact ⟨_, .raised e, .inr rfl, .fail⟩
  case returned => exact ⟨_, .returned, .inl rfl, .stay _⟩
  case raised e => exact ⟨_, .raised e, .inl rfl, .stay _⟩

theorem returned_iff (h : Charging user s q r ses x) : ses.program = .ret () ↔ x = .returned := by
  cases h
  case returned => exact iff_of_true rfl rfl
  all_goals exact ⟨nofun, nofun⟩

-- A call only writes once it has found the usage below the limit.
theorem engaged_iff (h : Charging user s q r ses x) (n : Nat) :
    ses.next (counted d q n) ≠ [] ∨ ses.pending ≠ [] ↔ x = .passed := by
  cases h
  case passed =>
    have hn : Session.next (⟨(incrementUsage q).program, []⟩ : Session Database Write Exn Unit)
      (counted d q n) = (assign Database.quotas .usageQuota (.usageQuota q.id)
        (fun q => { q with requestsUsed := q.requestsUsed + 1 }) (counted d q n)).toList := rfl
    have hl : (counted d q n).quotas.lookup (.usageQuota q.id) =
      some { q with requestsUsed := q.requestsUsed + n } := Table.lookup_put_self _ _
    simp [hn, assign, hl]
  all_goals exact iff_of_false (fun h => h.elim (· rfl) (· rfl)) (by simp)

end Charging

section System

open System

variable {ι : Type} [Fintype ι] [DecidableEq ι]

-- A call only finds the usage of the quota below the limit while there is room for it, besides those
-- calls which have done so before and are still about to count their request.
def LeavesRoom (q : UsageQuota) (limit : Nat) (σ : Backend ι Unit) (a : Action ι Exn) : Prop :=
  ∀ i, ¬σ.Engaged i → (σ.step a).Engaged i →
    ∀ q' ∈ σ.db.quotas, q'.id = q.id → q'.requestsUsed + #{j | σ.Engaged j} < limit

instance (q : UsageQuota) (limit : Nat) (σ : Backend ι Unit) (a : Action ι Exn) :
    Decidable (LeavesRoom q limit σ a) :=
  inferInstanceAs <| Decidable (∀ _, _)

-- The quota has counted the requests which have been accepted, and there is room for those which are
-- about to be counted.
structure Accounted (d : Database) (user : Uuid) (s : LoadedSubscription) (q : UsageQuota)
    (rs : ι → Recording) (σ : Backend ι Unit) (phase : ι → ChargePhase) : Prop where
  phases : σ.InPhase (fun i => Charging user s q (rs i)) phase
  db     : σ.db = counted d q (count phase .returned)
  bound  : q.requestsUsed + count phase .returned + count phase .passed ≤ s.plan.requestQuota

namespace Accounted

variable {d : Database} {user : Uuid} {s : LoadedSubscription} {q : UsageQuota} {rs : ι → Recording}
  {σ : Backend ι Unit} {phase : ι → ChargePhase}

omit [DecidableEq ι] in
theorem start (hq : q ∈ d.quotas) (hu : q.requestsUsed ≤ s.plan.requestQuota) :
    Accounted d user s q rs (.start d fun i => recordRequest user (rs i)) fun _ => .reading where
  phases _ := .start
  db       := by simp [System.start, count, counted_zero hq]
  bound    := by simpa [count] using hu

omit [DecidableEq ι] in
theorem engaged_iff (h : Accounted d user s q rs σ phase) (i : ι) :
    σ.Engaged i ↔ phase i = .passed := by
  rw [Engaged, h.db]
  exact (h.phases i).engaged_iff _

omit [DecidableEq ι] in
theorem returned_card (h : Accounted d user s q rs σ phase) :
    #{i | σ.Returned i ()} = count phase .returned :=
  congrArg Finset.card <| Finset.filter_congr fun i _ => (h.phases i).returned_iff

theorem room (h : Accounted d user s q rs σ phase) {i : ι} {a : Action ι Exn}
    (hr : LeavesRoom q s.plan.requestQuota σ a) (hi : phase i ≠ .passed)
    (ha : (σ.step a).Engaged i) :
    q.requestsUsed + count phase .returned + count phase .passed < s.plan.requestQuota := by
  have he : #{j | σ.Engaged j} = count phase .passed :=
    congrArg Finset.card <| Finset.filter_congr fun j _ => h.engaged_iff j
  have hm : { q with requestsUsed := q.requestsUsed + count phase .returned } ∈ σ.db.quotas :=
    h.db ▸ Table.mem_put_self ..
  exact he ▸ hr i (mt (h.engaged_iff i).mp hi) ha _ hm rfl

-- One session changes its phase.
theorem update (h : Accounted d user s q rs σ phase) {i : ι} {ses : Session Database Write Exn Unit}
    {y : ChargePhase} {db : Database} (hc : Charging user s q (rs i) ses y)
    (ha : Charging.Advances d q (count phase .returned) (phase i) y db)
    (hp : phase i = .reading → y = .passed →
      q.requestsUsed + count phase .returned + count phase .passed < s.plan.requestQuota) :
    Accounted d user s q rs ⟨db, Function.update σ.session i ses⟩ (Function.update phase i y) := by
  have h₁ := count_update phase i .returned y
  have h₂ := count_update phase i .passed y
  have hb := h.bound
  generalize hx : phase i = x at ha hp h₁ h₂
  refine ⟨h.phases.update hc, ?_, ?_⟩
  · cases ha <;> simp at h₁ ⊢ <;> simp [h₁]
  · cases ha <;> simp at h₁ h₂ hp <;> omega

theorem step (hs : getActiveSubscription d user = some s)
    (hq : ∀ i, getCurrentQuota d s.id (rs i).now = some q) (h : Accounted d user s q rs σ phase)
    {a : Action ι Exn} (hr : LeavesRoom q s.plan.requestQuota σ a) :
    ∃ phase, Accounted d user s q rs (σ.step a) phase := by
  cases step_cases (σ := σ) a
  case inl ha => exact ⟨phase, ha.symm ▸ h⟩
  case inr ha =>
    cases ha
    case inl ha =>
      have ⟨i, _, _, ha⟩ := ha
      have ⟨y, hc, hy⟩ := (h.phases i).advance hs (hq i) (count phase .returned)
      rw [←h.db] at hc hy
      rw [ha]
      refine ⟨_, h.update hc hy fun hi hp => h.room hr (i := i) (by simp [hi]) ?_⟩
      have hd := Charging.Advances.db_of_passed <| hp ▸ hi ▸ hy
      rw [ha]
      simp only [Engaged, Function.update_self, hd]
      exact (hc.engaged_iff _).mpr hp
    case inr ha =>
      have ⟨i, e, _, ha⟩ := ha
      have ⟨y, hc, hr, hy⟩ := (h.phases i).fails (d := d) e (count phase .returned)
      rw [ha, h.db]
      refine ⟨_, h.update hc hy fun hi hp => ?_⟩
      cases hr <;> simp_all

end Accounted

-- The limit is kept in every interleaving of calls which leaves room for the requests that are about
-- to be counted.
theorem quota_kept (d : Database) (user : Uuid) (s : LoadedSubscription) (q : UsageQuota)
    (rs : ι → Recording) (as : List (Action ι Exn)) (hs : getActiveSubscription d user = some s)
    (hq : q ∈ d.quotas) (hc : ∀ i, getCurrentQuota d s.id (rs i).now = some q)
    (hu : q.requestsUsed ≤ s.plan.requestQuota)
    (hr : Along (LeavesRoom q s.plan.requestQuota)
      (.start d fun i => recordRequest user (rs i)) as) :
    let σ := (System.start d fun i => recordRequest user (rs i)).run as
    Finset.card {i | σ.Returned i ()} ≤ s.plan.requestQuota - q.requestsUsed ∧
    ∀ q' ∈ σ.db.quotas, q'.id = q.id → q'.requestsUsed ≤ s.plan.requestQuota := by
  intro σ
  have ⟨phase, h⟩ : ∃ phase, Accounted d user s q rs σ phase :=
    run_induction_along (P := fun σ => ∃ phase, Accounted d user s q rs σ phase) hr
      ⟨_, .start hq hu⟩ fun _ _ hr ⟨_, h⟩ => h.step hs hc hr
  have hb := h.bound
  constructor
  · rw [h.returned_card]
    omega
  · intro q' hq' hi
    rw [h.db] at hq'
    cases Table.mem_put.mp hq'
    case inl he => rw [he]; simp only; omega
    case inr hn => exact (hn.right <| congrArg Key.usageQuota hi).elim

end System

section Example

def exampleRecordings (_ : Fin 2) : Recording :=
  ⟨⟨.midnight 739000, 2, 2⟩, .midnight 739000, .midnight 739000, 3⟩

-- The second call looks at the quota only after the first one has counted its request.
theorem quota_kept_in_turn :
    let σ := (System.start Seed.enrolled fun i => recordRequest 1 (exampleRecordings i)).run
      [.go 0, .go 0, .go 0, .go 1, .go 1]
    Finset.card {i | σ.Returned i ()} ≤ 1 - 0 ∧ ∀ q' ∈ σ.db.quotas, q'.id = 1 → q'.requestsUsed ≤ 1 :=
  quota_kept Seed.enrolled 1 Seed.subscription Seed.quota exampleRecordings _ rfl (by decide)
    (fun _ => rfl) (by decide) (by decide)

-- Both calls find the quota unused before either of them has counted its request.
theorem quota_overrun :
    getActiveSubscription Seed.enrolled 1 = some Seed.subscription ∧
    (∀ i, getCurrentQuota Seed.enrolled 1 (exampleRecordings i).now = some Seed.quota) ∧
    let σ := (System.start Seed.enrolled fun i => recordRequest 1 (exampleRecordings i)).run
      [.go 0, .go 0, .go 1, .go 1, .go 0, .go 1]
    ¬(Finset.card {i | σ.Returned i ()} ≤ 1 - 0 ∧ ∀ q' ∈ σ.db.quotas, q'.id = 1 → q'.requestsUsed ≤ 1) :=
  ⟨rfl, fun _ => rfl, by decide⟩

end Example
end SaasBackend
