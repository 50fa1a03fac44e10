import SaasBackend.Deployment.Finality
import SaasBackend.ReadCommitted.Restriction
import SaasBackend.Subscriptions.Baseline

open Calendar ReadCommitted ReadCommitted.Service

namespace SaasBackend

open Service

-- No user is added.
def AddsNoUser (d d' : Database) : Prop :=
  ∀ u ∈ d'.users, ∃ u₀ ∈ d.users, u₀.id = u.id

-- Subscriptions develop, and whoever is added as a user has one.
structure Sustains (d d' : Database) : Prop where
  develops : Develops d d'
  enrolls  : ∀ u ∈ d'.users, (∃ u₀ ∈ d.users, u₀.id = u.id) ∨ ∃ s ∈ d'.subscriptions, s.userId = u.id

instance : Std.Refl AddsNoUser where
  refl _ u hu := ⟨u, hu, rfl⟩

instance : IsTrans Database AddsNoUser where
  trans _ _ _ h₁ h₂ u hu :=
    have ⟨u₁, hu₁, hi₁⟩ := h₂ u hu
    have ⟨u₀, hu₀, hi₀⟩ := h₁ u₁ hu₁
    ⟨u₀, hu₀, hi₀.trans hi₁⟩

instance : Std.Refl Sustains where
  refl d := ⟨Std.Refl.refl d, fun u hu => .inl ⟨u, hu, rfl⟩⟩

instance : IsTrans Database Sustains where
  trans _ _ _ h₁ h₂ := by
    refine ⟨Trans.trans h₁.develops h₂.develops, fun u hu => ?_⟩
    cases h₂.enrolls u hu
    case inr hs => exact .inr hs
    case inl hu =>
      obtain ⟨u₁, hu₁, hi⟩ := hu
      cases h₁.enrolls u₁ hu₁
      case inl hu =>
        obtain ⟨u₀, hu₀, hi₀⟩ := hu
        exact .inl ⟨u₀, hu₀, hi₀.trans hi⟩
      case inr hs =>
        obtain ⟨s, hs, hu⟩ := hs
        have ⟨s', hs', _, hu'⟩ := h₂.develops.persist s hs
        exact .inr ⟨s', hs', hu'.trans <| hu.trans hi⟩

section Writes

variable {S : Uuid → String → Prop} {f : Footprint} {d : Database} {w : Write}

theorem Advances.addsNoUser (h : Advances S f w) (hf : .users ∉ f.inserts) (ha : Accepts d w) :
    AddsNoUser d (d.put w.new) := by
  obtain ⟨o, n⟩ := w
  cases n
  case user u =>
    intro u' hu'
    cases Table.mem_put.mp hu'
    case inr hm => exact ⟨u', hm.left, rfl⟩
    case inl he =>
      subst he
      cases o
      case none   => exact (hf <| h.inserts rfl).elim
      case some o =>
        have ⟨hm, hk⟩ := ha.old o rfl
        cases o
        case user u₀ => exact ⟨u₀, Database.user_mem_rows.mp hm, Key.user.inj hk⟩
        all_goals cases hk
  all_goals exact fun u hu => ⟨u, hu, rfl⟩

-- A footprint without users who are added, and without subscriptions and quotas.
def Footprint.isUnrelated (f : Footprint) : Bool :=
  f.inserts.all (· ∉ [TableName.users, .subscriptions, .usageQuotas]) &&
  f.updates.all (· ∉ [TableName.subscriptions, .usageQuotas])

theorem Advances.sustains (h : Advances S f w) (hf : f.isUnrelated) (ha : Accepts d w) :
    Sustains d (d.put w.new) := by
  have ⟨hi, hu⟩ := Bool.and_eq_true_iff.mp hf
  have hi : ∀ t ∈ f.inserts, t ≠ .users ∧ t ≠ .subscriptions ∧ t ≠ .usageQuotas := by simpa using hi
  have hu : ∀ t ∈ f.updates, t ≠ .subscriptions ∧ t ≠ .usageQuotas := by simpa using hu
  have hn : w.new.table ≠ .subscriptions ∧ w.new.table ≠ .usageQuotas := by
    by_cases ho : w.old = none
    case pos => exact (hi _ <| h.inserts ho).right
    case neg => exact hu _ <| h.updates ho
  refine ⟨?_, fun u hu => .inl <| h.addsNoUser (fun hm => (hi _ hm).left rfl) ha u hu⟩
  obtain ⟨o, n⟩ := w
  cases n
  case subscription => exact (hn.left rfl).elim
  case usageQuota   => exact (hn.right rfl).elim
  all_goals exact Develops.of_eq rfl fun q hq => ⟨q, hq, rfl⟩

end Writes

section Keeps

variable {S : Uuid → String → Prop} {f : Footprint} {d₀ d : Database} {α : Type} {s : Service α}

theorem sustains_of_unrelated (hs : s.Issues (Advances S f)) (hf : f.isUnrelated) :
    s.Keeps Sustains d₀ (fun _ _ _ => True) [] d :=
  hs.keeps fun _ _ hw ha => hw.sustains hf ha

theorem sustains_of_develops (h : s.Keeps Develops d (fun _ _ _ => True) [] d)
    (hs : s.Issues (Advances S f)) (hf : .users ∉ f.inserts) :
    s.Keeps Sustains d₀ (fun _ _ _ => True) [] d := by
  refine h.restrict hs (fun _ _ h => h.develops) fun d ps hv hn hd => ⟨hd, fun u hu => .inl ?_⟩
  exact hv.related (fun _ _ hw ha => hw.addsNoUser hf ha) hn u hu

theorem discard_keeps {P : Database → Database → Prop} (h : s.Keeps P d₀ (fun _ _ _ => True) [] d) :
    (discard s : Service Unit).Keeps P d₀ (fun _ _ _ => True) [] d :=
  Keeps.bind <| h.mono fun _ _ _ _ _ => Keeps.pure trivial

end Keeps

section Registration

variable {P : Database → Database → Prop} [Std.Refl P] [IsTrans Database P] {d₀ d : Database}
  {fs : List (List Write)} {f : List Write}

-- The writes by which a user is registered.
def Registers (ws : List Write) : Prop :=
  ∃ (u : User) (us : List Write) (t : EmailVerificationToken), Opens u.id us ∧
    ws = ⟨none, .user u⟩ :: (us ++ [⟨none, .verificationToken t⟩])

theorem createUser_keeps (p : Platform) (email password firstName lastName : String) (role : UserRole)
    (e : Enrollment) :
    (createUser p email password firstName lastName role e).Keeps P d₀
      (fun _ fs' _ => ∃ (u : User) (ws : List Write), Opens u.id ws ∧ fs' = (f ++ ⟨none, .user u⟩ :: ws) :: fs)
      (f :: fs) d := by
  apply Keeps.atomic_inner
  apply Keeps.bind
  apply Keeps.select
  intro d₁ _ _
  split
  case h_1 => exact Keeps.raise
  case h_2 =>
    unfold UserManager.createUser
    split
    case isTrue   => exact Keeps.bind Keeps.raise
    case isFalse  =>
      refine Keeps.bind <| Keeps.bind <| Keeps.create fun d₂ _ _ => Keeps.pure <| Keeps.bind ?_
      refine (enrollInFreePlan_keeps ..).mono fun _ fs₁ d₃ _ hw => Keeps.pure fun g f' fs₂ hfs => ?_
      obtain ⟨ws, ho, he⟩ := hw
      exact ⟨_, ws, ho, by simp_all⟩

theorem issueVerificationToken_keeps (user : Uuid) (i : TokenIssue) :
    (issueVerificationToken user i).Keeps P d₀
      (fun _ fs' _ => ∃ t : EmailVerificationToken, fs' = (f ++ [⟨none, .verificationToken t⟩]) :: fs)
      (f :: fs) d := by
  refine Keeps.bind <| Keeps.bind <| Keeps.ofExcept fun _ _ => Keeps.bind <| Keeps.create fun d₁ _ _ => ?_
  exact Keeps.pure <| Keeps.bind <| Keeps.select fun d₂ _ _ => Keeps.pure ⟨_, rfl⟩

theorem registerUser_keeps (p : Platform) (email password firstName lastName : String) (e : Enrollment)
    (i : TokenIssue) (h : ∀ d ws, Registers ws → Valid d ws → P d (Store.applyAll d ws)) :
    (registerUser p email password firstName lastName e i).Keeps P d₀ (fun _ _ _ => True) [] d := by
  refine Keeps.atomic <| Keeps.bind <| (createUser_keeps ..).mono fun u fs₁ d₁ _ hw => ?_
  obtain ⟨u, ws, ho, hfs⟩ := hw
  subst hfs
  refine Keeps.bind <| (issueVerificationToken_keeps ..).mono fun _ fs₂ d₂ _ ht => ?_
  obtain ⟨t, hfs⟩ := ht
  subst hfs
  refine Keeps.pure fun f' hf d' _ hv => ⟨h d' f' ⟨u, ws, t, ho, ?_⟩ hv, trivial⟩
  simpa using (List.cons.inj hf).left.symm

theorem Registers.sustains {ws : List Write} (h : Registers ws) (hv : Valid d ws) :
    Sustains d (Store.applyAll d ws) := by
  obtain ⟨u, us, t, ho, rfl⟩ := h
  let d₁ := d.put (.user u)
  let d₂ := Store.applyAll d₁ us
  have hv₁ : Valid d₁ us := (Valid.append.mp hv.right).left
  have he : Store.applyAll d (⟨none, .user u⟩ :: (us ++ [⟨none, .verificationToken t⟩])) =
      d₂.put (.verificationToken t) := Store.applyAll_append d₁ us _
  have hd₁ : Develops d d₁ := Develops.of_eq rfl fun q hq => ⟨q, hq, rfl⟩
  have hd₂ : Develops d₁ d₂ := Develops.of_opens ho hv₁
  have hd₃ : Develops d₂ (d₂.put <| .verificationToken t) := Develops.of_eq rfl fun q hq => ⟨q, hq, rfl⟩
  obtain ⟨s, q, hw, hs, -, -⟩ := ho
  subst hw
  rw [he]
  refine ⟨Trans.trans hd₁ <| Trans.trans hd₂ hd₃, fun u' hu' => ?_⟩
  have hu' : u' ∈ d.users.put u := hu'
  cases Table.mem_put.mp hu'
  case inr hm => exact .inl ⟨u', hm.left, rfl⟩
  case inl he =>
    have hm : s ∈ (d₂.put <| .verificationToken t).subscriptions := Table.mem_put_self ..
    exact .inr ⟨s, hm, he ▸ hs⟩

end Registration

section Runs

variable {ι : Type} [Fintype ι] [DecidableEq ι]

theorem Operation.sustains (p : Platform) (o : Operation) {d₀ d : Database} :
    (o.service p).Keeps Sustains d₀ (fun _ _ _ => True) [] d := by
  cases o
  case register               =>
    refine discard_keeps <| Keeps.bind <| Keeps.ofExcept fun data _ => ?_
    exact registerUser_keeps _ _ _ _ _ _ _ fun _ _ hw hv => hw.sustains hv
  case subscribe              =>
    exact discard_keeps <| sustains_of_develops (subscribe_develops ..)
      (subscribe_advances (S := fun _ _ => True) ..) (by simp)
  case cancel                 =>
    exact discard_keeps <| sustains_of_develops (cancel_develops ..)
      (cancel_advances (S := fun _ _ => True) ..) (by simp)
  case recordRequest          =>
    exact sustains_of_develops (recordRequest_develops ..) (recordRequest_advances (S := fun _ _ => True) ..) (by simp)
  case expireDueSubscriptions =>
    refine sustains_of_develops (discard_keeps <| expireDueSubscriptions_develops ..)
      (Operation.advances p <| .expireDueSubscriptions ..) (by simp [Operation.footprint])
  all_goals exact sustains_of_unrelated (Operation.advances p _) rfl

-- In every committed state, every user has exactly one active subscription, and it has a quota.
theorem every_account_served (p : Platform) (d : Database) (hb : Baseline d)
    (he : ∀ u ∈ d.users, ∃ s ∈ d.subscriptions, s.userId = u.id) (os : ι → Operation)
    (as : List (Action ι Exn)) :
    let d' := ((operating p d os).run as).db
    ∀ u ∈ d'.users, ∃ s ∈ d'.subscriptions, s.userId = u.id ∧ s.status = .active ∧
      (∀ s' ∈ d'.subscriptions, s'.userId = u.id → s'.status = .active → s' = s) ∧
      ∃ q ∈ d'.quotas, q.subscriptionId = s.id := by
  intro d' u hu
  have hs : Sustains d d' := System.run_related (fun i => (os i).sustains p) [] as
  have hb' : Baseline d' := hs.develops.baseline hb
  have ⟨s₀, hs₀, hu₀⟩ : ∃ s ∈ d'.subscriptions, s.userId = u.id := by
    cases hs.enrolls u hu
    case inr h => exact h
    case inl h =>
      obtain ⟨u₀, hu₀, hi⟩ := h
      have ⟨s₀, hs₀, hs⟩ := he u₀ hu₀
      have ⟨s, hs', _, hu'⟩ := Develops.persist ‹Sustains d d'›.develops s₀ hs₀
      exact ⟨s, hs', hu'.trans <| hs.trans hi⟩
  have ⟨s, hs, hsu, ha⟩ := hb'.served s₀ hs₀
  have hsu := hsu.trans hu₀
  exact ⟨s, hs, hsu, ha, fun s' h' hu' ha' => hb'.unique s' h' s hs (hu'.trans hsu.symm) ha' ha,
    hb'.counted s hs⟩

section Example

-- An address is registered twice at the same time.
def exampleRegistrations (i : Bool) : Operation :=
  .register ⟨"new@example.com", "s3cret-word", none, none⟩ ⟨if i then 5 else 6, ⟨.midnight 739000, 1, 1⟩⟩
    ⟨if i then "token" else "other", if i then 5 else 6, .midnight 739000⟩

theorem registered_account_served :
    let d' := ((operating .ascii { Seed.database with subscriptions := .empty, users := .empty }
      exampleRegistrations).run (.replicate 3 (.go false) ++ .replicate 20 (.go true))).db
    ∃ s ∈ d'.subscriptions, s.userId = 5 ∧ s.status = .active ∧
      (∀ s' ∈ d'.subscriptions, s'.userId = 5 → s'.status = .active → s' = s) ∧
      ∃ q ∈ d'.quotas, q.subscriptionId = s.id := by
  refine every_account_served .ascii { Seed.database with subscriptions := .empty, users := .empty }
    (.of_no_subscriptions Table.not_mem_empty) (fun u hu => (Table.not_mem_empty u hu).elim) exampleRegistrations _
    (UserManager.newUser .ascii "new@example.com" "s3cret-word" "" "" .customer 5) ?_
  decide +kernel

end Example

end Runs
end SaasBackend
