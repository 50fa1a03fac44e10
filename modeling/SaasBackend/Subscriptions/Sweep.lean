import SaasBackend.Subscriptions.Lifetimes

open Calendar ReadCommitted ReadCommitted.Service

namespace SaasBackend

open Service

def lapsed (s : Subscription) : Subscription :=
  { s with status := .expired }

-- The subscription `s` has expired, and `new` is the only active one of its user.
structure Moved (d d' : Database) (s new : LoadedSubscription) : Prop where
  expired : lapsed s.toSubscription ∈ d'.subscriptions
  plan    : new.plan ∈ d.plans ∧ new.plan.slug = PlanSlug.free ∧ new.planId = new.plan.id
  owned   : new.userId = s.userId ∧ new.status = .active ∧ new.expiresAt = none
  unknown : ∀ r ∈ d.subscriptions, r.id ≠ new.id
  rows    : ∀ r, r.userId = s.userId → (r ∈ d'.subscriptions ↔
              r = new.toSubscription ∨ ∃ r₀ ∈ d.subscriptions, r = endActive s.userId lapsed r₀)
  only    : ∀ r ∈ d'.subscriptions, r.userId = s.userId → r.status = .active → r = new.toSubscription
  quota   : ∃ q ∈ d'.quotas, q ∉ d.quotas ∧ q.subscriptionId = new.id ∧ q.requestsUsed = 0 ∧
              q.periodStart = new.startedAt

-- Nothing changes besides the subscriptions of some users, and quotas are only added along with
-- subscriptions.
structure SweepFrame (users : Uuid → Prop) (d d' : Database) : Prop where
  subscriptions : ∀ r, ¬users r.userId → (r ∈ d'.subscriptions ↔ r ∈ d.subscriptions)
  known         : ∀ r ∈ d.subscriptions, ∃ r' ∈ d'.subscriptions, r'.id = r.id
  quotas        : ∀ q ∈ d.quotas, q ∈ d'.quotas
  fresh         : ∀ q ∈ d'.quotas, q ∈ d.quotas ∨
                    ∃ r ∈ d'.subscriptions, r.id = q.subscriptionId ∧ ∀ r₀ ∈ d.subscriptions, r₀.id ≠ r.id
  others        : d' = { d with subscriptions := d'.subscriptions, quotas := d'.quotas }

namespace SweepFrame

variable {users users₁ users₂ : Uuid → Prop} {d d₁ d' : Database}

theorem refl (users : Uuid → Prop) (d : Database) : SweepFrame users d d where
  subscriptions _ _ := .rfl
  known r hr        := ⟨r, hr, rfl⟩
  quotas _          := id
  fresh _           := .inl
  others            := rfl

theorem trans (h₁ : SweepFrame users₁ d d₁) (h₂ : SweepFrame users₂ d₁ d')
    (hu₁ : ∀ u, users₁ u → users u) (hu₂ : ∀ u, users₂ u → users u) : SweepFrame users d d' where
  subscriptions r hr := (h₂.subscriptions r <| mt (hu₂ _) hr).trans (h₁.subscriptions r <| mt (hu₁ _) hr)
  known r hr := by
    obtain ⟨r₁, hr₁, hi₁⟩ := h₁.known r hr
    obtain ⟨r₂, hr₂, hi₂⟩ := h₂.known r₁ hr₁
    exact ⟨r₂, hr₂, hi₂.trans hi₁⟩
  quotas q hq := h₂.quotas q <| h₁.quotas q hq
  fresh q hq := by
    cases h₂.fresh q hq
    case inr hq =>
      obtain ⟨r, hr, hi, hn⟩ := hq
      refine .inr ⟨r, hr, hi, fun r₀ hr₀ => ?_⟩
      obtain ⟨r₁, hr₁, hi₁⟩ := h₁.known r₀ hr₀
      exact hi₁ ▸ hn r₁ hr₁
    case inl hq =>
      refine (h₁.fresh q hq).imp_right fun hq => ?_
      obtain ⟨r, hr, hi, hn⟩ := hq
      obtain ⟨r', hr', hi'⟩ := h₂.known r hr
      exact ⟨r', hr', hi'.trans hi, fun r₀ hr₀ => hi' ▸ hn r₀ hr₀⟩
  others := by rw [h₂.others, h₁.others]

end SweepFrame

section Step

variable {d d' : Database} {s new : LoadedSubscription} {o : Opening}

theorem expireSubscription_run (hs : s.toSubscription ∈ d.subscriptions) (o : Opening) (n : Nat) :
    (expireSubscription s o n).run d =
      match (enrollInFreePlan s.userId o).run (d.put <| .subscription <| lapsed s.toSubscription) with
      | (.ok _, d')   => (.ok (n + 1), d')
      | (.error _, _) => (.ok n, d) := by
  have hl : d.subscriptions.lookup (.subscription s.id) = some s.toSubscription :=
    Table.lookup_eq_some.mpr ⟨hs, rfl⟩
  have hsave : (save Database.subscriptions .subscription (.subscription s.id) lapsed).run d =
      (.ok (), d.put <| .subscription <| lapsed s.toSubscription) :=
    run_save hl rfl <| by simp [Entity.entries, lapsed]
  have hb : (do
      save Database.subscriptions .subscription (.subscription s.id) lapsed
      let _ ← enrollInFreePlan s.userId o
      return n + 1).run d =
        match (enrollInFreePlan s.userId o).run (d.put <| .subscription <| lapsed s.toSubscription) with
        | (.ok _, d')    => (.ok (n + 1), d')
        | (.error e, d') => (.error e, d') := by
    refine (run_bind_of_ok hsave).trans ?_
    rw [run_bind]
    cases (enrollInFreePlan s.userId o).run (d.put <| .subscription <| lapsed s.toSubscription)
    case mk x _ => cases x <;> rfl
  have he : expireSubscription s o n = handle (atomic do
      save Database.subscriptions .subscription (.subscription s.id) lapsed
      let _ ← enrollInFreePlan s.userId o
      return n + 1) fun _ => return n := rfl
  rw [he, run_handle, run_atomic, hb]
  cases (enrollInFreePlan s.userId o).run (d.put <| .subscription <| lapsed s.toSubscription)
  case mk x _ => cases x <;> rfl

theorem enrollInFreePlan_switchesPlan (hs : s.toSubscription ∈ d.subscriptions) (ha : s.status = .active)
    (h : (enrollInFreePlan s.userId o).run (d.put <| .subscription <| lapsed s.toSubscription) = (.ok new, d')) :
    SwitchesPlan s.userId PlanSlug.free lapsed o new d d' ∧ new.expiresAt = none := by
  obtain ⟨plan, finish, periodEnd, hp, hn, ho⟩ := enrollInFreePlan_run_opened h
  subst hn
  have hi : ∀ r, (lapsed r).id = r.id := fun _ => rfl
  have hm := mem_of_ended hs rfl ha (hi _) fun r hr hu => ho.not_active hr hu
  exact ⟨ho.switchesPlan hp hi hm rfl, rfl⟩

theorem endActive_userId (user : Uuid) (r : Subscription) : (endActive user lapsed r).userId = r.userId := by
  unfold endActive
  split <;> rfl

theorem SwitchesPlan.sweepFrame (h : SwitchesPlan s.userId PlanSlug.free lapsed o new d d') :
    SweepFrame (· = s.userId) d d' := by
  obtain ⟨q, hqi, _, _, _, hq⟩ := h.quotas
  have hi : ∀ r, (lapsed r).id = r.id := fun _ => rfl
  constructor
  case subscriptions =>
    intro r hu
    rw [h.subscriptions]
    constructor
    case mp =>
      rintro (he | ⟨r₀, hr₀, he⟩)
      · exact (hu <| he ▸ h.owned.left).elim
      · have hu₀ : r₀.userId ≠ s.userId := fun hu₀ => hu <| by rw [he, endActive_userId, hu₀]
        rwa [he, endActive_of_not fun hu' => (hu₀ hu').elim]
    case mpr => exact fun hr => .inr ⟨r, hr, (endActive_of_not fun hu' => (hu hu').elim).symm⟩
  case known =>
    intro r hr
    exact ⟨_, (h.subscriptions _).mpr <| .inr ⟨r, hr, rfl⟩, endActive_id hi r⟩
  case quotas => exact fun q' hq' => (hq q').mpr <| .inr hq'
  case fresh =>
    intro q' hq'
    cases (hq q').mp hq'
    case inr hq' => exact .inl hq'
    case inl he  => exact .inr ⟨_, (h.subscriptions _).mpr <| .inl rfl, he ▸ hqi.symm, h.new⟩
  case others => exact h.others

-- What has become of a subscription is not affected by what is done for other users before and after.
theorem SwitchesPlan.moved {users₁ users₂ : Uuid → Prop} {d₁ d₂ : Database}
    (h₁ : SweepFrame users₁ d d₁) (h : SwitchesPlan s.userId PlanSlug.free lapsed o new d₁ d₂)
    (h₂ : SweepFrame users₂ d₂ d') (hs : s.toSubscription ∈ d₁.subscriptions) (ha : s.status = .active)
    (he : new.expiresAt = none) (hu₁ : ¬users₁ s.userId) (hu₂ : ¬users₂ s.userId) : Moved d d' s new := by
  have hr₁ : ∀ r, r.userId = s.userId → (r ∈ d₁.subscriptions ↔ r ∈ d.subscriptions) :=
    fun r hr => h₁.subscriptions r <| hr ▸ hu₁
  have hr₂ : ∀ r, r.userId = s.userId → (r ∈ d'.subscriptions ↔ r ∈ d₂.subscriptions) :=
    fun r hr => h₂.subscriptions r <| hr ▸ hu₂
  obtain ⟨q, hqi, hq₀, hqs, hqn, hq⟩ := h.quotas
  constructor
  case expired =>
    rw [hr₂ (lapsed s.toSubscription) rfl, h.subscriptions]
    exact .inr ⟨_, hs, (endActive_of_active rfl ha).symm⟩
  case plan =>
    obtain ⟨hp, hsl, _, hi⟩ := h.plan
    have hd : d₁.plans = d.plans := by rw [h₁.others]
    exact ⟨hd ▸ hp, hsl, hi⟩
  case owned    => exact ⟨h.owned.left, h.owned.right.left, he⟩
  case unknown  =>
    intro r hr
    obtain ⟨r₁, hr₁, hi⟩ := h₁.known r hr
    exact hi ▸ h.new r₁ hr₁
  case rows =>
    intro r hr
    rw [hr₂ r hr, h.subscriptions]
    refine or_congr_right <| exists_congr fun r₀ => and_congr_left fun he => hr₁ r₀ ?_
    rw [←endActive_userId s.userId r₀, ←he, hr]
  case only   => exact fun r hr hu => h.only r ((hr₂ r hu).mp hr) hu
  case quota  =>
    exact ⟨q, h₂.quotas q <| (hq q).mpr <| .inl rfl, fun hqd => hqn <| h₁.quotas q hqd, hqi, hq₀, hqs⟩

end Step

section Loop

variable {d d' : Database} {openings : Uuid → Opening} {subs : List LoadedSubscription}

-- A subscription which has not lapsed does not exist in another version.
theorem lapsed_not_mem {s : LoadedSubscription} (hs : s.toSubscription ∈ d.subscriptions)
    (ha : s.status = .active) : lapsed s.toSubscription ∉ d.subscriptions := by
  intro hl
  have he := Subscription.eq_of_id hl hs rfl
  exact nomatch (congrArg Subscription.status he).trans ha

-- Those subscriptions have expired whose user could be enrolled in the free plan.
theorem expireSubscriptions_run (openings : Uuid → Opening)
    (hs : ∀ s ∈ subs, s.toSubscription ∈ d.subscriptions ∧ s.status = .active)
    (hu : subs.Pairwise (·.userId ≠ ·.userId)) (n : Nat) :
    ∃ d', (expireSubscriptions openings subs n).run d =
        (.ok (n + subs.countP fun s => lapsed s.toSubscription ∈ d'.subscriptions), d') ∧
      SweepFrame (fun u => ∃ s ∈ subs, s.userId = u) d d' := by
  induction subs generalizing d n
  case nil                => exact ⟨d, rfl, .refl _ d⟩
  case cons s subs hi  =>
    obtain ⟨⟨hm, ha⟩, hs⟩ := List.forall_mem_cons.mp hs
    obtain ⟨hn, hu⟩ := List.pairwise_cons.mp hu
    have hn' : ¬∃ s' ∈ subs, s'.userId = s.userId := fun ⟨s', hs', he⟩ => hn s' hs' he.symm
    have hr := expireSubscription_run hm (openings s.id) n
    rw [expireSubscriptions]
    cases he : (enrollInFreePlan s.userId (openings s.id)).run (d.put <| .subscription <| lapsed s.toSubscription)
    case mk x d₁ =>
      cases x
      case error e  =>
        rw [he] at hr
        rw [run_bind_of_ok hr]
        obtain ⟨d', hd, hf⟩ := hi hs hu n
        have hl : lapsed s.toSubscription ∉ d'.subscriptions := by
          rw [hf.subscriptions (lapsed s.toSubscription) hn']
          exact lapsed_not_mem hm ha
        refine ⟨d', ?_, .trans (.refl _ d) hf (fun _ => id) ?_⟩
        · rw [hd, List.countP_cons_of_neg (by simpa using hl)]
        · exact fun u ⟨s', hs', he⟩ => ⟨s', List.mem_cons_of_mem _ hs', he⟩
      case ok new   =>
        rw [he] at hr
        rw [run_bind_of_ok hr]
        obtain ⟨hsw, hne⟩ := enrollInFreePlan_switchesPlan hm ha he
        have hf₁ := hsw.sweepFrame
        have hs₁ : ∀ s' ∈ subs, s'.toSubscription ∈ d₁.subscriptions ∧ s'.status = .active := fun s' hs' =>
          ⟨(hf₁.subscriptions _ fun he => hn s' hs' he.symm).mpr (hs s' hs').left, (hs s' hs').right⟩
        obtain ⟨d', hd, hf⟩ := hi hs₁ hu (n + 1)
        have hl : lapsed s.toSubscription ∈ d'.subscriptions := by
          rw [hf.subscriptions (lapsed s.toSubscription) hn', hsw.subscriptions]
          exact .inr ⟨_, hm, (endActive_of_active rfl ha).symm⟩
        refine ⟨d', ?_, hf₁.trans hf (fun u he => ⟨s, List.mem_cons_self, he.symm⟩) ?_⟩
        · rw [hd, List.countP_cons_of_pos (by simpa using hl)]
          simp only [Nat.add_assoc, Nat.add_comm 1]
        · exact fun u ⟨s', hs', he⟩ => ⟨s', List.mem_cons_of_mem _ hs', he⟩

theorem expireSubscriptions_append (openings : Uuid → Opening) (pre post : List LoadedSubscription)
    (n : Nat) :
    expireSubscriptions openings (pre ++ post) n =
      expireSubscriptions openings pre n >>= expireSubscriptions openings post := by
  induction pre generalizing n
  case nil          => rfl
  case cons s _ hi  => simp only [List.cons_append, expireSubscriptions, hi, bind_assoc]

theorem mem_dueSubscriptions_iff {now : Instant} {s : LoadedSubscription} :
    s ∈ dueSubscriptions d now ↔ s.toSubscription ∈ d.subscriptions ∧ s.status = .active ∧
      (∃ e, s.expiresAt = some e ∧ e ≤ now) ∧ s.plan ∈ d.plans ∧ s.plan.id = s.planId := by
  have he : ∀ r : Subscription, (r.expiresAt.any (· ≤ now)) = true ↔ ∃ e, r.expiresAt = some e ∧ e ≤ now := by
    intro r
    cases r.expiresAt <;> simp
  simp only [dueSubscriptions, List.mem_filterMap, List.mem_filter, decide_eq_true_eq, loadPlan_eq_some,
    Table.mem_rows, he]
  constructor
  case mp =>
    rintro ⟨r, ⟨hr, ha, hd⟩, rfl, hp⟩
    exact ⟨hr, ha, hd, hp⟩
  case mpr =>
    rintro ⟨hr, ha, hd, hp⟩
    exact ⟨_, ⟨hr, ha, hd⟩, rfl, hp⟩

-- The subscriptions that are due belong to different users.
theorem dueSubscriptions_pairwise {now : Instant}
    (hu : ∀ r₁ ∈ d.subscriptions, ∀ r₂ ∈ d.subscriptions, r₁.userId = r₂.userId →
      r₁.status = .active → r₂.status = .active → r₁ = r₂) :
    (dueSubscriptions d now).Pairwise (·.userId ≠ ·.userId) := by
  refine List.pairwise_filterMap.mpr <| (d.subscriptions.distinct.filter _).imp_of_mem ?_
  intro r₁ r₂ h₁ h₂ hk s₁ hs₁ s₂ hs₂ he
  simp only [List.mem_filter, decide_eq_true_eq] at h₁ h₂
  have e₁ := (loadPlan_eq_some.mp hs₁).left
  have e₂ := (loadPlan_eq_some.mp hs₂).left
  refine hk <| congrArg Entity.key <| hu r₁ h₁.left r₂ h₂.left ?_ h₁.right.left h₂.right.left
  rw [←e₁, ←e₂]
  exact he

end Loop

section Sweep

variable {d d' : Database} {openings : Uuid → Opening} {due : List LoadedSubscription} {n : Nat}

-- What becomes of a subscription is decided by the enrolment of its user at its turn.
theorem expireSubscriptions_turn
    (hs : ∀ s ∈ due, s.toSubscription ∈ d.subscriptions ∧ s.status = .active)
    (hu : due.Pairwise (·.userId ≠ ·.userId))
    (hr : (expireSubscriptions openings due 0).run d = (.ok n, d'))
    (pre : List LoadedSubscription) (s : LoadedSubscription) (post : List LoadedSubscription)
    (hd : due = pre ++ s :: post) :
    match (enrollInFreePlan s.userId (openings s.id)).run <|
      ((expireSubscriptions openings pre 0).run d).2.put (.subscription <| lapsed s.toSubscription) with
    | (.ok new, _)  => Moved d d' s new
    | (.error _, _) => ∀ r, r.userId = s.userId → (r ∈ d'.subscriptions ↔ r ∈ d.subscriptions) := by
  subst hd
  obtain ⟨hpre, hpost, hn⟩ := List.pairwise_append.mp hu
  obtain ⟨hns, hpost⟩ := List.pairwise_cons.mp hpost
  obtain ⟨hm, ha⟩ := hs s <| by simp
  have hs₁ : ∀ s' ∈ pre, s'.toSubscription ∈ d.subscriptions ∧ s'.status = .active := fun s' hs' =>
    hs s' <| List.mem_append_left _ hs'
  obtain ⟨d₁, h₁, hf₁⟩ := expireSubscriptions_run openings hs₁ hpre 0
  have hu₁ : ¬∃ s' ∈ pre, s'.userId = s.userId := fun ⟨s', hs', he⟩ => hn s' hs' s List.mem_cons_self he
  have hu₂ : ¬∃ s' ∈ post, s'.userId = s.userId := fun ⟨s', hs', he⟩ => hns s' hs' he.symm
  have hm₁ : s.toSubscription ∈ d₁.subscriptions := (hf₁.subscriptions _ hu₁).mpr hm
  have hp₁ : ∀ s' ∈ post, s'.toSubscription ∈ d₁.subscriptions ∧ s'.status = .active := by
    intro s' hs'
    obtain ⟨hm', ha'⟩ := hs s' <| by simp [hs']
    refine ⟨(hf₁.subscriptions _ ?_).mpr hm', ha'⟩
    exact fun ⟨s₀, hs₀, he⟩ => hn s₀ hs₀ s' (List.mem_cons_of_mem _ hs') he
  generalize 0 + pre.countP (fun s => lapsed s.toSubscription ∈ d₁.subscriptions) = m at h₁
  rw [expireSubscriptions_append, run_bind_of_ok h₁, expireSubscriptions] at hr
  rw [h₁]
  have hstep := expireSubscription_run hm₁ (openings s.id) m
  cases he : (enrollInFreePlan s.userId (openings s.id)).run (d₁.put <| .subscription <| lapsed s.toSubscription)
  case mk x d₂ =>
    rw [he] at hstep
    cases x
    case error e  =>
      rw [run_bind_of_ok hstep] at hr
      obtain ⟨d₃, h₃, hf₃⟩ := expireSubscriptions_run openings hp₁ hpost m
      rw [h₃] at hr
      cases hr
      exact fun r hrs => (hf₃.subscriptions r <| hrs ▸ hu₂).trans <| hf₁.subscriptions r <| hrs ▸ hu₁
    case ok new   =>
      rw [run_bind_of_ok hstep] at hr
      obtain ⟨hsw, hne⟩ := enrollInFreePlan_switchesPlan hm₁ ha he
      have hp₂ : ∀ s' ∈ post, s'.toSubscription ∈ d₂.subscriptions ∧ s'.status = .active := fun s' hs' =>
        ⟨(hsw.sweepFrame.subscriptions _ fun he => hns s' hs' he.symm).mpr (hp₁ s' hs').left, (hp₁ s' hs').right⟩
      obtain ⟨d₃, h₃, hf₃⟩ := expireSubscriptions_run openings hp₂ hpost (m + 1)
      rw [h₃] at hr
      cases hr
      exact hsw.moved hf₁ hf₃ hm₁ ha hne hu₁ hu₂

end Sweep

-- Each due subscription is moved to the free plan, unless the enrolment of its user raises. Nothing else
-- changes, and once no enrolment has failed there is nothing left to be done.
theorem due_subscriptions_swept (d : Database) (now : Instant) (openings : Uuid → Opening)
    (hu : ∀ r₁ ∈ d.subscriptions, ∀ r₂ ∈ d.subscriptions, r₁.userId = r₂.userId →
      r₁.status = .active → r₂.status = .active → r₁ = r₂)
    (hp : ∀ r ∈ d.subscriptions, ∃ p ∈ d.plans, p.id = r.planId) :
    let due := dueSubscriptions d now
    ∃ d', (expireDueSubscriptions now openings).run d =
        (.ok (due.countP fun s => lapsed s.toSubscription ∈ d'.subscriptions), d') ∧
      (∀ r, r ∈ d.subscriptions ∧ r.status = .active ∧ (∃ e, r.expiresAt = some e ∧ e ≤ now) ↔
        ∃ s ∈ due, s.toSubscription = r) ∧
      (∀ pre s post, due = pre ++ s :: post →
        match (enrollInFreePlan s.userId (openings s.id)).run <|
          ((expireSubscriptions openings pre 0).run d).2.put (.subscription <| lapsed s.toSubscription) with
        | (.ok new, _)  => Moved d d' s new
        | (.error _, _) => ∀ r, r.userId = s.userId → (r ∈ d'.subscriptions ↔ r ∈ d.subscriptions)) ∧
      SweepFrame (fun u => ∃ s ∈ due, s.userId = u) d d' ∧
      ((∀ s ∈ due, lapsed s.toSubscription ∈ d'.subscriptions) →
        ∀ openings, (expireDueSubscriptions now openings).run d' = (.ok 0, d')) := by
  intro due
  have hs : ∀ s ∈ due, s.toSubscription ∈ d.subscriptions ∧ s.status = .active := fun s hs =>
    mem_dueSubscriptions hs
  have hd : due.Pairwise (·.userId ≠ ·.userId) := dueSubscriptions_pairwise hu
  obtain ⟨d', hr, hf⟩ := expireSubscriptions_run openings hs hd 0
  rw [Nat.zero_add] at hr
  have ht := expireSubscriptions_turn hs hd hr
  refine ⟨d', ?_, fun r => ⟨?_, ?_⟩, ht, hf, fun hall openings' => ?_⟩
  · rw [expireDueSubscriptions, run_bind_of_ok (run_select ..)]
    exact hr
  · rintro ⟨hm, ha, he⟩
    obtain ⟨p, hm', hi⟩ := hp r hm
    exact ⟨⟨r, p⟩, mem_dueSubscriptions_iff.mpr ⟨hm, ha, he, hm', hi⟩, rfl⟩
  · rintro ⟨s, hs, rfl⟩
    obtain ⟨hm, ha, he, _⟩ := mem_dueSubscriptions_iff.mp hs
    exact ⟨hm, ha, he⟩
  · have hn : dueSubscriptions d' now = [] := by
      refine List.eq_nil_iff_forall_not_mem.mpr fun s hs' => ?_
      obtain ⟨hm, ha, he, hp, hi⟩ := mem_dueSubscriptions_iff.mp hs'
      by_cases hu : ∃ s₀ ∈ due, s₀.userId = s.userId
      case neg =>
        have hm := (hf.subscriptions _ hu).mp hm
        have hp : s.plan ∈ d.plans := by rwa [hf.others] at hp
        exact hu ⟨s, mem_dueSubscriptions_iff.mpr ⟨hm, ha, he, hp, hi⟩, rfl⟩
      case pos =>
        obtain ⟨s₀, hs₀, hu⟩ := hu
        obtain ⟨pre, post, hsplit⟩ := List.append_of_mem hs₀
        have ht := ht pre s₀ post hsplit
        split at ht
        case h_1 new _ _ =>
          obtain ⟨e, he, _⟩ := he
          have hnew := ht.only _ hm hu.symm ha
          have hx := (congrArg Subscription.expiresAt hnew).trans ht.owned.right.right
          exact Option.some_ne_none e <| he.symm.trans hx
        case h_2 =>
          have hl := (ht (lapsed s₀.toSubscription) rfl).mp <| hall s₀ hs₀
          exact lapsed_not_mem (hs s₀ hs₀).left (hs s₀ hs₀).right hl
    rw [expireDueSubscriptions, run_bind_of_ok (run_select ..), hn]
    rfl

section Example

-- A subscription to the pro plan is due after thirty days.
theorem pro_subscription_swept :
    let d := (subscribeToPro.1.service.run Seed.database).2
    ∃ d', (expireDueSubscriptions (.midnight 739031) fun _ => ⟨.midnight 739031, 2, 2⟩).run d =
        (.ok ((dueSubscriptions d (.midnight 739031)).countP fun s =>
          lapsed s.toSubscription ∈ d'.subscriptions), d') ∧
      SweepFrame (fun u => ∃ s ∈ dueSubscriptions d (.midnight 739031), s.userId = u) d d' := by
  intro d
  have hu : ∀ r₁ ∈ d.subscriptions, ∀ r₂ ∈ d.subscriptions, r₁.userId = r₂.userId →
      r₁.status = .active → r₂.status = .active → r₁ = r₂ := by decide +kernel
  have hp : ∀ r ∈ d.subscriptions, ∃ p ∈ d.plans, p.id = r.planId := by
    have hp : ∀ r ∈ d.subscriptions, (d.plans.lookup (.plan r.planId)).isSome := by decide +kernel
    intro r hr
    obtain ⟨p, hp⟩ := Option.isSome_iff_exists.mp <| hp r hr
    obtain ⟨hm, hk⟩ := Table.lookup_eq_some.mp hp
    exact ⟨p, hm, Key.plan.inj hk⟩
  obtain ⟨d', hr, _, _, hf, _⟩ := due_subscriptions_swept d (.midnight 739031)
    (fun _ => ⟨.midnight 739031, 2, 2⟩) hu hp
  exact ⟨d', hr, hf⟩

end Example
end SaasBackend
