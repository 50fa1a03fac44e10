import SaasBackend.Subscriptions.Calls

open Calendar ReadCommitted ReadCommitted.Service

namespace SaasBackend

open Service

-- Every user who ever had a subscription has exactly one which is active, and every subscription has
-- a quota.
structure Baseline (d : Database) : Prop where
  unique  : ∀ r₁ ∈ d.subscriptions, ∀ r₂ ∈ d.subscriptions, r₁.userId = r₂.userId →
              r₁.status = .active → r₂.status = .active → r₁ = r₂
  served  : ∀ r ∈ d.subscriptions, ∃ a ∈ d.subscriptions, a.userId = r.userId ∧ a.status = .active
  counted : ∀ r ∈ d.subscriptions, ∃ q ∈ d.quotas, q.subscriptionId = r.id

-- How the committed tables may develop. Subscriptions keep their owner, and those which are not
-- active anymore keep their status.
structure Develops (d d' : Database) : Prop where
  persist  : ∀ r ∈ d.subscriptions, ∃ r' ∈ d'.subscriptions, r'.id = r.id ∧ r'.userId = r.userId
  baseline : Baseline d → Baseline d'
  terminal : Baseline d → ∀ r ∈ d.subscriptions, ∀ r' ∈ d'.subscriptions, r'.id = r.id →
              r.status ≠ .active → r'.status = r.status

theorem Subscription.eq_of_id {d : Database} {r₁ r₂ : Subscription} (h₁ : r₁ ∈ d.subscriptions)
    (h₂ : r₂ ∈ d.subscriptions) (h : r₁.id = r₂.id) : r₁ = r₂ :=
  Table.eq_of_key h₁ h₂ <| congrArg Key.subscription h

namespace Develops

instance : Std.Refl Develops where
  refl _ := {
    persist  := fun r h => ⟨r, h, rfl, rfl⟩
    baseline := id
    terminal := fun _ _ h _ h' hi _ => congrArg _ <| Subscription.eq_of_id h' h hi
  }

instance : IsTrans Database Develops where
  trans _ _ _ h₁ h₂ := {
    persist  := fun r h =>
      have ⟨_, h', hi, hu⟩ := h₁.persist r h
      have ⟨r'', h'', hi', hu'⟩ := h₂.persist _ h'
      ⟨r'', h'', hi'.trans hi, hu'.trans hu⟩
    baseline := h₂.baseline ∘ h₁.baseline
    terminal := fun hb r h r'' h'' hi hs =>
      have ⟨r', h', hi', _⟩ := h₁.persist r h
      have hs' := h₁.terminal hb r h r' h' hi' hs
      (h₂.terminal (h₁.baseline hb) r' h' r'' h'' (hi.trans hi'.symm) (hs' ▸ hs)).trans hs'
  }

-- Writes to other tables do not matter, as long as quotas are not reassigned.
theorem of_eq {d d' : Database} (hs : d'.subscriptions = d.subscriptions)
    (hq : ∀ q ∈ d.quotas, ∃ q' ∈ d'.quotas, q'.subscriptionId = q.subscriptionId) :
    Develops d d' where
  persist r h  := ⟨r, hs ▸ h, rfl, rfl⟩
  baseline h   := {
    unique  := hs ▸ h.unique
    served  := hs ▸ h.served
    counted := fun r hr =>
      have ⟨q, hm, hi⟩ := h.counted r (hs ▸ hr)
      have ⟨q', hm', hi'⟩ := hq q hm
      ⟨q', hm', hi'.trans hi⟩
  }
  terminal _ _ h _ h' hi _ := congrArg _ <| Subscription.eq_of_id (hs ▸ h') h hi

variable {d d' : Database} {user : Uuid} {ws : List Write}

-- A subscription `s` is added for a user who is left without an active one, where `f` yields the new
-- versions of the existing subscriptions.
theorem of_rows {s : Subscription} {f : Subscription → Subscription}
    (hm : ∀ r, r ∈ d'.subscriptions ↔ r = s ∨ ∃ r₀ ∈ d.subscriptions, f r₀ = r)
    (hs : s.status = .active) (hn : ∀ r ∈ d.subscriptions, r.id ≠ s.id)
    (hi : ∀ r ∈ d.subscriptions, (f r).id = r.id ∧ (f r).userId = r.userId)
    (ho : ∀ r ∈ d.subscriptions, r.userId ≠ s.userId → f r = r)
    (ha : ∀ r ∈ d.subscriptions, r.userId = s.userId → (f r).status ≠ .active)
    (ht : Baseline d → ∀ r ∈ d.subscriptions, r.status ≠ .active → (f r).status = r.status)
    (hq : ∀ q ∈ d.quotas, ∃ q' ∈ d'.quotas, q'.subscriptionId = q.subscriptionId)
    (hq' : ∃ q ∈ d'.quotas, q.subscriptionId = s.id) : Develops d d' := by
  constructor
  case persist => exact fun r h => ⟨f r, (hm _).mpr <| .inr ⟨r, h, rfl⟩, hi r h⟩
  case terminal =>
    intro hb r h r' h' hr hs
    cases (hm r').mp h'
    case inl he => exact (hn r h <| hr.symm.trans <| congrArg _ he).elim
    case inr he =>
      have ⟨r₀, h₀, he⟩ := he
      have hr₀ : r₀ = r := Subscription.eq_of_id h₀ h <| (hi r₀ h₀).left.symm.trans <| he ▸ hr
      rw [←he, hr₀]
      exact ht hb r h hs
  case baseline =>
    intro hb
    -- Of the previous subscriptions only those of other users are still active.
    have hf : ∀ r ∈ d.subscriptions, (f r).status = .active → f r = r ∧ r.userId ≠ s.userId := by
      intro r h hr
      have hu : r.userId ≠ s.userId := fun hu => ha r h hu hr
      exact ⟨ho r h hu, hu⟩
    constructor
    case unique =>
      intro r₁ h₁ r₂ h₂ hu ha₁ ha₂
      cases (hm r₁).mp h₁
      case inl he₁ =>
        cases (hm r₂).mp h₂
        case inl he₂ => exact he₁.trans he₂.symm
        case inr he₂ =>
          have ⟨r, h, he₂⟩ := he₂
          have ⟨he, hr⟩ := hf r h <| he₂ ▸ ha₂
          exact (hr <| by rw [←he, he₂, ←hu, he₁]).elim
      case inr he₁ =>
        have ⟨r, h, he₁⟩ := he₁
        have ⟨he, hr⟩ := hf r h <| he₁ ▸ ha₁
        cases (hm r₂).mp h₂
        case inl he₂ => exact (hr <| by rw [←he, he₁, hu, he₂]).elim
        case inr he₂ =>
          have ⟨r', h', he₂⟩ := he₂
          have ⟨he', _⟩ := hf r' h' <| he₂ ▸ ha₂
          rw [←he₁, ←he₂, he, he'] at hu ⊢
          exact hb.unique r h r' h' hu (by rw [←he, he₁, ha₁]) (by rw [←he', he₂, ha₂])
    case served =>
      intro r h
      cases (hm r).mp h
      case inl he => exact ⟨s, (hm s).mpr <| .inl rfl, by rw [he], hs⟩
      case inr he =>
        have ⟨r₀, h₀, he⟩ := he
        by_cases hu : r₀.userId = s.userId
        case pos => exact ⟨s, (hm s).mpr <| .inl rfl, by rw [←he, (hi r₀ h₀).right, hu], hs⟩
        case neg =>
          have ⟨a, h, hu', ha⟩ := hb.served r₀ h₀
          have hfa := ho a h <| hu' ▸ hu
          exact ⟨a, (hm a).mpr <| .inr ⟨a, h, hfa⟩, by rw [hu', ←he, (hi r₀ h₀).right], ha⟩
    case counted =>
      intro r h
      cases (hm r).mp h
      case inl he => exact he ▸ hq'
      case inr he =>
        have ⟨r₀, h₀, he⟩ := he
        have ⟨q, h, hqi⟩ := hb.counted r₀ h₀
        have ⟨q', h', hqi'⟩ := hq q h
        exact ⟨q', h', by rw [hqi', hqi, ←he, (hi r₀ h₀).left]⟩

theorem quotas_put {q : UsageQuota} (h : ∀ q' ∈ d.quotas, q'.id ≠ q.id) :
    ∀ q' ∈ d.quotas, ∃ q'' ∈ d.quotas.put q, q''.subscriptionId = q'.subscriptionId :=
  fun q' hq' => ⟨q', Table.mem_put_of_ne hq' fun hk => h q' hq' <| Key.usageQuota.inj hk, rfl⟩

-- A subscription is opened for a user who has no active one.
theorem of_opens (h : Opens user ws) (hv : Valid d ws) : Develops d (Store.applyAll d ws) := by
  have ⟨s, q, hw, _, hs, hq⟩ := h
  rw [hw] at hv ⊢
  have hn : ∀ r ∈ d.subscriptions, Entity.key r ≠ Entity.key s := accepts_new hv.left
  have hn' : ∀ q' ∈ d.quotas, q'.id ≠ q.id :=
    fun q' hq' h => accepts_new hv.right.left q' hq' <| congrArg Key.usageQuota h
  refine of_rows (s := s) (f := id) (fun r => ?_) hs (fun r hr h => ?_) (fun _ _ => ⟨rfl, rfl⟩)
    (fun _ _ _ => rfl) (fun r hr hu ha => ?_) (fun _ _ _ _ => rfl) (quotas_put hn')
    ⟨q, Table.mem_put_self .., hq⟩
  · refine Table.mem_put.trans <| or_congr_right ?_
    simpa using hn r
  · exact hn r hr <| congrArg Key.subscription h
  · refine accepts_fresh hv.left r hr (.activeSubscription s.userId) ?_ ?_
    · simp [Entity.entries, hs]
    · simp [Entity.entries, show r.status = .active from ha, hu]

-- A subscription `o` of the user is brought to an end, possibly on the basis of an outdated read,
-- and another one is opened. The latter is only accepted if `o` was still active.
theorem of_replaces {o n : Subscription} (h : Opens user ws) (hu : o.userId = user)
    (hu' : n.userId = user)
    (hv : Valid d (⟨some <| .subscription o, .subscription n⟩ :: ws)) :
    Develops d (Store.applyAll d (⟨some <| .subscription o, .subscription n⟩ :: ws)) := by
  have ⟨s, q, hw, hsu, hs, hq⟩ := h
  rw [hw] at hv ⊢
  have ⟨ho, hk⟩ := accepts_old hv.left
  have hi : o.id = n.id := Key.subscription.inj hk
  -- The subscriptions when `s` is inserted.
  have hm : ∀ r, r ∈ d.subscriptions.put n ↔
      ∃ r₀ ∈ d.subscriptions, (if r₀.id = o.id then n else r₀) = r := by
    intro r
    refine Table.mem_put.trans ⟨fun h => ?_, fun ⟨r₀, h₀, h⟩ => ?_⟩
    · cases h
      case inl h => exact ⟨o, ho, by simp [h]⟩
      case inr h => exact ⟨r, h.left, if_neg fun hr => h.right <| by simp [Entity.key, hr, hi]⟩
    · split at h
      case isTrue     => exact .inl h.symm
      case isFalse hr => exact .inr ⟨h ▸ h₀, fun hk => hr <| h ▸ (Key.subscription.inj hk).trans hi.symm⟩
  have hsn : ∀ r ∈ d.subscriptions.put n, Entity.key r ≠ Entity.key s := accepts_new hv.right.left
  have hn' : ∀ q' ∈ d.quotas, q'.id ≠ q.id :=
    fun q' hq' h => accepts_new hv.right.right.left q' hq' <| congrArg Key.usageQuota h
  have ha : ∀ r ∈ d.subscriptions.put n, r.userId = s.userId → r.status ≠ .active := by
    intro r hr hu ha
    refine accepts_fresh hv.right.left r hr (.activeSubscription s.userId) ?_ ?_
    · simp [Entity.entries, hs]
    · simp [Entity.entries, ha, hu]
  have he : ∀ r ∈ d.subscriptions, r.id = o.id → r = o := fun r hr h => Subscription.eq_of_id hr ho h
  have hf : ∀ r ∈ d.subscriptions,
      (if r.id = o.id then n else r).id = r.id ∧ (if r.id = o.id then n else r).userId = r.userId := by
    intro r hr
    by_cases h : r.id = o.id
    case pos => simp [hi, he r hr h, hu, hu']
    case neg => simp [h]
  refine of_rows (s := s) (f := fun r => if r.id = o.id then n else r) (fun r => ?_) hs
    (fun r hr h => ?_) hf (fun r hr hu => ?_) (fun r hr hu => ?_) (fun hb r hr hs => ?_)
    (quotas_put hn') ⟨q, Table.mem_put_self .., hq⟩
  · exact Table.mem_put.trans <| or_congr_right <| (and_iff_left_of_imp <| hsn r).trans (hm r)
  · refine hsn _ ((hm _).mpr ⟨r, hr, rfl⟩) <| congrArg Key.subscription ?_
    exact (hf r hr).left.trans h
  · refine if_neg fun h => hu ?_
    rw [he r hr h, hsu, ‹o.userId = user›]
  · exact ha _ ((hm _).mpr ⟨r, hr, rfl⟩) <| (hf r hr).right.trans hu
  · apply congrArg _
    apply if_neg
    intro h
    -- If `o` is not active then another subscription of the user is.
    have ⟨a, h', hau, haa⟩ := hb.served r hr
    have hne : a.id ≠ o.id := fun hao => hs <| by rw [he r hr h, ←he a h' hao, haa]
    refine ha a ((hm a).mpr ⟨a, h', if_neg hne⟩) ?_ haa
    rw [hau, he r hr h, hu, hsu]

end Develops

section Keeps

variable {d₀ d : Database} {fs : List (List Write)} {f : List Write}

-- There is a subscription `id` which belongs to the user.
def Owned (d : Database) (id user : Uuid) : Prop :=
  ∃ r ∈ d.subscriptions, r.id = id ∧ r.userId = user

theorem Owned.develops {d' : Database} {id user : Uuid} (ho : Owned d id user)
    (h : Develops d d') : Owned d' id user :=
  have ⟨r, hr, hi, hu⟩ := ho
  have ⟨r', hr', hi', hu'⟩ := h.persist r hr
  ⟨r', hr', hi'.trans hi, hu'.trans hu⟩

theorem Owned.userId {id user : Uuid} {r : Subscription} (ho : Owned d id user)
    (h : r ∈ d.subscriptions) (hi : r.id = id) : r.userId = user :=
  have ⟨_, hr', hi', hu'⟩ := ho
  Subscription.eq_of_id hr' h (hi'.trans hi.symm) ▸ hu'

theorem of_getActiveSubscription {user : Uuid} {s : LoadedSubscription}
    (h : getActiveSubscription d user = some s) : Owned d s.id user :=
  have ⟨h, hu, _⟩ := getActiveSubscription_eq_some h
  ⟨s.toSubscription, h, rfl, hu⟩

-- The end of one subscription and the opening of another one, in the same transaction.
theorem replace_keeps {α : Type} {user id : Uuid} {g : Subscription → Subscription}
    {s : Service α} (ho : Owned d₀ id user) (hg : ∀ r, (g r).id = r.id ∧ (g r).userId = r.userId)
    (hs : ∀ f fs d, s.Keeps Develops d₀
      (fun _ fs' _ => ∃ ws, Opens user ws ∧ fs' = (f ++ ws) :: fs) (f :: fs) d) :
    (do save Database.subscriptions .subscription (.subscription id) g; s).Keeps Develops d₀
      (fun _ fs _ => ∀ f, fs = [f] → ∀ d', Develops d₀ d' → Valid d' f →
        Develops d' (Store.applyAll d' f)) [[]] d := by
  apply Keeps.bind
  apply Keeps.save (fun r => congrArg Key.subscription (hg r).left)
  intro d' r _ _ hk
  refine (hs _ _ _).mono fun _ fs _ _ ⟨ws, hw, hfs⟩ f hf d' hd hv => ?_
  have hf : f = ⟨some <| .subscription r, .subscription (g r)⟩ :: ws := by simp_all
  rw [hf] at hv ⊢
  have hr : r.userId = user :=
    (ho.develops hd).userId (accepts_old hv.left).left <| Key.subscription.inj hk
  exact Develops.of_replaces hw hr ((hg r).right.trans hr) hv

theorem enrollInFreePlan_develops (user : Uuid) (o : Opening) :
    (enrollInFreePlan user o).Keeps Develops d₀ (fun _ fs _ => fs = []) [] d := by
  apply Keeps.atomic
  apply Keeps.bind
  apply Keeps.select
  intro d₁ _ _
  split
  case h_1 => exact Keeps.raise
  case h_2 =>
    apply (createSubscription_keeps _ _ _ _).mono
    rintro _ fs _ _ ⟨ws, hw, hfs⟩ f hf d' _ hv
    have hf : f = ws := by simp_all
    exact ⟨Develops.of_opens (hf ▸ hw) hv, rfl⟩

theorem subscribe_develops (user : Uuid) (planSlug : String) (canceledAt : Instant) (o : Opening) :
    (subscribe user planSlug canceledAt o).Keeps Develops d₀ (fun _ _ _ => True) [] d := by
  apply Keeps.atomic
  apply Keeps.bind
  apply Keeps.select
  intro d₁ _ _
  split
  case h_1 => exact Keeps.raise
  case h_2 =>
    apply Keeps.bind
    apply Keeps.select
    intro d₂ _ _
    split
    case h_1 =>
      apply (createSubscription_keeps _ _ _ _).mono
      rintro _ fs _ _ ⟨ws, hw, hfs⟩ f hf d' _ hv
      have hf : f = ws := by simp_all
      exact ⟨Develops.of_opens (hf ▸ hw) hv, trivial⟩
    case h_2 hc =>
      split
      case isTrue  => exact Keeps.raise
      case isFalse =>
        refine Keeps.rebase <| (replace_keeps (of_getActiveSubscription hc) (by simp)
          fun f fs d => createSubscription_keeps ..).mono ?_
        exact fun _ _ _ hd h f hf d' hd' hv => ⟨h f hf d' (Trans.trans hd hd') hv, trivial⟩

theorem cancel_develops (user : Uuid) (canceledAt : Instant) (o : Opening) :
    (cancel user canceledAt o).Keeps Develops d₀ (fun _ _ _ => True) [] d := by
  apply Keeps.atomic
  apply Keeps.bind
  apply Keeps.select
  intro d₁ _ _
  split
  case h_1 => exact Keeps.raise
  case h_2 hc =>
    refine Keeps.rebase <| (replace_keeps (of_getActiveSubscription hc) (by simp)
      fun f fs d => enrollInFreePlan_keeps ..).mono ?_
    exact fun _ _ _ hd h f hf d' hd' hv => ⟨h f hf d' (Trans.trans hd hd') hv, trivial⟩

theorem currentOrRotateQuota_develops (sub : LoadedSubscription) (r : Recording) :
    (currentOrRotateQuota sub r).Keeps Develops d₀ (fun _ fs _ => fs = []) [] d := by
  apply Keeps.bind
  apply Keeps.select
  intro d₁ _ _
  split
  case h_1 => exact Keeps.pure rfl
  case h_2 =>
    apply Keeps.bind
    apply Keeps.ofExcept
    rintro ⟨start, finish⟩ _
    refine Keeps.bind <| Keeps.create_commit fun d₂ _ hv => ⟨?_, Keeps.pure rfl⟩
    refine Develops.of_eq rfl <| Develops.quotas_put fun q hq h => ?_
    exact accepts_new hv.left q hq <| congrArg Key.usageQuota h

theorem charge_develops (sub : LoadedSubscription) (r : Recording) :
    (charge sub r).Keeps Develops d₀ (fun _ _ _ => True) [] d := by
  apply Keeps.bind
  apply (currentOrRotateQuota_develops sub r).mono
  intro q _ d₁ _ hfs
  rw [hfs]
  split
  case isTrue  => exact Keeps.raise
  case isFalse =>
    refine Keeps.update_commit (fun _ => rfl) fun d₂ w _ hw _ => ⟨?_, trivial⟩
    cases hw
    case inl hw => rw [hw]; exact Std.Refl.refl d₂
    case inr hw =>
      obtain ⟨q, hq, hw⟩ := hw
      rw [hw]
      refine Develops.of_eq rfl fun q' hq' => ?_
      by_cases hk : Entity.key q' = Entity.key q
      case pos => exact ⟨_, Table.mem_put_self .., by rw [Table.eq_of_key hq' hq hk]⟩
      case neg => exact ⟨q', Table.mem_put_of_ne hq' hk, rfl⟩

theorem recordRequest_develops (user : Uuid) (r : Recording) :
    (recordRequest user r).Keeps Develops d₀ (fun _ _ _ => True) [] d := by
  apply Keeps.bind
  apply Keeps.select
  intro d₁ _ _
  split
  case h_1 => exact charge_develops ..
  case h_2 =>
    apply Keeps.bind
    apply (enrollInFreePlan_develops _ _).mono
    intro _ _ d₂ _ hfs
    rw [hfs]
    exact charge_develops ..

-- Whatever becomes of one subscription of the result set, it remains known whom the others belong
-- to.
theorem expireSubscriptions_develops {openings : Uuid → Opening} {subs : List LoadedSubscription}
    (h : ∀ s ∈ subs, Owned d₀ s.id s.userId) (affected : Nat) :
    (expireSubscriptions openings subs affected).Keeps Develops d₀ (fun _ _ _ => True) [] d := by
  induction subs generalizing affected d
  case nil          => exact Keeps.pure trivial
  case cons sub _ hi =>
    refine Keeps.bind <| Keeps.mono (Q := fun _ fs _ => fs = []) ?_ fun _ _ d' _ hfs => ?_
    · refine Keeps.handle (Keeps.atomic ?_) fun _ _ => Keeps.pure rfl
      simp only [←bind_assoc]
      refine Keeps.bind <| (replace_keeps (h sub List.mem_cons_self) (by simp)
        fun f fs d => enrollInFreePlan_keeps ..).mono fun _ _ _ hd h => ?_
      exact Keeps.pure fun f hf d' hd' hv => ⟨h f hf d' (Trans.trans hd hd') hv, trivial⟩
    · rw [hfs]
      exact hi (fun s hs => h s <| List.mem_cons_of_mem _ hs) _

theorem expireDueSubscriptions_develops (now : Instant) (openings : Uuid → Opening) :
    (expireDueSubscriptions now openings).Keeps Develops d₀ (fun _ _ _ => True) [] d := by
  refine Keeps.bind <| Keeps.select fun d₁ _ _ => Keeps.rebase ?_
  refine expireSubscriptions_develops (fun s hs => ?_) 0
  exact ⟨s.toSubscription, (mem_dueSubscriptions hs).left, rfl, rfl⟩

theorem setPlanActive_develops (plan : Uuid) (isActive : Bool) :
    (setPlanActive plan isActive).Keeps Develops d₀ (fun _ _ _ => True) [] d := by
  refine Keeps.update_commit (fun _ => rfl) fun d₁ w _ hw _ => ⟨?_, trivial⟩
  cases hw
  case inl hw => rw [hw]; exact Std.Refl.refl d₁
  case inr hw =>
    have ⟨p, _, hw⟩ := hw
    rw [hw]
    exact Develops.of_eq rfl fun q hq => ⟨q, hq, rfl⟩

theorem Call.service_develops (c : Call) :
    c.service.Keeps Develops d₀ (fun _ _ _ => True) [] d := by
  have h : ∀ {α} {s : Service α}, s.Keeps Develops d₀ (fun _ _ _ => True) [] d →
      (do let _ ← s : Service Unit).Keeps Develops d₀ (fun _ _ _ => True) [] d :=
    fun h => Keeps.bind <| h.mono fun _ _ _ _ _ => Keeps.pure trivial
  cases c
  case subscribe              => exact h <| subscribe_develops ..
  case cancel                 => exact h <| cancel_develops ..
  case enrollInFreePlan       => exact h <| (enrollInFreePlan_develops _ _).mono fun _ _ _ _ _ => trivial
  case recordRequest          => exact recordRequest_develops ..
  case expireDueSubscriptions => exact h <| expireDueSubscriptions_develops ..
  case setPlanActive          => exact setPlanActive_develops ..

end Keeps
section Runs

variable {ι : Type} [Fintype ι] [DecidableEq ι]

theorem Baseline.of_no_subscriptions {d : Database} (h : ∀ s, s ∉ d.subscriptions) : Baseline d where
  unique s hs  := (h s hs).elim
  served s hs  := (h s hs).elim
  counted s hs := (h s hs).elim

-- Any interleaving of calls that starts without subscriptions keeps the baseline.
theorem run_develops (db : Database) (calls : ι → Call) (as bs : List (Action ι Exn)) :
    Develops ((System.start db fun i => (calls i).service).run as).db
      ((System.start db fun i => (calls i).service).run (as ++ bs)).db :=
  System.run_related (fun i => (calls i).service_develops) as bs

-- In every state that is committed while calls are executed concurrently, and in every state that is
-- committed after it: a user has at most one active subscription, and never loses it without getting
-- another one. The status of a canceled or expired subscription is final, and each subscription has a
-- quota.
theorem one_active_subscription (db : Database) (calls : ι → Call) (as bs : List (Action ι Exn)) :
    let start := System.start { db with subscriptions := .empty } fun i => (calls i).service
    let d     := (start.run as).db
    let d'    := (start.run (as ++ bs)).db
    (∀ user, ∀ s₁ ∈ d.subscriptions, ∀ s₂ ∈ d.subscriptions, s₁.userId = user → s₂.userId = user →
      s₁.status = .active → s₂.status = .active → s₁ = s₂) ∧
    (∀ user, (∃ s ∈ d.subscriptions, s.userId = user ∧ s.status = .active) →
      ∃ s' ∈ d'.subscriptions, s'.userId = user ∧ s'.status = .active) ∧
    (∀ s ∈ d.subscriptions, s.status = .canceled ∨ s.status = .expired →
      ∃ s' ∈ d'.subscriptions, s'.id = s.id ∧ s'.status = s.status) ∧
    (∀ s ∈ d.subscriptions, ∃ q ∈ d.quotas, q.subscriptionId = s.id) := by
  intro start d d'
  have hb : Baseline d :=
    (run_develops _ calls [] as).baseline <| .of_no_subscriptions Table.not_mem_empty
  have hd : Develops d d' := run_develops _ calls as bs
  refine ⟨fun u s₁ h₁ s₂ h₂ hu₁ hu₂ => ?_, fun u ⟨s, hs, hu, _⟩ => ?_, fun s hs ht => ?_, hb.counted⟩
  · exact hb.unique s₁ h₁ s₂ h₂ <| hu₁.trans hu₂.symm
  · have ⟨s', hs', _, hu'⟩ := hd.persist s hs
    have ⟨a, ha, hau, has⟩ := (hd.baseline hb).served s' hs'
    exact ⟨a, ha, hau.trans <| hu'.trans hu, has⟩
  · have ⟨s', hs', hi, _⟩ := hd.persist s hs
    refine ⟨s', hs', hi, hd.terminal hb s hs s' hs' hi fun ha => ?_⟩
    cases ht <;> simp_all

end Runs
end SaasBackend
