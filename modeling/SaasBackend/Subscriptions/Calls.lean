import SaasBackend.Subscriptions.Opening

open Calendar ReadCommitted ReadCommitted.Session ReadCommitted.Service

namespace SaasBackend

open Service

-- The calls that change subscriptions, with what they take from their environment. A plan can be
-- activated or deactivated by an administrator.
inductive Call
  | subscribe (user : Uuid) (planSlug : String) (canceledAt : Instant) (o : Opening)
  | cancel (user : Uuid) (canceledAt : Instant) (o : Opening)
  | enrollInFreePlan (user : Uuid) (o : Opening)
  | recordRequest (user : Uuid) (r : Recording)
  | expireDueSubscriptions (now : Instant) (openings : Uuid → Opening)
  | setPlanActive (plan : Uuid) (isActive : Bool)

def setPlanActive (plan : Uuid) (isActive : Bool) : Service Unit :=
  Service.update Database.plans .plan (.plan plan) fun p => { p with isActive := isActive }

namespace Call

def service : Call → Service Unit
  | subscribe u p t o           => do let _ ← SaasBackend.subscribe u p t o
  | cancel u t o                => do let _ ← SaasBackend.cancel u t o
  | enrollInFreePlan u o        => do let _ ← SaasBackend.enrollInFreePlan u o
  | recordRequest u r           => SaasBackend.recordRequest u r
  | expireDueSubscriptions n os => do let _ ← SaasBackend.expireDueSubscriptions n os
  | setPlanActive p b           => SaasBackend.setPlanActive p b

end Call

section Keeps

variable {P : Database → Database → Prop} [Std.Refl P] [IsTrans Database P] {d₀ d : Database}
  {fs : List (List Write)} {f : List Write}

-- The writes by which a subscription is opened for a user.
def Opens (user : Uuid) (ws : List Write) : Prop :=
  ∃ s q, ws = [⟨none, .subscription s⟩, ⟨none, .usageQuota q⟩] ∧ s.userId = user ∧
    s.status = .active ∧ q.subscriptionId = s.id

theorem createSubscription_keeps_opened (user : Uuid) (plan : Plan) (expires : Bool) (o : Opening) :
    (createSubscription user plan expires o).Keeps P d₀
      (fun s fs' _ => ∃ finish periodEnd, s = openedSubscription user plan expires o finish ∧
        defaultPeriodWindow plan o.start = .ok (o.start, finish) ∧
        openingEnd expires o.start finish = .ok periodEnd ∧
        fs' = (f ++ [⟨none, .subscription s.toSubscription⟩, ⟨none, .usageQuota <| openedQuota o periodEnd⟩]) :: fs)
      (f :: fs) d := by
  apply Keeps.bind
  apply Keeps.ofExcept
  rintro ⟨start, finish⟩ hw
  obtain ⟨hs, _⟩ := defaultPeriodWindow_eq_ok hw
  subst hs
  apply Keeps.bind
  apply Keeps.create
  intro d₁ _ _
  apply Keeps.bind
  apply Keeps.ofExcept
  intro periodEnd he
  refine Keeps.bind <| Keeps.create fun d₂ _ _ => Keeps.pure ⟨finish, periodEnd, rfl, hw, he, ?_⟩
  exact congrArg (· :: fs) <| List.append_assoc ..

theorem createSubscription_keeps (user : Uuid) (plan : Plan) (expires : Bool) (o : Opening) :
    (createSubscription user plan expires o).Keeps P d₀
      (fun _ fs' _ => ∃ ws, Opens user ws ∧ fs' = (f ++ ws) :: fs) (f :: fs) d := by
  apply (createSubscription_keeps_opened ..).mono
  rintro s fs' _ _ ⟨finish, periodEnd, hs, _, _, hfs⟩
  subst hs
  exact ⟨_, ⟨_, _, rfl, rfl, rfl, rfl⟩, hfs⟩

-- Inside of a block the enrolment adds its writes to those of the block.
theorem enrollInFreePlan_keeps (user : Uuid) (o : Opening) :
    (enrollInFreePlan user o).Keeps P d₀
      (fun _ fs' _ => ∃ ws, Opens user ws ∧ fs' = (f ++ ws) :: fs) (f :: fs) d := by
  apply Keeps.atomic_inner
  apply Keeps.bind
  apply Keeps.select
  intro d₁ _ _
  split
  case h_1 => exact Keeps.raise
  case h_2 =>
    refine (createSubscription_keeps _ _ _ _).mono fun _ fs' _ _ ⟨ws, ho, hfs⟩ g f' fs'' hfs' => ?_
    exact ⟨ws, ho, by simp_all⟩

end Keeps
end SaasBackend
