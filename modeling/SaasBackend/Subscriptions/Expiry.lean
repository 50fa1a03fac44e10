import SaasBackend.Subscriptions.Seed
import SaasBackend.Http.Request

open Calendar ReadCommitted

namespace SaasBackend

-- An expired subscription grants nothing: the subscription that is considered active has not expired,
-- and the service `has_feature` and the permission class `HasFeature` agree.
structure ExpiredGrantsNothing (d : Database) (user : Uuid) (featureKey : String) (now : Instant) :
    Prop where
  isActive : ∀ s, getActiveSubscription d user = some s → s.isActive now
  agree    : ∀ request : HttpRequest, request.subscription = getActiveSubscription d user →
              (hasFeature user featureKey).run d =
                (.ok <| (HasFeature.withKey featureKey).hasPermission request now, d)

-- The two notions of an active subscription agree as long as it has not expired.
theorem hasFeature_run {d : Database} {user : Uuid} {featureKey : String} {now : Instant}
    {request : HttpRequest} (h : ∀ s, getActiveSubscription d user = some s → s.isActive now)
    (hr : request.subscription = getActiveSubscription d user) :
    (hasFeature user featureKey).run d =
      (.ok <| (HasFeature.withKey featureKey).hasPermission request now, d) := by
  rw [hasFeature, Service.run_select, HasFeature.hasPermission, hr]
  cases hs : getActiveSubscription d user
  case none   => rfl
  case some s => simp [h s hs]

-- The sweep is what ends a subscription: until it has run, an expired subscription still grants its
-- features to those who do not look at the expiry themselves.
theorem expired_grants_nothing_iff (d : Database) (user : Uuid) (featureKey : String) (now : Instant) :
    ExpiredGrantsNothing d user featureKey now ↔
      ∀ s, getActiveSubscription d user = some s → ∀ t, s.expiresAt = some t → now < t := by
  constructor
  case mp =>
    intro h s hs
    exact (Subscription.isActive_iff.mp <| h.isActive s hs).right
  case mpr =>
    intro h
    have ha : ∀ s, getActiveSubscription d user = some s → s.isActive now := fun s hs =>
      Subscription.isActive_iff.mpr ⟨(getActiveSubscription_eq_some hs).right.right.left, h s hs⟩
    exact ⟨ha, fun _ => hasFeature_run ha⟩

-- A subscription to the pro plan ends after 30 days.
theorem expired_subscription_still_grants :
    ¬ExpiredGrantsNothing
      ((subscribe 1 PlanSlug.pro (.midnight 739000) ⟨.midnight 739000, 1, 1⟩).run Seed.database).2
      1 "advanced_analytics" (.midnight 739030) :=
  fun h => absurd (h.isActive _ rfl) <| by decide

end SaasBackend
