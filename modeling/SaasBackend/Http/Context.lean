import SaasBackend.Subscriptions.Seed
import SaasBackend.Http.Middleware

open Calendar ReadCommitted

namespace SaasBackend

-- The plan of a user who has no active subscription is the free one.
def planSlugOf (d : Database) (user : Uuid) : String :=
  match getActiveSubscription d user with
  | none     => "free"
  | some sub => sub.plan.slug

-- The context that a request provides to throttles and permissions is that of the given user.
structure ContextOf (d : Database) (user : Uuid) (request : HttpRequest) : Prop where
  planSlug     : PlanScopedUserThrottle.userPlanSlug request = planSlugOf d user
  subscription : request.subscription = getActiveSubscription d user

-- The request as a view sees it once it has authenticated the user.
def seenByView (d : Database) (request : HttpRequest) (user : Uuid) (c : Credential) : HttpRequest :=
  authenticate (some (user, c)) <| attachSubscription d request

variable {d : Database} {request : HttpRequest} {user : Uuid}

theorem attachSubscription_subscription :
    (attachSubscription d request).subscription = request.user.bind (getActiveSubscription d) := by
  cases h : request.user.bind (getActiveSubscription d) <;> simp [attachSubscription, h]

theorem attachSubscription_planSlug :
    PlanScopedUserThrottle.userPlanSlug (attachSubscription d request) =
      ((request.user.bind (getActiveSubscription d)).elim "free" (·.plan.slug)) := by
  cases h : request.user.bind (getActiveSubscription d)
  case none   => simp [attachSubscription, PlanScopedUserThrottle.userPlanSlug, h]
  case some s =>
    simp [attachSubscription, PlanScopedUserThrottle.userPlanSlug, h, s.plan.slug_nonempty]

-- The middleware looks up the subscription of the session user, as seen by the view.
theorem seenByView_subscription (c : Credential) :
    (seenByView d request user c).subscription = request.user.bind (getActiveSubscription d) :=
  attachSubscription_subscription

theorem contextOf_of_subscription {c : Credential}
    (h : request.user.bind (getActiveSubscription d) = getActiveSubscription d user) :
    ContextOf d user (seenByView d request user c) where
  subscription := (seenByView_subscription c).trans h
  planSlug     := by
    refine attachSubscription_planSlug.trans ?_
    rw [h, planSlugOf]
    cases getActiveSubscription d user <;> rfl

-- No two users have the same active subscription.
theorem getActiveSubscription_inj {user' : Uuid} {s : LoadedSubscription}
    (h : getActiveSubscription d user = some s) (h' : getActiveSubscription d user' = some s) :
    user = user' :=
  (getActiveSubscription_eq_some h).right.left.symm.trans
    (getActiveSubscription_eq_some h').right.left

-- The context is attached before the view authenticates, and hence is that of the session user.
theorem contextOf_seenByView_iff (d : Database) (request : HttpRequest) (user : Uuid)
    (c : Credential) :
    ContextOf d user (seenByView d request user c) ↔
      request.user = some user ∨
      (getActiveSubscription d user = none ∧
        ∀ u, request.user = some u → getActiveSubscription d u = none) := by
  constructor
  case mp =>
    intro h
    have hs := (seenByView_subscription c).symm.trans h.subscription
    cases hu : request.user
    case none   => exact .inr ⟨by simpa [hu] using hs.symm, nofun⟩
    case some u =>
      rw [hu, Option.bind_some] at hs
      cases ha : getActiveSubscription d user
      case none   => exact .inr ⟨rfl, fun u' hu' => by rw [←Option.some.inj hu', hs, ha]⟩
      case some s => exact .inl <| congrArg some <| getActiveSubscription_inj (hs.trans ha) ha
  case mpr =>
    intro h
    refine contextOf_of_subscription ?_
    cases h
    case inl h => rw [h, Option.bind_some]
    case inr h =>
      have ⟨hn, hu⟩ := h
      rw [hn]
      exact Option.bind_eq_none_iff.mpr hu

-- A subscriber of the pro plan who presents a JWT, and has no Django session.
theorem context_of_token_user_is_missing :
    ¬ContextOf
      ((subscribe 1 PlanSlug.pro (.midnight 739000) ⟨.midnight 739000, 1, 1⟩).run Seed.database).2 1
      (seenByView
        ((subscribe 1 PlanSlug.pro (.midnight 739000) ⟨.midnight 739000, 1, 1⟩).run Seed.database).2
        ⟨some "GET", "/api/v1/users/me/", [], none, none, none, none, none⟩ 1 .jwt) :=
  fun h => absurd h.planSlug <| by decide

end SaasBackend
