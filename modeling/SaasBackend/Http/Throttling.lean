import SaasBackend.Http.Request
import SaasBackend.Subscriptions.Seed

namespace SaasBackend

-- The number of requests per minute that a plan documents, where 0 is unlimited.
def Plan.rateLimit (p : Plan) : Option Rate :=
  if p.rateLimitPerMinute = 0 then none else some ⟨p.rateLimitPerMinute, 60⟩

namespace PlanScopedUserThrottle

-- The plans for which there is a rate in the settings, and the number of requests per minute.
def configuredLimits : List (String × Nat) := [
  (PlanSlug.free, 60),
  (PlanSlug.pro, 600),
  (PlanSlug.enterprise, 6000)
]

variable {request : HttpRequest} {p : Plan} {user : Uuid}

theorem lookup_throttleRates (slug : String) :
    (throttleRates.lookup ("plan_" ++ slug)).bind parseRate =
      (configuredLimits.lookup slug).map (⟨·, 60⟩) := by
  have ha : "plan_" ++ slug ≠ "anon" := fun h => by
    have h := congrArg (fun s : String => s.toList.head?) h
    simp at h
  have hs : ∀ s, ("plan_" ++ slug = "plan_" ++ s) ↔ slug = s := fun s => String.append_right_inj "plan_"
  by_cases hf : slug = "free"
  case pos => subst hf; rfl
  by_cases hp : slug = "pro"
  case pos => subst hp; rfl
  by_cases he : slug = "enterprise"
  case pos => subst he; rfl
  have hf' : "plan_" ++ slug ≠ "plan_free" := mt (hs "free").mp hf
  have hp' : "plan_" ++ slug ≠ "plan_pro" := mt (hs "pro").mp hp
  have he' : "plan_" ++ slug ≠ "plan_enterprise" := mt (hs "enterprise").mp he
  simp [throttleRates, configuredLimits, List.lookup, PlanSlug.free, PlanSlug.pro, PlanSlug.enterprise,
    beq_eq_false_iff_ne.mpr, ha, hf, hp, he, hf', hp', he']

theorem getCacheKey_eq (hu : request.user = some user) (hs : request.subscriptionPlanSlug = some p.slug) :
    getCacheKey request =
      match configuredLimits.lookup p.slug with
      | some limit => .ok <| some ⟨"plan_" ++ p.slug, user, ⟨limit, 60⟩⟩
      | none       => .error .improperlyConfigured := by
  have hp : userPlanSlug request = p.slug := by simp [userPlanSlug, hs, p.slug_nonempty]
  simp only [getCacheKey, hu, hp, lookup_throttleRates]
  cases configuredLimits.lookup p.slug <;> rfl

theorem configuredLimits_ne_zero {slug : String} {limit : Nat} (h : configuredLimits.lookup slug = some limit) :
    limit ≠ 0 := by
  simp only [configuredLimits, List.lookup] at h
  repeat' split at h
  all_goals cases h <;> decide

section Example

def requestOn (slug : String) : HttpRequest where
  method               := some "GET"
  path                 := "/api/v1/users/me/"
  headers              := []
  user                 := some 1
  auth                 := some .jwt
  subscription         := none
  subscriptionPlanSlug := some slug
  durationMs           := none

-- A tier which was added after the deployment.
def team : Plan :=
  { Seed.pro with id := 4, slug := "team", slug_nonempty := by decide }

end Example
end PlanScopedUserThrottle
end SaasBackend
