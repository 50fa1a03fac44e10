import SaasBackend.Subscriptions.Services

open Calendar

namespace SaasBackend

-- `request.auth`, as set by the authentication class that accepted the request.
inductive Credential
  | jwt
  | apiKey (key : APIKey)

-- A request together with the attributes that are attached to it while it is processed. The user is
-- absent if it is anonymous.
structure HttpRequest where
  method               : Option String
  path                 : String
  headers              : List (String × String)
  user                 : Option Uuid
  auth                 : Option Credential
  subscription         : Option LoadedSubscription
  subscriptionPlanSlug : Option String
  durationMs           : Option Nat

namespace HttpRequest

-- `request.META.get(name)`
def header (r : HttpRequest) (name : String) : Option String :=
  r.headers.lookup name

end HttpRequest

-- An empty `X-Forwarded-For` is as good as none.
def clientIp (request : HttpRequest) : String :=
  match request.header "HTTP_X_FORWARDED_FOR" with
  | some xff =>
    if xff ≠ "" then Text.strip <| .ofList <| (Text.split ',' xff.toList).headD []
    else (request.header "REMOTE_ADDR").getD ""
  | none     => (request.header "REMOTE_ADDR").getD ""

section Permissions

namespace HasActiveSubscription

def hasPermission (request : HttpRequest) (now : Instant) : Bool :=
  match request.subscription with
  | none     => false
  | some sub => sub.isActive now

end HasActiveSubscription

-- The permission class `HasFeature.with_key(feature_key)`.
structure HasFeature where
  withKey ::
  featureKey : String

namespace HasFeature

def hasPermission (p : HasFeature) (request : HttpRequest) (now : Instant) : Bool :=
  match request.subscription with
  | none     => false
  | some sub => if !sub.isActive now then false else (sub.plan.feature p.featureKey).truthy

end HasFeature
end Permissions

section Throttling

-- `DEFAULT_THROTTLE_RATES`
def throttleRates : List (String × String) := [
  ("anon", "30/min"),
  ("plan_free", "60/min"),
  ("plan_pro", "600/min"),
  ("plan_enterprise", "6000/min")
]

-- The number of requests, and the number of seconds they are counted for.
structure Rate where
  numRequests : Nat
  duration    : Nat
  deriving DecidableEq

-- The period is identified by its first letter. A rate which is not of the form `n/period` does not
-- occur in the settings.
def parseRate (rate : String) : Option Rate :=
  match Text.split '/' rate.toList with
  | [num, 's' :: _] => some ⟨Text.decimal num, 1⟩
  | [num, 'm' :: _] => some ⟨Text.decimal num, 60⟩
  | [num, 'h' :: _] => some ⟨Text.decimal num, 3600⟩
  | [num, 'd' :: _] => some ⟨Text.decimal num, 86400⟩
  | _               => none

-- The key under which requests are counted, and the rate that is installed along with it.
structure CacheKey where
  scope : String
  ident : Uuid
  rate  : Rate
  deriving DecidableEq

namespace PlanScopedUserThrottle

def userPlanSlug (request : HttpRequest) : String :=
  match request.subscriptionPlanSlug with
  | some planSlug => if planSlug = "" then "free" else planSlug
  | none          => "free"

-- `get_rate` raises if the scope has no rate.
def getCacheKey (request : HttpRequest) : Except Exn (Option CacheKey) :=
  match request.user with
  | none      => .ok none
  | some user =>
    let scope := "plan_" ++ userPlanSlug request
    match (throttleRates.lookup scope).bind parseRate with
    | some rate => .ok <| some ⟨scope, user, rate⟩
    | none      => .error .improperlyConfigured

end PlanScopedUserThrottle
end Throttling
end SaasBackend
