import SaasBackend.Subscriptions.Selectors

open Calendar ReadCommitted

namespace SaasBackend

open Service

-- `default_period_window`, where the clock reads `start`.
def defaultPeriodWindow (plan : Plan) (start : Instant) : Except Exn (Instant × Instant) :=
  let days := if plan.durationDays = 0 then 30 else plan.durationDays
  match start.addDays days with
  | some finish => .ok (start, finish)
  | none        => .error .overflowError

-- `start.replace(year=start.year + 50)`
def fiftyYearsLater (start : Instant) : Except Exn Instant :=
  match start.replaceYear (start.date.1 + 50) with
  | some finish => .ok finish
  | none        => .error .valueError

-- What `_create_subscription` takes from its environment: the clock and the generated ids.
structure Opening where
  start          : Instant
  subscriptionId : Uuid
  quotaId        : Uuid

def createSubscription (user : Uuid) (plan : Plan) (expires : Bool) (o : Opening) :
    Service LoadedSubscription := do
  let (start, finish) ← ofExcept <| defaultPeriodWindow plan o.start
  let sub : Subscription := {
    id         := o.subscriptionId
    userId     := user
    planId     := plan.id
    status     := .active
    startedAt  := start
    expiresAt  := if expires then some finish else none
    canceledAt := none
    autoRenew  := expires
  }
  create <| .subscription sub
  let periodEnd ← ofExcept <| if expires then .ok finish else fiftyYearsLater start
  create <| .usageQuota {
    id             := o.quotaId
    subscriptionId := sub.id
    periodStart    := start
    periodEnd      := periodEnd
    requestsUsed   := 0
  }
  return { sub with plan := plan }

def enrollInFreePlan (user : Uuid) (o : Opening) : Service LoadedSubscription :=
  atomic do
    match ← select (getPlanBySlug · PlanSlug.free) with
    | none      => raise <| .notFound "Free plan is not configured." "plan_missing"
    | some plan => createSubscription user plan false o

-- Replaces the existing active subscription of the user, if any.
def subscribe (user : Uuid) (planSlug : String) (canceledAt : Instant) (o : Opening) :
    Service LoadedSubscription :=
  atomic do
    match ← select (getPlanBySlug · planSlug) with
    | none      => raise <| .notFound "Plan not found." "plan_not_found"
    | some plan =>
      let replacement := createSubscription user plan (plan.durationDays > 0) o
      match ← select (getActiveSubscription · user) with
      | none         => replacement
      | some current =>
        if current.planId = plan.id then
          raise <| .conflict "Already subscribed to this plan." "already_subscribed"
        else do
          save Database.subscriptions .subscription (.subscription current.id) fun s =>
            { s with status := .canceled, canceledAt := some canceledAt }
          replacement

def upgrade := subscribe

def downgrade (user : Uuid) (planSlug : String := PlanSlug.free) :=
  subscribe user planSlug

def cancel (user : Uuid) (canceledAt : Instant) (o : Opening) : Service LoadedSubscription :=
  atomic do
    match ← select (getActiveSubscription · user) with
    | none     => raise <| .notFound "No active subscription to cancel." "no_active_subscription"
    | some sub => do
      save Database.subscriptions .subscription (.subscription sub.id) fun s =>
        { s with status := .canceled, canceledAt := some canceledAt, autoRenew := false }
      enrollInFreePlan user o

-- What `record_request` takes from its environment. The clock is read once to find the current
-- quota, and once more if a new period has to be started.
structure Recording where
  opening : Opening
  now     : Instant
  start   : Instant
  quotaId : Uuid

def currentOrRotateQuota (sub : LoadedSubscription) (r : Recording) : Service UsageQuota := do
  match ← select (getCurrentQuota · sub.id r.now) with
  | some quota => return quota
  | none       =>
    let (start, finish) ← ofExcept <| defaultPeriodWindow sub.plan r.start
    let quota : UsageQuota := {
      id             := r.quotaId
      subscriptionId := sub.id
      periodStart    := start
      periodEnd      := finish
      requestsUsed   := 0
    }
    create <| .usageQuota quota
    return quota

def quotaExceeded (plan : Plan) (used : Nat) : Exn :=
  .domain <| .mk' .quotaExceeded
    ("Monthly quota of " ++ toString plan.requestQuota ++ " requests exceeded for plan '" ++
      plan.slug ++ "'.")
    "quota_exceeded"
    [("plan", .str plan.slug), ("limit", .num plan.requestQuota), ("used", .num used)]

-- A limit of 0 means that there is none.
def isOverLimit (limit used : Nat) : Bool :=
  limit ≠ 0 ∧ limit ≤ used

def incrementUsage (quota : UsageQuota) : Service Unit :=
  update Database.quotas .usageQuota (.usageQuota quota.id) fun q =>
    { q with requestsUsed := q.requestsUsed + 1 }

-- The part of `record_request` that follows once a subscription is found.
def charge (sub : LoadedSubscription) (r : Recording) : Service Unit := do
  let quota ← currentOrRotateQuota sub r
  if isOverLimit sub.plan.requestQuota quota.requestsUsed then
    raise <| quotaExceeded sub.plan quota.requestsUsed
  else
    incrementUsage quota

def recordRequest (user : Uuid) (r : Recording) : Service Unit := do
  match ← select (getActiveSubscription · user) with
  | some sub => charge sub r
  | none     => do
    let sub ← enrollInFreePlan user r.opening
    charge sub r

-- The sweep handles each subscription of the result set in a transaction of its own. What fails is
-- logged and skipped.
def expireSubscription (sub : LoadedSubscription) (o : Opening) (affected : Nat) : Service Nat :=
  handle
    (atomic do
      save Database.subscriptions .subscription (.subscription sub.id) fun s =>
        { s with status := .expired }
      let _ ← enrollInFreePlan sub.userId o
      return affected + 1)
    (fun _ => return affected)

def expireSubscriptions (openings : Uuid → Opening) :
    List LoadedSubscription → (affected : Nat) → Service Nat
  | [],          affected => return affected
  | sub :: subs, affected => do
    let affected ← expireSubscription sub (openings sub.id) affected
    expireSubscriptions openings subs affected

def expireDueSubscriptions (now : Instant) (openings : Uuid → Opening) : Service Nat := do
  let subs ← select (dueSubscriptions · now)
  expireSubscriptions openings subs 0

def hasFeature (user : Uuid) (featureKey : String) : Service Bool :=
  select fun d =>
    match getActiveSubscription d user with
    | none     => false
    | some sub => (sub.plan.feature featureKey).truthy

end SaasBackend
