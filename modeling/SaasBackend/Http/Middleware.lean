import SaasBackend.Http.Request

open Calendar ReadCommitted

namespace SaasBackend

-- The error envelope of an exception which keeps a request from reaching its view.
structure Refusal where
  statusCode : Nat
  code       : String
  deriving DecidableEq

-- The response of a view, which includes the errors that the view itself ends with, or a refusal.
inductive HttpResponse
  | view (statusCode : Nat)
  | refused (r : Refusal)
  deriving DecidableEq

namespace HttpResponse

def statusCode : HttpResponse → Nat
  | view n    => n
  | refused r => r.statusCode

def isView : HttpResponse → Bool
  | view _    => true
  | refused _ => false

-- The response by which a request over the quota of its user would be refused.
def quotaExceeded : HttpResponse :=
  refused {
    statusCode := DomainError.Kind.quotaExceeded.statusCode
    code       := DomainError.Kind.quotaExceeded.defaultCode
  }

end HttpResponse

-- A request while it is processed, the database, and the users for whom `record_request` was called.
structure Exchange where
  request : HttpRequest
  db      : Database
  charged : List Uuid

-- Exceptions are converted to responses at each layer, so that every handler returns.
abbrev Handler := Exchange → HttpResponse × Exchange

section SubscriptionContext

-- `request.user` is the user of the Django session here, since the views authenticate only later.
def attachSubscription (db : Database) (request : HttpRequest) : HttpRequest :=
  let request := { request with subscription := none, subscriptionPlanSlug := some "free" }
  match request.user.bind (getActiveSubscription db) with
  | none     => request
  | some sub => { request with subscription := some sub, subscriptionPlanSlug := some sub.plan.slug }

def subscriptionContextMiddleware (getResponse : Handler) : Handler := fun x =>
  getResponse { x with request := attachSubscription x.db x.request }

end SubscriptionContext

section RequestAnalytics

def apiPrefixes := ["/api/v1/"]

-- Requests which are neither logged nor counted.
def isUnrecorded (path : String) : Bool :=
  !apiPrefixes.any (Text.startsWith path) ||
  (Text.startsWith path "/api/v1/" && ["/schema/", "/docs/", "/redoc/"].any (Text.endsWith path))

-- What `_record` takes from its environment.
structure Recorder where
  logId     : Uuid
  createdAt : Instant
  recording : Recording

def requestLog (request : HttpRequest) (response : HttpResponse) (user : Uuid) (e : Recorder) :
    RequestLog where
  id         := e.logId
  userId     := user
  apiKeyId   :=
    match request.auth with
    | some (.apiKey key) => some key.id
    | _                  => none
  method     := request.method.getD ""
  path       := Text.truncate request.path 512
  statusCode := response.statusCode
  responseMs := request.durationMs.getD 0
  ipAddress  := if clientIp request = "" then none else some (clientIp request)
  userAgent  := Text.truncate ((request.header "HTTP_USER_AGENT").getD "") 512
  createdAt  := e.createdAt

-- An exception from `record_request` is swallowed.
def record (response : HttpResponse) (user : Uuid) (e : Recorder) (x : Exchange) :
    Except Exn Unit × Exchange :=
  match (Service.create (.requestLog <| requestLog x.request response user e)).run x.db with
  | (.error exc, db) => (.error exc, { x with db := db })
  | (.ok _,      db) =>
    let (_, db) := (recordRequest user e.recording).run db
    (.ok (), { x with db := db, charged := user :: x.charged })

-- An exception from `_record` is logged and swallowed.
def requestAnalyticsMiddleware (e : Recorder) (getResponse : Handler) : Handler := fun x =>
  let (response, x) := getResponse x
  if isUnrecorded x.request.path then (response, x)
  else
    match x.request.user with
    | none      => (response, x)
    | some user => (response, (record response user e x).2)

end RequestAnalytics

section RequestLogging

-- Two readings of the monotonic clock, in nanoseconds.
structure Stopwatch where
  start  : Nat
  finish : Nat

def Stopwatch.durationMs (s : Stopwatch) : Nat :=
  (s.finish - s.start) / 1000000

def requestLoggingMiddleware (s : Stopwatch) (getResponse : Handler) : Handler := fun x =>
  let (response, x) := getResponse x
  (response, { x with request := { x.request with durationMs := some s.durationMs } })

end RequestLogging

section Dispatch

-- A view, as far as it is visible from outside: the credentials it finds in the request, whether its
-- permissions and throttles let the request pass, and its response.
structure View where
  credentials : Option (Uuid × Credential)
  permits     : HttpRequest → Bool
  allows      : HttpRequest → Bool
  respond     : HttpRequest → Database → Nat × Database

def authenticate (credentials : Option (Uuid × Credential)) (request : HttpRequest) : HttpRequest :=
  { request with user := credentials.map Prod.fst, auth := credentials.map Prod.snd }

-- The dispatch of the view class sets the user before it checks permissions and throttles.
def View.dispatch (v : View) : Handler := fun x =>
  let x := { x with request := authenticate v.credentials x.request }
  if !v.permits x.request then
    match x.request.user with
    | none   => (.refused ⟨401, "not_authenticated"⟩, x)
    | some _ => (.refused ⟨403, "permission_denied"⟩, x)
  else if !v.allows x.request then (.refused ⟨429, "throttled"⟩, x)
  else
    let (statusCode, db) := v.respond x.request x.db
    (.view statusCode, { x with db := db })

-- The custom middlewares, in the order of the settings.
def stack (s : Stopwatch) (e : Recorder) (v : View) : Handler :=
  requestLoggingMiddleware s <| requestAnalyticsMiddleware e <| subscriptionContextMiddleware v.dispatch

end Dispatch
end SaasBackend
