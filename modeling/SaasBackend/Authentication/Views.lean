import SaasBackend.Authentication.Services
import SaasBackend.Http.Request

open Calendar ReadCommitted

namespace SaasBackend

open Service

-- `django.contrib.auth.backends.ModelBackend.authenticate`
def ModelBackend.authenticate (d : Database) (email password : String) : Option User :=
  (d.users.rows.find? (·.email = email)).filter fun u => u.password = ⟨password⟩ ∧ u.isActive

namespace CustomTokenObtainPairSerializer

-- The claims that `get_token` adds to a token.
def claims (d : Database) (user : User) : Claims where
  userId     := user.id
  email      := user.email
  role       := user.role
  isVerified := user.isVerified
  plan       :=
    match getActiveSubscription d user.id with
    | none     => "free"
    | some sub => sub.plan.slug

end CustomTokenObtainPairSerializer

-- What a login takes from its environment: the generated ids, the time when the token is issued and
-- checked, the times which are stored, and the `REFRESH_TOKEN_LIFETIME`.
structure LoginEnv where
  jti         : String
  sessionId   : Uuid
  now         : Instant
  lastLogin   : Instant
  lastLoginAt : Instant
  days        : Nat

-- The validation of the credentials. Character fields are trimmed, and must not be blank then.
def CustomTokenObtainPairSerializer.validate (email password : String) (e : LoginEnv) :
    Service (User × TokenPair) := do
  let email    := Text.strip email
  let password := Text.strip password
  if email = "" ∨ password = "" then raise .invalidInput
  else
    match ← select (ModelBackend.authenticate · email password) with
    | none      => raise .noActiveAccount
    | some user =>
      let claims  ← select (claims · user)
      let refresh ← RefreshToken.forUser claims e.jti e.now e.days
      save Database.users .user (.user user.id) fun u => { u with lastLogin := some e.lastLogin }
      if !user.isActive then
        raise <| .authenticationFailed "Account is disabled." "account_disabled"
      else if !user.isVerified then
        raise <| .authenticationFailed
          "Email not verified. Please verify your email before logging in." "email_not_verified"
      else
        return (user, ⟨refresh, refresh.accessToken⟩)

namespace LoginView

def post (request : HttpRequest) (email password : String) (e : LoginEnv) : Service TokenPair := do
  let (user, data) ← CustomTokenObtainPairSerializer.validate email password e
  let refresh ← RefreshToken.verify (some data.refresh) e.now
  let _ ← recordSession user.id refresh ((request.header "HTTP_USER_AGENT").getD "")
    (clientIp request) e.sessionId
  save Database.users .user (.user user.id) fun u => { u with lastLoginAt := some e.lastLoginAt }
  return data

end LoginView

namespace RefreshView

def post (presented : Presented) (jti : String) (now : Instant) (days : Nat) : Service TokenPair :=
  handle (RefreshToken.rotate presented jti now days) fun e =>
    match e with
    | .tokenError => raise .invalidToken
    | _           => raise e

end RefreshView
end SaasBackend
