import SaasBackend.Subscriptions.Selectors

open Calendar ReadCommitted

namespace SaasBackend

open Service

-- What the payload of a token says about its user.
structure Claims where
  userId     : Uuid
  email      : String
  role       : UserRole
  isVerified : Bool
  plan       : String
  deriving DecidableEq

structure RefreshToken where
  jti    : String
  exp    : Instant
  claims : Claims
  deriving DecidableEq

structure AccessToken where
  claims : Claims
  deriving DecidableEq

-- What is returned by a login or a refresh.
structure TokenPair where
  refresh : RefreshToken
  access  : AccessToken
  deriving DecidableEq

-- What a client presents as a refresh token. It is none if no token can be decoded from it.
abbrev Presented := Option RefreshToken

-- `Model.objects.get_or_create(...)`, where the row is recognized by its key. If it is created by
-- somebody else in between, then that row is taken.
def getOrCreate (exists_ : Database → Bool) (r : Row) : Service Unit := do
  if ← select exists_ then return ()
  else
    handle (atomic <| create r) fun e => do
      match e with
      | .integrityError => if ← select exists_ then return () else raise e
      | _               => raise e

-- The part of `rest_framework_simplejwt` that this project uses, with its app `token_blacklist`.
namespace RefreshToken

def isBlacklisted (jti : String) (d : Database) : Bool :=
  (d.blacklistedTokens.lookup <| .blacklistedToken jti).isSome

def isOutstanding (jti : String) (d : Database) : Bool :=
  (d.outstandingTokens.lookup <| .outstandingToken jti).isSome

def accessToken (t : RefreshToken) : AccessToken where
  claims := t.claims

-- `RefreshToken(token)`
def verify (presented : Presented) (now : Instant) : Service RefreshToken :=
  match presented with
  | none   => raise .tokenError
  | some t =>
    if t.exp ≤ now then raise .tokenError
    else do
      if ← select (isBlacklisted t.jti) then raise .tokenError
      else return t

def blacklist (t : RefreshToken) : Service Unit := do
  getOrCreate (isOutstanding t.jti) (.outstandingToken ⟨t.jti, none, t.exp⟩)
  getOrCreate (isBlacklisted t.jti) (.blacklistedToken ⟨t.jti⟩)

-- The expiry of a token, where `days` is the `REFRESH_TOKEN_LIFETIME`.
def expiry (now : Instant) (days : Nat) : Except Exn Instant :=
  (now.addDays days).elim (.error .overflowError) .ok

def forUser (claims : Claims) (jti : String) (now : Instant) (days : Nat) : Service RefreshToken := do
  let exp ← ofExcept <| expiry now days
  create <| .outstandingToken ⟨jti, some claims.userId, exp⟩
  return ⟨jti, exp, claims⟩

-- `TokenRefreshSerializer.validate`, where `ROTATE_REFRESH_TOKENS` and `BLACKLIST_AFTER_ROTATION` are
-- set. The new token has the claims of the old one.
def rotate (presented : Presented) (jti : String) (now : Instant) (days : Nat) : Service TokenPair := do
  let t ← verify presented now
  t.blacklist
  let exp ← ofExcept <| expiry now days
  return ⟨{ t with jti := jti, exp := exp }, t.accessToken⟩

end RefreshToken
end SaasBackend
