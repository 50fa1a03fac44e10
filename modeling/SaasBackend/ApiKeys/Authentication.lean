import SaasBackend.ApiKeys.Services
import SaasBackend.Http.Request

open Calendar ReadCommitted

namespace SaasBackend

open Service

namespace APIKeyAuthentication

def keyword := "Api-Key"
def headerName := "HTTP_X_API_KEY"

-- `get_authorization_header` encodes the header as ISO 8859-1. Only the words of the header can be
-- checked to be in ASCII, and only for the second one a failure is handled.
def extractFromAuthorization (request : HttpRequest) : Except Exn (Option String) :=
  let auth := ((request.header "HTTP_AUTHORIZATION").getD "").toList
  if auth.any (256 ≤ ·.toNat) then .error .valueError
  else
    match Text.words auth with
    | [scheme, key] =>
      if scheme.any (128 ≤ ·.toNat) then .error .valueError
      else if scheme.map Char.toLower ≠ keyword.toList.map Char.toLower then .ok none
      else if key.any (128 ≤ ·.toNat) then .error <| .unauthenticated "Invalid API key header."
      else .ok <| some <| .ofList key
    | _             => .ok none

def extractKey (request : HttpRequest) : Except Exn (Option String) :=
  match request.header headerName with
  | none       => extractFromAuthorization request
  | some value => if value ≠ "" then .ok <| some <| Text.strip value else extractFromAuthorization request

-- The keys which are neither revoked nor excluded by the prefix, joined with their users.
def candidates (d : Database) (pre : String) : List (APIKey × User) :=
  (d.apiKeys.rows.filter fun k => k.keyPrefix = pre ∧ k.revokedAt = none).filterMap fun k =>
    (d.users.lookup <| .user k.userId).map fun u => (k, u)

-- An error of `mark_used` is logged and ignored.
def compareCandidates (providedHash : Sha256) (now : Instant) :
    List (APIKey × User) → Service (User × APIKey)
  | []                     => raise <| .unauthenticated "Invalid API key."
  | (candidate, user) :: cs =>
    if candidate.keyHash = providedHash then
      if !user.isActive then
        raise <| .unauthenticated "User account is disabled."
      else do
        handle (candidate.markUsed now) fun _ => return ()
        return (user, candidate)
    else
      compareCandidates providedHash now cs

-- Without a key, the request is left to other authentication classes.
def authenticate (request : HttpRequest) (now : Instant) : Service (Option (User × APIKey)) := do
  match ← ofExcept (extractKey request) with
  | none           => return none
  | some plaintext =>
    if plaintext = "" then return none
    else do
      let cs ← select (candidates · (splitPrefix plaintext))
      let found ← compareCandidates (computeHash plaintext) now cs
      return some found

end APIKeyAuthentication
end SaasBackend
