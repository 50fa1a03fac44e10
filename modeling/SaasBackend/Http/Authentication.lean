import SaasBackend.ApiKeys.Authentication

open Calendar ReadCommitted

namespace SaasBackend

open Service

-- `rest_framework_simplejwt.authentication.JWTAuthentication`, which only reads from the database.
structure JWTAuthentication where
  authenticate : HttpRequest → Instant → Database → Except Exn (Option User)

-- The first of the `DEFAULT_AUTHENTICATION_CLASSES` which accepts the request decides who the user is.
def performAuthentication (jwt : JWTAuthentication) (request : HttpRequest) (now : Instant) :
    Service (Option (User × Credential)) := do
  let result ← select (jwt.authenticate request now)
  match ← ofExcept result with
  | some user => return some (user, .jwt)
  | none      =>
    match ← APIKeyAuthentication.authenticate request now with
    | some (user, key)  => return some (user, .apiKey key)
    | none              => return none

-- The permission `IsAuthenticated` of a view which leaves the authentication classes as they are.
def isAuthenticated (jwt : JWTAuthentication) (request : HttpRequest) (now : Instant) :
    Service User := do
  match ← performAuthentication jwt request now with
  | none            => raise .notAuthenticated
  | some (user, _)  => return user

end SaasBackend
