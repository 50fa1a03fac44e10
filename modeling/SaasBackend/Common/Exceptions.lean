namespace SaasBackend

-- The values of a `JSONField`, and of the details of an error.
inductive Json
  | null
  | bool (b : Bool)
  | num  (q : Rat)
  | str  (s : String)
  | arr  (items : List Json)
  | obj  (members : List (String × Json))

namespace Json

-- `bool(value)`
def truthy : Json → Bool
  | null        => false
  | bool b      => b
  | num q       => q ≠ 0
  | str s       => s ≠ ""
  | arr items   => !items.isEmpty
  | obj members => !members.isEmpty

end Json

-- The subclasses of `DomainError`.
inductive DomainError.Kind
  | domainError
  | validationError
  | authenticationFailed
  | permissionDenied
  | notFound
  | conflict
  | quotaExceeded
  | serviceUnavailable
  deriving DecidableEq

namespace DomainError.Kind

def statusCode : DomainError.Kind → Nat
  | domainError          => 400
  | validationError      => 400
  | authenticationFailed => 401
  | permissionDenied     => 403
  | notFound             => 404
  | conflict             => 409
  | quotaExceeded        => 429
  | serviceUnavailable   => 503

def defaultDetail : DomainError.Kind → String
  | domainError          => "A domain error occurred."
  | validationError      => "Invalid input."
  | authenticationFailed => "Authentication failed."
  | permissionDenied     => "Permission denied."
  | notFound             => "Resource not found."
  | conflict             => "Conflict with current resource state."
  | quotaExceeded        => "Subscription quota exceeded."
  | serviceUnavailable   => "Service temporarily unavailable."

def defaultCode : DomainError.Kind → String
  | domainError          => "domain_error"
  | validationError      => "validation_error"
  | authenticationFailed => "authentication_failed"
  | permissionDenied     => "permission_denied"
  | notFound             => "not_found"
  | conflict             => "conflict"
  | quotaExceeded        => "quota_exceeded"
  | serviceUnavailable   => "service_unavailable"

end DomainError.Kind

structure DomainError where
  kind    : DomainError.Kind
  detail  : String
  code    : String
  details : List (String × Json)

-- The constructor of the exception classes, where an empty message or code is as good as none.
def DomainError.mk' (kind : DomainError.Kind) (message : String) (code : String)
    (details : List (String × Json) := []) : DomainError where
  kind    := kind
  detail  := if message = "" then kind.defaultDetail else message
  code    := if code = "" then kind.defaultCode else code
  details := details

-- The exceptions that a service can end with.
inductive Exn
  | domain (e : DomainError)
  -- `django.db.IntegrityError`: a unique constraint is violated.
  | integrityError
  -- `django.db.DataError`: the database rejects a value.
  | dataError
  -- `django.db.OperationalError`: a deadlock, a lost connection, etc.
  | operationalError
  -- `django.db.DatabaseError`: `save(update_fields=...)` did not affect any rows.
  | databaseError
  -- `django.core.exceptions.ImproperlyConfigured`
  | improperlyConfigured
  -- `rest_framework.exceptions.ValidationError`: a serializer rejects its input.
  | invalidInput
  -- `rest_framework_simplejwt.exceptions.TokenError`
  | tokenError
  -- `rest_framework_simplejwt.exceptions.InvalidToken`
  | invalidToken
  -- `rest_framework.exceptions.AuthenticationFailed`: the credentials are those of no active account.
  | noActiveAccount
  -- `rest_framework.exceptions.AuthenticationFailed`, as raised by an authentication class.
  | unauthenticated (detail : String)
  -- `rest_framework.exceptions.NotAuthenticated`
  | notAuthenticated
  | overflowError
  | valueError

namespace Exn

def validationError (message code : String) : Exn :=
  .domain <| .mk' .validationError message code

def authenticationFailed (message code : String) : Exn :=
  .domain <| .mk' .authenticationFailed message code

def permissionDenied (message code : String) : Exn :=
  .domain <| .mk' .permissionDenied message code

def notFound (message code : String) : Exn :=
  .domain <| .mk' .notFound message code

def conflict (message code : String) : Exn :=
  .domain <| .mk' .conflict message code

-- `exc.code`, if it is a domain error.
def code? : Exn → Option String
  | domain e => some e.code
  | _        => none

end Exn
end SaasBackend
