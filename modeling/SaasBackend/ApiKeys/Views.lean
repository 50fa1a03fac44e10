import SaasBackend.Common.Fields
import SaasBackend.Http.Authentication

open Calendar ReadCommitted

namespace SaasBackend

open Service

section Serializers

-- The fields of `APIKeySerializer`.
structure APIKeyData where
  id         : Uuid
  name       : String
  keyPrefix  : String
  isActive   : Bool
  lastUsedAt : Option Instant
  revokedAt  : Option Instant

def APIKeySerializer.data (k : APIKey) : APIKeyData where
  id         := k.id
  name       := k.name
  keyPrefix  := k.keyPrefix
  isActive   := k.isActive
  lastUsedAt := k.lastUsedAt
  revokedAt  := k.revokedAt

def APIKeyCreateSerializer.validate (name : String) : Except Exn String :=
  CharField.validate { maxLength := some 120 } name

-- The fields of `APIKeyIssuedSerializer`.
structure APIKeyIssuedData where
  key    : String
  apiKey : APIKeyData

def APIKeyIssuedSerializer.data (issued : IssuedKey) : APIKeyIssuedData where
  key    := issued.plaintext
  apiKey := APIKeySerializer.data issued.apiKey

end Serializers

-- The envelope of a response.
structure Success (α : Type) where
  data    : α
  message : String := ""
  status  : Nat := 200

namespace APIKeyListCreateView

-- New rows are the first ones of a table.
def get (user : Uuid) : Service (Success (List APIKeyData)) := do
  let keys ← select fun d => d.apiKeys.rows.filter (·.userId = user)
  return { data := keys.map APIKeySerializer.data }

def post (user : Uuid) (name : String) (i : Issuing) : Service (Success APIKeyIssuedData) := do
  let name ← ofExcept (APIKeyCreateSerializer.validate name)
  let issued ← createApiKey user name i
  return {
    data    := APIKeyIssuedSerializer.data issued
    message := "API key created. Save it now — it will not be shown again."
    status  := 201
  }

end APIKeyListCreateView

def APIKeyRevokeView.post (user keyId : Uuid) (revokedAt : Instant) : Service (Success APIKeyData) := do
  let key ← revokeApiKey user keyId revokedAt
  return { data := APIKeySerializer.data key, message := "API key revoked." }

def APIKeyRotateView.post (user keyId : Uuid) (revokedAt : Instant) (i : Issuing) :
    Service (Success APIKeyIssuedData) := do
  let issued ← rotateApiKey user keyId revokedAt i
  return { data := APIKeyIssuedSerializer.data issued, message := "API key rotated." }

-- The endpoints for API keys.
inductive KeyEndpoint
  | list
  | create (name : String) (i : Issuing)
  | revoke (keyId : Uuid) (revokedAt : Instant)
  | rotate (keyId : Uuid) (revokedAt : Instant) (i : Issuing)

inductive KeyResponse
  | list (r : Success (List APIKeyData))
  | key (r : Success APIKeyData)
  | issued (r : Success APIKeyIssuedData)

namespace KeyEndpoint

def view (user : Uuid) : KeyEndpoint → Service KeyResponse
  | list          => do let r ← APIKeyListCreateView.get user; return .list r
  | create name i => do let r ← APIKeyListCreateView.post user name i; return .issued r
  | revoke k t    => do let r ← APIKeyRevokeView.post user k t; return .key r
  | rotate k t i  => do let r ← APIKeyRotateView.post user k t i; return .issued r

def dispatch (jwt : JWTAuthentication) (request : HttpRequest) (now : Instant) (e : KeyEndpoint) :
    Service (Uuid × KeyResponse) := do
  let user ← isAuthenticated jwt request now
  let response ← e.view user.id
  return (user.id, response)

end KeyEndpoint
end SaasBackend
