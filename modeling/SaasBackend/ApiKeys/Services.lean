import SaasBackend.Subscriptions.Selectors

open Calendar ReadCommitted

namespace SaasBackend

open Service

def keyPrefix := "sk_live_"
def prefixLenForDisplay := 12

-- `token` is the result of `secrets.token_urlsafe`.
def generatePlaintextKey (token : String) : String :=
  keyPrefix ++ token

def splitPrefix (plaintext : String) : String :=
  Text.truncate plaintext prefixLenForDisplay

def computeHash (plaintext : String) : Sha256 :=
  hashToken plaintext

namespace APIKey

def markUsed (key : APIKey) (now : Instant) : Service Unit :=
  update Database.apiKeys .apiKey (.apiKey key.id) fun k => { k with lastUsedAt := some now }

def revoke (key : APIKey) (revokedAt : Instant) : Service Unit :=
  save Database.apiKeys .apiKey (.apiKey key.id) fun k => { k with revokedAt := some revokedAt }

end APIKey

-- The plaintext is returned once only.
structure IssuedKey where
  plaintext : String
  apiKey    : APIKey
  deriving DecidableEq

-- What `create_api_key` takes from its environment: the random token and the generated id.
structure Issuing where
  token : String
  id    : Uuid

def Issuing.plaintext (i : Issuing) : String :=
  generatePlaintextKey i.token

-- `key_name or "default"`, where the name is trimmed and cut off.
def keyName (name : String) : String :=
  let name := Text.truncate (Text.strip name) 120
  if name = "" then "default" else name

def newApiKey (user : Uuid) (name : String) (i : Issuing) : APIKey where
  id         := i.id
  userId     := user
  name       := keyName name
  keyPrefix  := splitPrefix i.plaintext
  keyHash    := computeHash i.plaintext
  lastUsedAt := none
  revokedAt  := none

-- The rows of a user that match `revoked_at__isnull=True`.
def isActiveKeyOf (user : Uuid) (k : APIKey) : Bool :=
  k.userId = user ∧ k.revokedAt = none

def currentActive (d : Database) (user : Uuid) : Nat :=
  d.apiKeys.rows.countP (isActiveKeyOf user)

def planMax (sub : Option LoadedSubscription) : Nat :=
  match sub with
  | none     => 1
  | some sub => sub.plan.maxApiKeys

def apiKeyLimitReached (planMax current : Nat) : Exn :=
  .domain <| .mk' .permissionDenied
    ("Your plan allows at most " ++ toString planMax ++ " active API key(s).")
    "api_key_limit_reached"
    [("limit", .num planMax), ("current", .num current)]

-- The part of `create_api_key` that follows once the limit is known.
def issueKey (user : Uuid) (name : String) (i : Issuing) (planMax : Nat) : Service IssuedKey := do
  let current ← select (currentActive · user)
  if planMax ≤ current then
    raise <| apiKeyLimitReached planMax current
  else do
    create <| .apiKey <| newApiKey user name i
    return ⟨i.plaintext, newApiKey user name i⟩

def createApiKey (user : Uuid) (name : String) (i : Issuing) : Service IssuedKey :=
  atomic do
    let sub ← select (getActiveSubscription · user)
    issueKey user name i (planMax sub)

def findKey (d : Database) (id user : Uuid) : Option APIKey :=
  d.apiKeys.rows.find? fun k => k.id = id ∧ k.userId = user

def apiKeyNotFound : Exn :=
  .notFound "API key not found." "api_key_not_found"

def revokeApiKey (user keyId : Uuid) (revokedAt : Instant) : Service APIKey := do
  match ← select (findKey · keyId user) with
  | none     => raise apiKeyNotFound
  | some key =>
    if !key.isActive then
      raise <| .conflict "API key already revoked." "already_revoked"
    else do
      key.revoke revokedAt
      return { key with revokedAt := some revokedAt }

def rotateApiKey (user keyId : Uuid) (revokedAt : Instant) (i : Issuing) : Service IssuedKey :=
  atomic do
    match ← selectForUpdate .apiKey (findKey · keyId user) with
    | none     => raise apiKeyNotFound
    | some old =>
      if !old.isActive then
        raise <| .conflict "Cannot rotate a revoked key." "already_revoked"
      else do
        old.revoke revokedAt
        createApiKey user old.name i

end SaasBackend
