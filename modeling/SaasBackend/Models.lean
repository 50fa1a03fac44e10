import SaasBackend.Calendar
import SaasBackend.Common.Exceptions
import SaasBackend.Common.Text

open Calendar

namespace SaasBackend

abbrev Uuid := Nat

-- The result of `set_password`.
structure PasswordHash where
  plaintext : String
  deriving DecidableEq

-- A SHA-256 hash, for which no collisions are known.
structure Sha256 where
  preimage : String
  deriving DecidableEq

def hashToken (token : String) : Sha256 where
  preimage := token

inductive UserRole
  | admin
  | staff
  | customer
  deriving DecidableEq

structure User where
  id          : Uuid
  email       : String
  password    : PasswordHash
  firstName   : String
  lastName    : String
  role        : UserRole
  isActive    : Bool
  isVerified  : Bool
  lastLogin   : Option Instant
  lastLoginAt : Option Instant
  deriving DecidableEq

structure Plan where
  id                 : Uuid
  slug               : String
  requestQuota       : Nat
  rateLimitPerMinute : Nat
  maxApiKeys         : Nat
  durationDays       : Nat
  features           : List (String × Json)
  isActive           : Bool
  slug_nonempty      : slug ≠ ""

namespace Plan

-- `plan.features.get(key)`
def feature (p : Plan) (key : String) : Json :=
  (p.features.lookup key).getD .null

end Plan

-- The members of `PlanSlug`.
namespace PlanSlug

def free       := "free"
def pro        := "pro"
def enterprise := "enterprise"

end PlanSlug

inductive SubscriptionStatus
  | active
  | canceled
  | expired
  | pastDue
  deriving DecidableEq

structure Subscription where
  id         : Uuid
  userId     : Uuid
  planId     : Uuid
  status     : SubscriptionStatus
  startedAt  : Instant
  expiresAt  : Option Instant
  canceledAt : Option Instant
  autoRenew  : Bool
  deriving DecidableEq

namespace Subscription

def isActive (s : Subscription) (now : Instant) : Bool :=
  if s.status ≠ .active then false
  else if s.expiresAt.any (· ≤ now) then false
  else true

theorem isActive_iff {s : Subscription} {now : Instant} :
    s.isActive now ↔ s.status = .active ∧ ∀ t, s.expiresAt = some t → now < t := by
  unfold isActive
  by_cases h : s.status = .active
  case neg => simp [h]
  case pos => cases he : s.expiresAt <;> simp [h]

end Subscription

-- An instance of `Subscription` whose plan is loaded along with it.
structure LoadedSubscription extends Subscription where
  plan : Plan

structure UsageQuota where
  id             : Uuid
  subscriptionId : Uuid
  periodStart    : Instant
  periodEnd      : Instant
  requestsUsed   : Nat
  deriving DecidableEq

namespace UsageQuota

def isCurrent (q : UsageQuota) (now : Instant) : Bool :=
  q.periodStart ≤ now ∧ now < q.periodEnd

end UsageQuota

-- The two kinds of one-shot tokens that are sent by email.
inductive TokenKind
  | emailVerification
  | passwordReset
  deriving DecidableEq

structure Token (kind : TokenKind) where
  id        : Uuid
  userId    : Uuid
  tokenHash : Sha256
  expiresAt : Instant
  usedAt    : Option Instant
  deriving DecidableEq

abbrev EmailVerificationToken := Token .emailVerification
abbrev PasswordResetToken     := Token .passwordReset

namespace Token

def isValid {kind : TokenKind} (t : Token kind) (now : Instant) : Bool :=
  t.usedAt = none ∧ now < t.expiresAt

end Token

structure UserSession where
  id         : Uuid
  userId     : Uuid
  refreshJti : String
  userAgent  : String
  ipAddress  : Option String
  revokedAt  : Option Instant
  deriving DecidableEq

namespace UserSession

def isActive (s : UserSession) : Bool :=
  s.revokedAt = none

end UserSession

structure APIKey where
  id         : Uuid
  userId     : Uuid
  name       : String
  keyPrefix  : String
  keyHash    : Sha256
  lastUsedAt : Option Instant
  revokedAt  : Option Instant
  deriving DecidableEq

namespace APIKey

def isActive (k : APIKey) : Bool :=
  k.revokedAt = none

end APIKey

structure RequestLog where
  id         : Uuid
  userId     : Option Uuid
  apiKeyId   : Option Uuid
  method     : String
  path       : String
  statusCode : Nat
  responseMs : Nat
  ipAddress  : Option String
  userAgent  : String
  createdAt  : Instant
  deriving DecidableEq

structure DailyUsage where
  id            : Uuid
  userId        : Uuid
  date          : Day
  requestCount  : Nat
  errorCount    : Nat
  avgResponseMs : Nat
  deriving DecidableEq

-- The tables of `rest_framework_simplejwt.token_blacklist`.
structure OutstandingToken where
  jti       : String
  userId    : Option Uuid
  expiresAt : Instant
  deriving DecidableEq

structure BlacklistedToken where
  jti : String
  deriving DecidableEq

end SaasBackend
