import SaasBackend.Models
import SaasBackend.ReadCommitted.Relational

open Calendar ReadCommitted

namespace SaasBackend

-- Primary keys, and entries of the unique indexes.
inductive Key
  | user (id : Uuid)
  | email (email : String)
  | plan (id : Uuid)
  | planSlug (slug : String)
  | subscription (id : Uuid)
  | activeSubscription (user : Uuid)
  | usageQuota (id : Uuid)
  | quotaPeriod (subscription : Uuid) (start : Instant)
  | token (kind : TokenKind) (id : Uuid)
  | tokenHash (kind : TokenKind) (hash : Sha256)
  | session (id : Uuid)
  | refreshJti (jti : String)
  | apiKey (id : Uuid)
  | keyHash (hash : Sha256)
  | requestLog (id : Uuid)
  | dailyUsage (id : Uuid)
  | usageDay (user : Uuid) (date : Day)
  | outstandingToken (jti : String)
  | blacklistedToken (jti : String)
  deriving DecidableEq

-- The rows of all tables.
inductive Row
  | user (u : User)
  | plan (p : Plan)
  | subscription (s : Subscription)
  | usageQuota (q : UsageQuota)
  | verificationToken (t : EmailVerificationToken)
  | resetToken (t : PasswordResetToken)
  | session (s : UserSession)
  | apiKey (k : APIKey)
  | requestLog (l : RequestLog)
  | dailyUsage (u : DailyUsage)
  | outstandingToken (t : OutstandingToken)
  | blacklistedToken (t : BlacklistedToken)

section Entities

instance : Entity User Key where
  key u     := .user u.id
  entries u := [.email u.email]

instance : Entity Plan Key where
  key p     := .plan p.id
  entries p := [.planSlug p.slug]

-- The index on `user` only covers the active subscriptions.
instance : Entity Subscription Key where
  key s     := .subscription s.id
  entries s := if s.status = .active then [.activeSubscription s.userId] else []

instance : Entity UsageQuota Key where
  key q     := .usageQuota q.id
  entries q := [.quotaPeriod q.subscriptionId q.periodStart]

instance {kind : TokenKind} : Entity (Token kind) Key where
  key t     := .token kind t.id
  entries t := [.tokenHash kind t.tokenHash]

instance : Entity UserSession Key where
  key s     := .session s.id
  entries s := [.refreshJti s.refreshJti]

instance : Entity APIKey Key where
  key k     := .apiKey k.id
  entries k := [.keyHash k.keyHash]

instance : Entity RequestLog Key where
  key l     := .requestLog l.id
  entries _ := []

instance : Entity DailyUsage Key where
  key u     := .dailyUsage u.id
  entries u := [.usageDay u.userId u.date]

instance : Entity OutstandingToken Key where
  key t     := .outstandingToken t.jti
  entries _ := []

instance : Entity BlacklistedToken Key where
  key t     := .blacklistedToken t.jti
  entries _ := []

def Row.key : Row → Key
  | user u              => Entity.key u
  | plan p              => Entity.key p
  | subscription s      => Entity.key s
  | usageQuota q        => Entity.key q
  | verificationToken t => Entity.key t
  | resetToken t        => Entity.key t
  | session s           => Entity.key s
  | apiKey k            => Entity.key k
  | requestLog l        => Entity.key l
  | dailyUsage u        => Entity.key u
  | outstandingToken t  => Entity.key t
  | blacklistedToken t  => Entity.key t

def Row.entries : Row → List Key
  | user u              => Entity.entries u
  | plan p              => Entity.entries p
  | subscription s      => Entity.entries s
  | usageQuota q        => Entity.entries q
  | verificationToken t => Entity.entries t
  | resetToken t        => Entity.entries t
  | session s           => Entity.entries s
  | apiKey k            => Entity.entries k
  | requestLog l        => Entity.entries l
  | dailyUsage u        => Entity.entries u
  | outstandingToken t  => Entity.entries t
  | blacklistedToken t  => Entity.entries t

instance : Entity Row Key where
  key     := Row.key
  entries := Row.entries

end Entities

structure Database where
  users              : Table User
  plans              : Table Plan
  subscriptions      : Table Subscription
  quotas             : Table UsageQuota
  verificationTokens : Table EmailVerificationToken
  resetTokens        : Table PasswordResetToken
  sessions           : Table UserSession
  apiKeys            : Table APIKey
  requestLogs        : Table RequestLog
  dailyUsage         : Table DailyUsage
  outstandingTokens  : Table OutstandingToken
  blacklistedTokens  : Table BlacklistedToken

namespace Database

def empty : Database where
  users              := .empty
  plans              := .empty
  subscriptions      := .empty
  quotas             := .empty
  verificationTokens := .empty
  resetTokens        := .empty
  sessions           := .empty
  apiKeys            := .empty
  requestLogs        := .empty
  dailyUsage         := .empty
  outstandingTokens  := .empty
  blacklistedTokens  := .empty

def rows (d : Database) : List Row :=
  d.users.rows.map .user ++
  d.plans.rows.map .plan ++
  d.subscriptions.rows.map .subscription ++
  d.quotas.rows.map .usageQuota ++
  d.verificationTokens.rows.map .verificationToken ++
  d.resetTokens.rows.map .resetToken ++
  d.sessions.rows.map .session ++
  d.apiKeys.rows.map .apiKey ++
  d.requestLogs.rows.map .requestLog ++
  d.dailyUsage.rows.map .dailyUsage ++
  d.outstandingTokens.rows.map .outstandingToken ++
  d.blacklistedTokens.rows.map .blacklistedToken

-- Inserts a row into its table, or replaces the version of the row in it.
def put (d : Database) : Row → Database
  | .user u              => { d with users := d.users.put u }
  | .plan p              => { d with plans := d.plans.put p }
  | .subscription s      => { d with subscriptions := d.subscriptions.put s }
  | .usageQuota q        => { d with quotas := d.quotas.put q }
  | .verificationToken t => { d with verificationTokens := d.verificationTokens.put t }
  | .resetToken t        => { d with resetTokens := d.resetTokens.put t }
  | .session s           => { d with sessions := d.sessions.put s }
  | .apiKey k            => { d with apiKeys := d.apiKeys.put k }
  | .requestLog l        => { d with requestLogs := d.requestLogs.put l }
  | .dailyUsage u        => { d with dailyUsage := d.dailyUsage.put u }
  | .outstandingToken t  => { d with outstandingTokens := d.outstandingTokens.put t }
  | .blacklistedToken t  => { d with blacklistedTokens := d.blacklistedTokens.put t }

section Rows

variable {d : Database}

section Mem

attribute [local simp] rows Table.mem_rows

@[simp]
theorem user_mem_rows {u : User} : .user u ∈ d.rows ↔ u ∈ d.users := by
  simp

@[simp]
theorem plan_mem_rows {p : Plan} : .plan p ∈ d.rows ↔ p ∈ d.plans := by
  simp

@[simp]
theorem subscription_mem_rows {s : Subscription} :
    .subscription s ∈ d.rows ↔ s ∈ d.subscriptions := by
  simp

@[simp]
theorem usageQuota_mem_rows {q : UsageQuota} : .usageQuota q ∈ d.rows ↔ q ∈ d.quotas := by
  simp

@[simp]
theorem verificationToken_mem_rows {t : EmailVerificationToken} :
    .verificationToken t ∈ d.rows ↔ t ∈ d.verificationTokens := by
  simp

@[simp]
theorem resetToken_mem_rows {t : PasswordResetToken} :
    .resetToken t ∈ d.rows ↔ t ∈ d.resetTokens := by
  simp

@[simp]
theorem session_mem_rows {s : UserSession} : .session s ∈ d.rows ↔ s ∈ d.sessions := by
  simp

@[simp]
theorem apiKey_mem_rows {k : APIKey} : .apiKey k ∈ d.rows ↔ k ∈ d.apiKeys := by
  simp

@[simp]
theorem requestLog_mem_rows {l : RequestLog} : .requestLog l ∈ d.rows ↔ l ∈ d.requestLogs := by
  simp

@[simp]
theorem dailyUsage_mem_rows {u : DailyUsage} : .dailyUsage u ∈ d.rows ↔ u ∈ d.dailyUsage := by
  simp

@[simp]
theorem outstandingToken_mem_rows {t : OutstandingToken} :
    .outstandingToken t ∈ d.rows ↔ t ∈ d.outstandingTokens := by
  simp

@[simp]
theorem blacklistedToken_mem_rows {t : BlacklistedToken} :
    .blacklistedToken t ∈ d.rows ↔ t ∈ d.blacklistedTokens := by
  simp

end Mem

-- Rows of different tables have different keys.
theorem mem_rows_put {n r : Row} : r ∈ (d.put n).rows ↔ r = n ∨ r ∈ d.rows ∧ r.key ≠ n.key := by
  cases n <;> cases r <;> simp [put, Table.mem_put, Row.key, Entity.key]

theorem put_of_mem {r : Row} (h : r ∈ d.rows) : d.put r = d := by
  cases r <;> simp at h <;> rw [put, Table.put_of_mem h]

theorem eq_of_key {r₁ r₂ : Row} (h₁ : r₁ ∈ d.rows) (h₂ : r₂ ∈ d.rows) (h : r₁.key = r₂.key) :
    r₁ = r₂ := by
  cases r₁ <;> cases r₂ <;> simp only [Row.key] at h <;> (try cases h) <;>
    simp at h₁ h₂ <;> exact congrArg _ <| Table.eq_of_key h₁ h₂ h

end Rows
end Database

namespace Row

-- The lengths of the character columns, and the type `inet` of the IP address columns.
def fits : Row → Bool
  | user u       => u.email.length ≤ 254 ∧ u.firstName.length ≤ 120 ∧ u.lastName.length ≤ 120
  | plan p       => p.slug.length ≤ 64
  | session s    => s.refreshJti.length ≤ 64 ∧ s.userAgent.length ≤ 512 ∧
                    s.ipAddress.all Text.isIpAddress
  | apiKey k     => k.name.length ≤ 120 ∧ k.keyPrefix.length ≤ 16
  | requestLog l => l.method.length ≤ 8 ∧ l.path.length ≤ 512 ∧ l.userAgent.length ≤ 512 ∧
                    l.ipAddress.all Text.isIpAddress
  | _            => true

end Row

instance : Relational Database Row Key Exn where
  rows      := Database.rows
  put       := Database.put
  refuses r := if r.fits then none else some .dataError
  duplicate := .integrityError
  mem_put   := Database.mem_rows_put
  eq_of_key := Database.eq_of_key

abbrev Write := Put Row

-- The services of the backend, which end with a value or an exception.
abbrev Service (α : Type) := ReadCommitted.Service Database Write Exn α

-- The backend while the calls `ι` are executed concurrently.
abbrev Backend (ι α : Type) := ReadCommitted.System ι Database Write Exn α

namespace Service

def ofExcept {α : Type} : Except Exn α → Service α
  | .ok a    => pure a
  | .error e => .raise e

-- `Model.objects.create(...)`
def create (r : Row) : Service Unit :=
  .execute fun _ => [⟨none, r⟩]

variable {R : Type} [Entity R Key]

-- The row with the key `k`, and the version of it that `f` assigns.
def assign (table : Database → Table R) (row : R → Row) (k : Key) (f : R → R) (d : Database) :
    Option Write :=
  ((table d).lookup k).map fun r => ⟨some <| row r, row <| f r⟩

-- `Model.objects.filter(pk=...).update(...)`
def update (table : Database → Table R) (row : R → Row) (k : Key) (f : R → R) : Service Unit :=
  .execute fun d => (assign table row k f d).toList

-- `Model.objects.select_for_update()...first()`: the row which is found is locked as if it was written.
def selectForUpdate (row : R → Row) (q : Database → Option R) : Service (Option R) :=
  .stmt (fun d => ((q d).map fun r => ⟨some <| row r, row r⟩).toList) (fun d => .ok <| q d)

-- `instance.save(update_fields=...)`, where `f` assigns the fields. It applies to the row as the
-- statement finds it, and not as it was when the instance was loaded.
def save (table : Database → Table R) (row : R → Row) (k : Key) (f : R → R) : Service Unit :=
  .stmt (fun d => (assign table row k f d).toList)
    (fun d => if ((table d).lookup k).isSome then .ok () else .error .databaseError)

end Service
end SaasBackend
