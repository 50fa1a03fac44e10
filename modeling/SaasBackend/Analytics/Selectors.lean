import SaasBackend.Calendar.Format
import SaasBackend.Grouping
import SaasBackend.Database

open Calendar Grouping ReadCommitted

namespace SaasBackend

-- The rows of one user, or those of all users.
def scope {R : Type} (owner : R → Option Uuid) (user : Option Uuid) (rows : List R) : List R :=
  match user with
  | none   => rows
  | some u => rows.filter (owner · = some u)

section Scope

variable {R : Type} {owner : R → Option Uuid} {user : Option Uuid} {rows : List R} {r : R}

theorem mem_scope : r ∈ scope owner user rows ↔ r ∈ rows ∧ ∀ u, user = some u → owner r = some u := by
  cases user <;> simp [scope]

theorem scope_filter (p : R → Bool) :
    scope owner user (rows.filter p) = (scope owner user rows).filter p := by
  cases user
  case none   => rfl
  case some u => exact List.filter_comm ..

end Scope

def orOverflow {α : Type} : Option α → Except Exn α
  | some a => .ok a
  | none   => .error .overflowError

theorem orOverflow_eq_ok {α : Type} {o : Option α} {a : α} : orOverflow o = .ok a ↔ o = some a := by
  cases o <;> simp [orOverflow]

-- `Count("id")`, and the same with a filter for the status codes of errors.
structure Tally where
  count  : Nat
  errors : Nat
  deriving DecidableEq

def RequestLog.isError (l : RequestLog) : Bool :=
  400 ≤ l.statusCode

def tally (logs : List RequestLog) : Tally where
  count  := logs.length
  errors := logs.countP (·.isError)

-- `int(avg or 0)` of the average of `response_ms`.
def avgResponseMs (logs : List RequestLog) : Nat :=
  (logs.map (·.responseMs)).sum / logs.length

-- The percentage of successes as a quotient, which is rounded to two decimals when it is computed.
inductive SuccessRate
  | all
  | quotient (successes total : Nat)
  deriving DecidableEq

structure UsageSummary where
  windowDays    : Nat
  totalRequests : Nat
  errorRequests : Nat
  successRate   : SuccessRate
  avgResponseMs : Nat
  deriving DecidableEq

-- The rows that `usage_summary` aggregates.
def summaryLogs (d : Database) (now : Instant) (user : Option Uuid) (days : Nat) :
    Except Exn (List RequestLog) := do
  let since ← orOverflow <| now.subDays days
  return scope (·.userId) user <| d.requestLogs.rows.filter fun l => since ≤ l.createdAt

def usageSummary (d : Database) (now : Instant) (user : Option Uuid) (days : Nat) :
    Except Exn UsageSummary := do
  let logs ← summaryLogs d now user days
  let total := (tally logs).count
  let errors := (tally logs).errors
  return {
    windowDays    := days
    totalRequests := total
    errorRequests := errors
    successRate   := if total = 0 then .all else .quotient (total - errors) total
    avgResponseMs := SaasBackend.avgResponseMs logs
  }

structure DailyPoint where
  date   : String
  count  : Nat
  errors : Nat
  deriving DecidableEq

-- The tallies of those days that have any requests.
def tallyByDay (logs : List RequestLog) : List (Day × Tally) :=
  (groupBy (·.createdAt.day) logs).map fun g => (g.1, tally g.2)

def dailyChart (d : Database) (now : Instant) (user : Option Uuid) (days : Nat) :
    Except Exn (List DailyPoint) := do
  let today := now.day
  let start ← orOverflow <| today.addDays (1 - days)
  let logs := scope (·.userId) user <| d.requestLogs.rows.filter fun l => start ≤ l.createdAt.day
  let byDay := tallyByDay logs
  -- Missing days are filled with zeros.
  (List.range days).mapM fun (i : Nat) => do
    let day ← orOverflow <| start.addDays (i : Int)
    let row := (byDay.lookup day).getD ⟨0, 0⟩
    return ⟨day.isoformat, row.count, row.errors⟩

structure MonthlyPoint where
  month  : String
  count  : Nat
  errors : Nat
  deriving DecidableEq

def addUsage (row : DailyUsage) (b : Tally) : Tally where
  count  := b.count + row.requestCount
  errors := b.errors + row.errorCount

-- The rows that `monthly_chart` adds up.
def monthlyRows (d : Database) (now : Instant) (user : Option Uuid) (months : Nat) :
    Except Exn (List DailyUsage) := do
  let today := now.day.startOfMonth
  let earliest ← orOverflow <| today.startOfMonth.addDays (-(31 * (months - 1)))
  let earliest := earliest.startOfMonth
  return scope (some ·.userId) user <| d.dailyUsage.rows.filter fun row => earliest ≤ row.date

def monthlyChart (d : Database) (now : Instant) (user : Option Uuid) (months : Nat) :
    Except Exn (List MonthlyPoint) := do
  let rows ← monthlyRows d now user months
  let buckets := accumulate (·.date.yearMonth) ⟨0, 0⟩ addUsage rows
  return (sortedItems buckets).map fun b => ⟨b.1, b.2.count, b.2.errors⟩

structure RecentRequest where
  method     : String
  path       : String
  statusCode : Nat
  responseMs : Nat
  createdAt  : Instant
  deriving DecidableEq

-- The latest requests come first.
def recentRequests (d : Database) (user : Uuid) (limit : Nat) : List RecentRequest :=
  let logs := d.requestLogs.rows.filter (·.userId = some user)
  let logs := logs.mergeSort fun a b => b.createdAt ≤ a.createdAt
  (logs.take limit).map fun r => ⟨r.method, r.path, r.statusCode, r.responseMs, r.createdAt⟩

end SaasBackend
