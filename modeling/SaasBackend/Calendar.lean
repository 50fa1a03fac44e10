import Mathlib.Order.Defs.LinearOrder
import Mathlib.Order.Basic

-- The proleptic Gregorian calendar, and points in time of which it can tell the date.
namespace Calendar

def isLeap (year : Nat) : Bool :=
  year % 4 = 0 ∧ (year % 100 ≠ 0 ∨ year % 400 = 0)

def daysInMonth (year month : Nat) : Nat :=
  match month with
  | 2              => if isLeap year then 29 else 28
  | 4 | 6 | 9 | 11 => 30
  | _              => 31

def daysBeforeYear (year : Nat) : Nat :=
  let y := year - 1
  y * 365 + y / 4 - y / 100 + y / 400

def daysBeforeMonth (year month : Nat) : Nat :=
  ((List.range month).drop 1).foldl (fun n m => n + daysInMonth year m) 0

-- The number of a day, where January 1st of the year 1 is day 1.
def toOrdinal (year month day : Nat) : Nat :=
  daysBeforeYear year + daysBeforeMonth year month + day

-- The year of a day, and the number of the days before it in that year. A period of 400 years is cut
-- into centuries, these into cycles of 4 years, and these into years. The last day of a period which
-- ends with a leap year would start another century or year, hence the subtraction.
def yearOfOrdinal (ordinal : Nat) : Nat × Nat :=
  let n    := ordinal - 1
  let n400 := n / 146097
  let n    := n % 146097
  let n100 := n / 36524
  let n    := n % 36524
  let n4   := n / 1461
  let n    := n % 1461
  let n1   := n / 365
  let n    := n % 365
  let year := n400 * 400 + n100 * 100 + n4 * 4 + n1 + 1
  if n1 = 4 ∨ n100 = 4 then (year - 1, 365) else (year, n)

-- The month and day which follow `n` days of the year.
def monthOfDays (year : Nat) : (month : Nat) → (n fuel : Nat) → Nat × Nat
  | month, n, 0        => (month, n + 1)
  | month, n, fuel + 1 =>
    if n < daysInMonth year month then (month, n + 1)
    else monthOfDays year (month + 1) (n - daysInMonth year month) fuel

def ofOrdinal (ordinal : Nat) : Nat × Nat × Nat :=
  let (year, n)    := yearOfOrdinal ordinal
  let (month, day) := monthOfDays year 1 n 11
  (year, month, day)

def minYear := 1
def maxYear := 9999

def microsPerHour := 3600000000
def microsPerDay := 86400000000

-- The number of microseconds up to the end of the year 9999.
def microsLimit := 3652059 * microsPerDay

-- A day in the years 1 to 9999, given by its number.
structure Day where
  ordinal : Nat
  valid   : 0 < ordinal ∧ ordinal ≤ 3652059
  deriving DecidableEq

namespace Day

theorem ordinal_injective : Function.Injective ordinal
  | ⟨_, _⟩, ⟨_, _⟩, rfl => rfl

instance : LT Day := ⟨fun a b => a.ordinal < b.ordinal⟩
instance : LE Day := ⟨fun a b => a.ordinal ≤ b.ordinal⟩

instance (a b : Day) : Decidable (a < b) := Nat.decLt ..
instance (a b : Day) : Decidable (a ≤ b) := Nat.decLe ..

def date (d : Day) : Nat × Nat × Nat :=
  ofOrdinal d.ordinal

-- The day some days later or earlier, if there is one.
def addDays (d : Day) (days : Int) : Option Day :=
  if h : 0 < d.ordinal + days ∧ d.ordinal + days ≤ 3652059 then
    some ⟨(d.ordinal + days).toNat, by omega, by omega⟩
  else
    none

end Day

-- A point in time, in microseconds since the start of the year 1.
structure Instant where
  micros : Nat
  valid  : micros < microsLimit
  deriving DecidableEq

namespace Instant

theorem micros_injective : Function.Injective micros
  | ⟨_, _⟩, ⟨_, _⟩, rfl => rfl

instance : LT Instant := ⟨fun a b => a.micros < b.micros⟩
instance : LE Instant := ⟨fun a b => a.micros ≤ b.micros⟩

instance (a b : Instant) : Decidable (a < b) := Nat.decLt ..
instance (a b : Instant) : Decidable (a ≤ b) := Nat.decLe ..

instance : LinearOrder Instant where
  le_refl a          := Nat.le_refl a.micros
  le_trans _ _ _     := Nat.le_trans
  le_antisymm _ _ h₁ h₂ := micros_injective <| Nat.le_antisymm h₁ h₂
  le_total a b       := Nat.le_total a.micros b.micros
  lt_iff_le_not_ge _ _ := Nat.lt_iff_le_and_not_ge
  toDecidableLE      := inferInstance
  toDecidableLT      := inferInstance

def ofMicros (n : Nat) : Option Instant :=
  if h : n < microsLimit then some ⟨n, h⟩ else none

-- The midnight `n` days after the start of the year 1.
def midnight (n : Nat) : Instant where
  micros := n % 3652059 * microsPerDay
  valid  := Nat.mul_lt_mul_of_pos_right (Nat.mod_lt n <| by decide) <| by decide

def ordinal (t : Instant) : Nat :=
  t.micros / microsPerDay + 1

def day (t : Instant) : Day where
  ordinal := t.ordinal
  valid   := ⟨Nat.succ_pos _, Nat.div_lt_of_lt_mul <| Nat.mul_comm .. ▸ t.valid⟩

def date (t : Instant) : Nat × Nat × Nat :=
  ofOrdinal t.ordinal

-- The point in time some days later, if it can be represented.
def addDays (t : Instant) (days : Nat) : Option Instant :=
  ofMicros (t.micros + days * microsPerDay)

-- The point in time some days earlier, if it can be represented.
def subDays (t : Instant) (days : Nat) : Option Instant :=
  if days * microsPerDay ≤ t.micros then ofMicros (t.micros - days * microsPerDay) else none

def addHours (t : Instant) (hours : Nat) : Option Instant :=
  ofMicros (t.micros + hours * microsPerHour)

-- The same month, day and time in another year, if such a point in time exists.
def replaceYear (t : Instant) (year : Nat) : Option Instant :=
  let (_, month, day) := t.date
  if minYear ≤ year ∧ year ≤ maxYear ∧ day ≤ daysInMonth year month then
    ofMicros ((toOrdinal year month day - 1) * microsPerDay + t.micros % microsPerDay)
  else
    none

theorem ofMicros_isSome {n : Nat} : (ofMicros n).isSome ↔ n < microsLimit := by
  unfold ofMicros
  split
  case isTrue h  => exact ⟨fun _ => h, fun _ => rfl⟩
  case isFalse h => exact ⟨nofun, fun hn => (h hn).elim⟩

theorem ofMicros_eq_some {n : Nat} {t : Instant} : ofMicros n = some t ↔ n = t.micros := by
  unfold ofMicros
  constructor
  case mp =>
    intro h
    split at h
    case isTrue   => cases h; rfl
    case isFalse  => cases h
  case mpr =>
    rintro rfl
    exact dif_pos t.valid

theorem addHours_inj {t₁ t₂ t : Instant} {hours : Nat} (h₁ : t₁.addHours hours = some t)
    (h₂ : t₂.addHours hours = some t) : t₁ = t₂ :=
  micros_injective <| Nat.add_right_cancel <|
    (ofMicros_eq_some.mp h₁).trans (ofMicros_eq_some.mp h₂).symm

theorem addDays_isSome_of_le {t t' : Instant} {days : Nat} (ht : t ≤ t')
    (h : (t'.addDays days).isSome) : (t.addDays days).isSome :=
  ofMicros_isSome.mpr <| Nat.lt_of_le_of_lt (Nat.add_le_add_right ht _) <| ofMicros_isSome.mp h

end Instant
end Calendar
