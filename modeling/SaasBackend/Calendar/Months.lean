import SaasBackend.Calendar.Days

-- The months of all years as one sequence.
namespace Calendar

def monthIndex (year month : Nat) : Nat :=
  year * 12 + (month - 1)

-- The number of the first day of a month.
def firstOfMonth (k : Nat) : Nat :=
  toOrdinal (k / 12) (k % 12 + 1) 1

section Months

variable {k k' n year month day : Nat}

theorem firstOfMonth_succ (h : 12 ≤ k) :
    firstOfMonth (k + 1) = firstOfMonth k + daysInMonth (k / 12) (k % 12 + 1) := by
  have hm := daysBeforeMonth_succ (k / 12) (Nat.le_add_left 1 (k % 12))
  simp only [firstOfMonth, toOrdinal]
  by_cases hk : k % 12 = 11
  case pos =>
    have hy := daysBeforeYear_succ (Nat.div_pos h (by decide))
    rw [hk, daysBeforeMonth_end] at hm
    rw [show (k + 1) / 12 = k / 12 + 1 by omega, show (k + 1) % 12 = 0 by omega, hy, hm, hk,
      daysBeforeMonth_one]
    omega
  case neg =>
    rw [show (k + 1) / 12 = k / 12 by omega, show (k + 1) % 12 = k % 12 + 1 by omega, hm]
    omega

theorem firstOfMonth_mono (h : 12 ≤ k) (hk : k ≤ k') : firstOfMonth k ≤ firstOfMonth k' := by
  induction k', hk using Nat.le_induction
  case base         => exact Nat.le_refl _
  case succ n hn hi =>
    rw [firstOfMonth_succ (h.trans hn)]
    exact Nat.le_add_right_of_le hi

-- No month has more than 31 days.
theorem firstOfMonth_add_le (h : 12 ≤ k) (n : Nat) : firstOfMonth (k + n) ≤ firstOfMonth k + 31 * n := by
  induction n
  case zero      => exact Nat.le_refl _
  case succ n hi =>
    have hs := firstOfMonth_succ (h.trans <| Nat.le_add_right k n)
    have hd := daysInMonth_le ((k + n) / 12) ((k + n) % 12 + 1)
    rw [Nat.add_assoc] at hs
    omega

theorem monthIndex_ge (h : IsDate year month day) : 12 ≤ monthIndex year month := by
  have := h.year_pos
  unfold monthIndex
  omega

theorem firstOfMonth_monthIndex (h : IsDate year month day) :
    firstOfMonth (monthIndex year month) = toOrdinal year month 1 := by
  have h₁ := h.month_pos
  have h₂ := h.month_le
  rw [firstOfMonth, monthIndex, show (year * 12 + (month - 1)) / 12 = year by omega,
    show (year * 12 + (month - 1)) % 12 + 1 = month by omega]

-- A day belongs to a month or a later one if it is not before the first day of that month.
theorem firstOfMonth_le_iff (h : IsDate year month day) (hk : 12 ≤ k) :
    firstOfMonth k ≤ toOrdinal year month day ↔ k ≤ monthIndex year month := by
  have hf := firstOfMonth_monthIndex h
  have hg := monthIndex_ge h
  constructor
  case mp =>
    intro hl
    by_contra hn
    have hs := firstOfMonth_mono (hg.trans <| Nat.le_add_right _ 1) (Nat.lt_of_not_le hn)
    have hd : daysInMonth (monthIndex year month / 12) (monthIndex year month % 12 + 1) =
        daysInMonth year month := by
      have h₁ := h.month_pos
      have h₂ := h.month_le
      rw [monthIndex, show (year * 12 + (month - 1)) / 12 = year by omega,
        show (year * 12 + (month - 1)) % 12 + 1 = month by omega]
    rw [firstOfMonth_succ hg, hf, hd] at hs
    have := h.day_le
    simp only [toOrdinal] at hs hl
    omega
  case mpr =>
    intro hl
    have hm := firstOfMonth_mono hk hl
    have := h.day_pos
    rw [hf] at hm
    simp only [toOrdinal] at hm ⊢
    omega

end Months

namespace Day

variable {d d' : Day}

theorem addDays_eq_some {n : Int} : d.addDays n = some d' ↔ (d'.ordinal : Int) = d.ordinal + n := by
  have hv := d'.valid
  unfold addDays
  split
  case isTrue h =>
    rw [Option.some.injEq, ←ordinal_injective.eq_iff]
    dsimp only
    omega
  case isFalse h => simp only [reduceCtorEq, false_iff]; omega

theorem isDate (d : Day) : IsDate d.date.1 d.date.2.1 d.date.2.2 :=
  (ofOrdinal_spec d.valid.left).left

theorem toOrdinal_date (d : Day) : toOrdinal d.date.1 d.date.2.1 d.date.2.2 = d.ordinal :=
  (ofOrdinal_spec d.valid.left).right

def month (d : Day) : Nat :=
  monthIndex d.date.1 d.date.2.1

theorem month_ge (d : Day) : 12 ≤ d.month :=
  monthIndex_ge d.isDate

theorem startOfMonth_valid (d : Day) :
    0 < toOrdinal d.date.1 d.date.2.1 1 ∧ toOrdinal d.date.1 d.date.2.1 1 ≤ 3652059 := by
  have h := d.toOrdinal_date
  have hd := d.isDate.day_pos
  have hv := d.valid
  simp only [toOrdinal] at h ⊢
  omega

-- `d.replace(day=1)`
def startOfMonth (d : Day) : Day where
  ordinal := toOrdinal d.date.1 d.date.2.1 1
  valid   := d.startOfMonth_valid

theorem startOfMonth_ordinal (d : Day) : d.startOfMonth.ordinal = firstOfMonth d.month :=
  (firstOfMonth_monthIndex d.isDate).symm

theorem firstOfMonth_le {k : Nat} (h : 12 ≤ k) : firstOfMonth k ≤ d.ordinal ↔ k ≤ d.month :=
  d.toOrdinal_date ▸ firstOfMonth_le_iff d.isDate h

theorem startOfMonth_le : d.startOfMonth ≤ d' ↔ d.month ≤ d'.month := by
  change d.startOfMonth.ordinal ≤ d'.ordinal ↔ _
  rw [startOfMonth_ordinal]
  exact firstOfMonth_le d.month_ge

theorem month_mono (h : d ≤ d') : d.month ≤ d'.month := by
  have hd : d.startOfMonth.ordinal ≤ d.ordinal := startOfMonth_le.mpr (Nat.le_refl _)
  exact startOfMonth_le.mp (hd.trans h)

theorem startOfMonth_month (d : Day) : d.startOfMonth.month = d.month := by
  apply Nat.le_antisymm
  · exact month_mono <| startOfMonth_le.mpr (Nat.le_refl _)
  · exact startOfMonth_le.mp (Nat.le_refl d.startOfMonth.ordinal)

theorem startOfMonth_startOfMonth (d : Day) : d.startOfMonth.startOfMonth = d.startOfMonth := by
  apply ordinal_injective
  rw [startOfMonth_ordinal, startOfMonth_ordinal, startOfMonth_month]

-- Going back by 31 days for each month leads to the month that is meant, or to an earlier one.
theorem month_of_addDays {n : Nat} (h : d.startOfMonth.addDays (-(31 * n)) = some d') :
    d'.month + n ≤ d.month := by
  have he := addDays_eq_some.mp h
  have hv := d'.valid
  have hd := d.month_ge
  rw [startOfMonth_ordinal] at he
  have h₁ := firstOfMonth_add_le (Nat.le_refl 12) (d.month - 12)
  rw [show firstOfMonth 12 = 1 from rfl, Nat.add_sub_cancel' hd] at h₁
  have hn : n ≤ d.month - 12 := by omega
  by_contra hl
  have hk := (firstOfMonth_le (d := d') (k := d.month - n + 1) (by omega)).mpr (by omega)
  have h₂ := firstOfMonth_add_le (k := d.month - n) (by omega) n
  have h₃ := firstOfMonth_succ (k := d.month - n) (by omega)
  have h₄ := daysInMonth_pos ((d.month - n) / 12) ((d.month - n) % 12 + 1)
  rw [Nat.sub_add_cancel (by omega)] at h₂
  omega

end Day
end Calendar
