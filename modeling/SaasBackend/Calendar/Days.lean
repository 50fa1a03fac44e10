import Mathlib
import SaasBackend.Calendar

-- The numbers of days determine the dates, and vice versa.
namespace Calendar

def daysInYear (year : Nat) : Nat :=
  if isLeap year then 366 else 365

section Years

variable {year year' n : Nat}

theorem isLeap_iff : isLeap year ↔ year % 4 = 0 ∧ (year % 100 ≠ 0 ∨ year % 400 = 0) :=
  decide_eq_true_iff

theorem daysInYear_le (year : Nat) : 365 ≤ daysInYear year ∧ daysInYear year ≤ 366 := by
  unfold daysInYear
  split <;> omega

theorem daysBeforeYear_eq (year : Nat) :
    daysBeforeYear year = (year - 1) * 365 + (year - 1) / 4 - (year - 1) / 100 + (year - 1) / 400 :=
  rfl

theorem daysBeforeYear_succ (h : 1 ≤ year) :
    daysBeforeYear (year + 1) = daysBeforeYear year + daysInYear year := by
  obtain ⟨z, rfl⟩ := Nat.exists_eq_add_of_le' h
  rw [daysBeforeYear_eq, daysBeforeYear_eq, daysInYear, Nat.add_sub_cancel, Nat.add_sub_cancel,
    Nat.succ_div (b := 4), Nat.succ_div (b := 100), Nat.succ_div (b := 400)]
  have h₁ : z / 100 ≤ z / 4 := Nat.div_le_div_left (by decide) (by decide)
  by_cases hl : isLeap (z + 1)
  case pos =>
    have ⟨h4, hc⟩ := isLeap_iff.mp hl
    simp only [hl, if_true, Nat.dvd_iff_mod_eq_zero, h4]
    by_cases h100 : (z + 1) % 100 = 0
    case pos => simp only [h100, hc.resolve_left (· h100), if_true]; omega
    case neg =>
      have h400 : (z + 1) % 400 ≠ 0 := by omega
      simp only [h100, h400, if_false]; omega
  case neg =>
    have hn := isLeap_iff.not.mp hl
    simp only [hl, Bool.false_eq_true, if_false, Nat.dvd_iff_mod_eq_zero]
    by_cases h4 : (z + 1) % 4 = 0
    case pos =>
      have ⟨h100, h400⟩ := not_or.mp fun hc => hn ⟨h4, hc⟩
      simp only [h4, not_not.mp h100, h400, if_true, if_false]; omega
    case neg =>
      have h100 : (z + 1) % 100 ≠ 0 := by omega
      have h400 : (z + 1) % 400 ≠ 0 := by omega
      simp only [h4, h100, h400, if_false]; omega

attribute [local irreducible] daysBeforeYear

theorem daysBeforeYear_add_le (h : 1 ≤ year) (n : Nat) :
    daysBeforeYear year + n * 365 ≤ daysBeforeYear (year + n) := by
  induction n
  case zero       => simp
  case succ n hi  =>
    have hs := daysBeforeYear_succ (h.trans <| Nat.le_add_right year n)
    rw [←Nat.add_assoc, hs, Nat.succ_mul, ←Nat.add_assoc]
    exact Nat.add_le_add hi (daysInYear_le _).left

theorem daysBeforeYear_mono (h : 1 ≤ year) (hl : year ≤ year') :
    daysBeforeYear year ≤ daysBeforeYear year' := by
  obtain ⟨n, rfl⟩ := Nat.exists_eq_add_of_le hl
  exact Nat.le_of_add_right_le <| daysBeforeYear_add_le h n

-- The days before a year that is given by its period of 400 years, its century, its cycle of 4 years
-- and its place therein.
theorem daysBeforeYear_of_cycles (n400 n100 n4 n1 : Nat) (h100 : n100 ≤ 3) (h4 : n4 ≤ 24) (h1 : n1 ≤ 3) :
    daysBeforeYear (n400 * 400 + n100 * 100 + n4 * 4 + n1 + 1) =
      n400 * 146097 + n100 * 36524 + n4 * 1461 + n1 * 365 := by
  rw [daysBeforeYear_eq, Nat.add_sub_cancel]
  have hd4 : (n400 * 400 + n100 * 100 + n4 * 4 + n1) / 4 = n400 * 100 + n100 * 25 + n4 := by omega
  have hd100 : (n400 * 400 + n100 * 100 + n4 * 4 + n1) / 100 = n400 * 4 + n100 := by omega
  have hd400 : (n400 * 400 + n100 * 100 + n4 * 4 + n1) / 400 = n400 := by omega
  rw [hd4, hd100, hd400]
  omega

-- The number of a day is cut into its year and the days before it in that year.
theorem yearOfOrdinal_spec (h : 1 ≤ n) :
    1 ≤ (yearOfOrdinal n).1 ∧ daysBeforeYear (yearOfOrdinal n).1 + (yearOfOrdinal n).2 + 1 = n ∧
    (yearOfOrdinal n).2 < daysInYear (yearOfOrdinal n).1 := by
  obtain ⟨m, rfl⟩ := Nat.exists_eq_add_of_le' h
  generalize hx : yearOfOrdinal (m + 1) = x
  simp only [yearOfOrdinal, Nat.add_sub_cancel] at hx
  generalize h400 : m / 146097 = n400 at hx
  generalize ha : m % 146097 = a at hx
  generalize h100 : a / 36524 = n100 at hx
  generalize hb : a % 36524 = b at hx
  generalize h4 : b / 1461 = n4 at hx
  generalize hc : b % 1461 = c at hx
  generalize h1 : c / 365 = n1 at hx
  generalize he : c % 365 = e at hx
  have hm : m = n400 * 146097 + n100 * 36524 + n4 * 1461 + n1 * 365 + e := by omega
  split at hx <;> subst hx
  case isFalse hl =>
    have ⟨hn1, hn100⟩ := not_or.mp hl
    have hy := daysBeforeYear_of_cycles n400 n100 n4 n1 (by omega) (by omega) (by omega)
    have hd := (daysInYear_le (n400 * 400 + n100 * 100 + n4 * 4 + n1 + 1)).left
    refine ⟨Nat.le_add_left .., ?_, ?_⟩ <;> dsimp only
    · rw [hy, hm]
    · exact Nat.lt_of_lt_of_le (by omega) hd
  case isTrue hl =>
    -- The last day of a leap year, which may be the last year of a period of 400 years.
    dsimp only
    by_cases hn : n100 = 4
    case pos =>
      have hz : n4 = 0 ∧ n1 = 0 ∧ e = 0 := by omega
      obtain ⟨rfl, rfl, rfl⟩ := hz
      subst hn
      have hy := daysBeforeYear_of_cycles n400 3 24 3 (by decide) (by decide) (by decide)
      have hl : isLeap (n400 * 400 + 3 * 100 + 24 * 4 + 3 + 1) := isLeap_iff.mpr (by omega)
      have hz : n400 * 400 + 4 * 100 + 0 * 4 + 0 = n400 * 400 + 3 * 100 + 24 * 4 + 3 + 1 := by omega
      rw [hz, hy, daysInYear, if_pos hl]
      omega
    case neg =>
      have hz : n1 = 4 ∧ e = 0 ∧ n100 ≤ 3 ∧ n4 ≤ 23 := by omega
      obtain ⟨rfl, rfl, h₁, h₂⟩ := hz
      have hy := daysBeforeYear_of_cycles n400 n100 n4 3 h₁ (h₂.trans (by decide)) (by decide)
      have hl : isLeap (n400 * 400 + n100 * 100 + n4 * 4 + 3 + 1) := isLeap_iff.mpr (by omega)
      have hz : n400 * 400 + n100 * 100 + n4 * 4 + 4 = n400 * 400 + n100 * 100 + n4 * 4 + 3 + 1 := rfl
      rw [hz, hy, daysInYear, if_pos hl]
      omega

end Years

section Months

variable {year month n : Nat}

theorem daysInMonth_pos (year month : Nat) : 1 ≤ daysInMonth year month := by
  unfold daysInMonth
  split
  · split <;> decide
  all_goals decide

theorem daysInMonth_le (year month : Nat) : daysInMonth year month ≤ 31 := by
  unfold daysInMonth
  split
  · split <;> decide
  all_goals decide

theorem daysInMonth_of_ne (h : month ≠ 2) (year year' : Nat) :
    daysInMonth year month = daysInMonth year' month := by
  unfold daysInMonth
  split <;> first | rfl | exact (h rfl).elim

theorem daysBeforeMonth_succ (year : Nat) (h : 1 ≤ month) :
    daysBeforeMonth year (month + 1) = daysBeforeMonth year month + daysInMonth year month := by
  obtain ⟨k, rfl⟩ := Nat.exists_eq_add_of_le' h
  rw [daysBeforeMonth, List.range_succ, List.drop_append_of_le_length (by simp), List.foldl_append]
  rfl

theorem daysBeforeMonth_one : daysBeforeMonth year 1 = 0 :=
  rfl

-- After twelve months the year is over.
theorem daysBeforeMonth_end : daysBeforeMonth year 13 = daysInYear year := by
  have h : daysBeforeMonth year 13 = 337 + daysInMonth year 2 := by
    simp +arith [daysBeforeMonth, List.range_succ, daysInMonth]
  rw [h, daysInYear, daysInMonth]
  split <;> rfl

theorem daysBeforeMonth_mono (year : Nat) {month' : Nat} (h : 1 ≤ month) (hl : month ≤ month') :
    daysBeforeMonth year month ≤ daysBeforeMonth year month' := by
  induction month', hl using Nat.le_induction
  case base           => exact Nat.le_refl _
  case succ m hm hi   => exact hi.trans <| daysBeforeMonth_succ year (h.trans hm) ▸ Nat.le_add_right ..

-- The days of a year are cut into its months.
theorem monthOfDays_spec {fuel m day : Nat} (h : 1 ≤ month)
    (hn : daysBeforeMonth year month + n < daysBeforeMonth year (month + fuel + 1))
    (hr : monthOfDays year month n fuel = (m, day)) :
    month ≤ m ∧ m ≤ month + fuel ∧ 1 ≤ day ∧ day ≤ daysInMonth year m ∧
    daysBeforeMonth year m + day = daysBeforeMonth year month + n + 1 := by
  have hs := daysBeforeMonth_succ year h
  induction fuel generalizing month n
  case zero =>
    cases hr
    rw [Nat.add_zero, hs] at hn
    omega
  case succ fuel hi =>
    simp only [monthOfDays] at hr
    split at hr
    case isTrue hl  => cases hr; omega
    case isFalse hl =>
      rw [show month + (fuel + 1) + 1 = month + 1 + fuel + 1 by omega] at hn
      have hi := hi (by omega) (by omega) hr <| daysBeforeMonth_succ year (by omega)
      omega

end Months

-- A date of which the month and the day exist.
structure IsDate (year month day : Nat) : Prop where
  year_pos  : 1 ≤ year
  month_pos : 1 ≤ month
  month_le  : month ≤ 12
  day_pos   : 1 ≤ day
  day_le    : day ≤ daysInMonth year month

section Dates

variable {year month day n : Nat}

-- Every day has a date.
theorem ofOrdinal_spec (h : 1 ≤ n) :
    IsDate (ofOrdinal n).1 (ofOrdinal n).2.1 (ofOrdinal n).2.2 ∧
    toOrdinal (ofOrdinal n).1 (ofOrdinal n).2.1 (ofOrdinal n).2.2 = n := by
  have ⟨hy, hn, hd⟩ := yearOfOrdinal_spec h
  rw [ofOrdinal]
  generalize yearOfOrdinal n = y at hy hn hd ⊢
  obtain ⟨y, k⟩ := y
  dsimp only at hy hn hd ⊢
  generalize hm : monthOfDays y 1 k 11 = x
  obtain ⟨m, day⟩ := x
  have ⟨h₁, h₂, h₃, h₄, h₅⟩ := monthOfDays_spec (Nat.le_refl 1) (by
    rwa [daysBeforeMonth_one, Nat.zero_add, show 1 + 11 + 1 = 13 from rfl, daysBeforeMonth_end]) hm
  refine ⟨⟨hy, h₁, h₂, h₃, h₄⟩, ?_⟩
  rw [daysBeforeMonth_one] at h₅
  rw [toOrdinal, ←hn]
  dsimp only
  omega

-- A date lies between the first day of its year, and that of the next year.
theorem toOrdinal_le (h : IsDate year month day) :
    daysBeforeYear year + 1 ≤ toOrdinal year month day ∧
    toOrdinal year month day ≤ daysBeforeYear (year + 1) := by
  have h₁ := daysBeforeMonth_succ year h.month_pos
  have h₂ := daysBeforeMonth_mono year (h.month_pos.trans <| Nat.le_add_right month 1)
    (Nat.add_le_add_right h.month_le 1)
  rw [daysBeforeMonth_end] at h₂
  have h₃ := h.day_pos
  have h₄ := h.day_le
  rw [toOrdinal, daysBeforeYear_succ h.year_pos]
  omega

theorem daysBeforeYear_limit : daysBeforeYear (maxYear + 1) = 3652059 :=
  rfl

-- Only the 29th of February does not exist in every year.
theorem IsDate.replaceYear {year' : Nat} (h : IsDate year month day) (hy : 1 ≤ year')
    (hn : ¬(month = 2 ∧ day = 29)) : IsDate year' month day := by
  refine ⟨hy, h.month_pos, h.month_le, h.day_pos, ?_⟩
  have hd := h.day_le
  by_cases hm : month = 2
  case pos =>
    subst hm
    simp only [daysInMonth] at hd ⊢
    split at hd <;> split <;> omega
  case neg =>
    rwa [daysInMonth_of_ne hm year' year]

theorem microsPerDay_pos : 0 < microsPerDay :=
  Nat.succ_pos _

namespace Instant

variable {t t' : Instant}

theorem micros_of_addDays {days : Nat} (h : t.addDays days = some t') :
    t'.micros = t.micros + days * microsPerDay :=
  (ofMicros_eq_some.mp h).symm

theorem lt_of_addDays {days : Nat} (h : t.addDays days = some t') (hd : 0 < days) : t < t' := by
  change t.micros < t'.micros
  rw [micros_of_addDays h]
  exact Nat.lt_add_of_pos_right <| Nat.mul_pos hd microsPerDay_pos

theorem isDate (t : Instant) : IsDate t.date.1 t.date.2.1 t.date.2.2 :=
  (ofOrdinal_spec <| Nat.le_add_left ..).left

theorem toOrdinal_date (t : Instant) : toOrdinal t.date.1 t.date.2.1 t.date.2.2 = t.ordinal :=
  (ofOrdinal_spec <| Nat.le_add_left ..).right

theorem micros_eq (t : Instant) : t.micros = (t.ordinal - 1) * microsPerDay + t.micros % microsPerDay := by
  rw [ordinal, Nat.add_sub_cancel, Nat.mul_comm]
  exact (Nat.div_add_mod ..).symm

theorem replaceYear_eq_some {year : Nat} (hy : 1 ≤ year) (hm : year ≤ maxYear) :
    t.replaceYear year = some t' ↔
      t.date.2.2 ≤ daysInMonth year t.date.2.1 ∧
      t'.micros = (toOrdinal year t.date.2.1 t.date.2.2 - 1) * microsPerDay + t.micros % microsPerDay := by
  have hy : minYear ≤ year := hy
  rw [replaceYear]
  dsimp only
  split
  case isTrue h   => rw [ofMicros_eq_some]; exact ⟨fun he => ⟨h.right.right, he.symm⟩, fun he => he.right.symm⟩
  case isFalse h  => exact ⟨nofun, fun he => (h ⟨hy, hm, he.left⟩).elim⟩

-- The same day exists in another year, unless it is the 29th of February.
theorem replaceYear_isSome {year : Nat} (hy : 1 ≤ year) (hm : year ≤ maxYear)
    (hn : ¬(t.date.2.1 = 2 ∧ t.date.2.2 = 29)) : ∃ t', t.replaceYear year = some t' := by
  have hd := t.isDate.replaceYear hy hn
  have hl := (toOrdinal_le hd).right.trans <| daysBeforeYear_mono (by omega) (Nat.add_le_add_right hm 1)
  rw [daysBeforeYear_limit] at hl
  have hp := (toOrdinal_le hd).left
  have hr : t.micros % microsPerDay < microsPerDay := Nat.mod_lt _ (by decide)
  refine ⟨⟨_, ?_⟩, (replaceYear_eq_some hy hm).mpr ⟨hd.day_le, rfl⟩⟩
  rw [microsLimit]
  calc (toOrdinal year t.date.2.1 t.date.2.2 - 1) * microsPerDay + t.micros % microsPerDay
    _ < (toOrdinal year t.date.2.1 t.date.2.2 - 1) * microsPerDay + microsPerDay := Nat.add_lt_add_left hr _
    _ = (toOrdinal year t.date.2.1 t.date.2.2 - 1 + 1) * microsPerDay := (Nat.succ_mul ..).symm
    _ ≤ 3652059 * microsPerDay := Nat.mul_le_mul_right _ (by omega)

theorem lt_of_replaceYear {n : Nat} (hm : t.date.1 + (n + 1) ≤ maxYear)
    (h : t.replaceYear (t.date.1 + (n + 1)) = some t') : t < t' := by
  have hd := t.isDate
  have ⟨hl, he⟩ := (replaceYear_eq_some (by omega) hm).mp h
  have hd' : IsDate (t.date.1 + (n + 1)) t.date.2.1 t.date.2.2 :=
    ⟨by omega, hd.month_pos, hd.month_le, hd.day_pos, hl⟩
  have h₁ := (toOrdinal_le hd).right
  have h₂ := (toOrdinal_le hd').left
  have h₃ : daysBeforeYear (t.date.1 + 1) ≤ daysBeforeYear (t.date.1 + (n + 1)) :=
    daysBeforeYear_mono (by omega) (by omega)
  rw [toOrdinal_date] at h₁
  have ho : 1 ≤ t.ordinal := Nat.le_add_left ..
  change t.micros < t'.micros
  rw [micros_eq t, he]
  apply Nat.add_lt_add_right
  exact Nat.mul_lt_mul_of_pos_right (by omega) (by decide)

end Instant
end Dates
end Calendar
