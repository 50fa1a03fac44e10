import SaasBackend.Calendar.Months

-- Dates as texts, in which the numbers have a fixed width.
namespace Calendar

def digit (n : Nat) : Char :=
  .ofNat (48 + n)

-- The last digits of a number.
def digits : (width : Nat) → Nat → List Char
  | 0,         _ => []
  | width + 1, n => digit (n / 10 ^ width % 10) :: digits width (n % 10 ^ width)

section Digits

variable {n m width : Nat} {s t : List Char}

theorem digit_lt_iff : ∀ n < 10, ∀ m < 10, digit n < digit m ↔ n < m := by
  decide

theorem digit_inj : ∀ n < 10, ∀ m < 10, digit n = digit m ↔ n = m := by
  decide

theorem lt_of_quotient_lt {p : Nat} (hr : n % p < p) (h : n / p < m / p) : n < m := by
  have h₁ := Nat.div_add_mod n p
  have h₂ := Nat.div_add_mod m p
  have h₃ := Nat.mul_le_mul_left p h
  rw [Nat.mul_succ] at h₃
  omega

-- Numbers are compared by their first digits, and then by the remaining ones.
theorem lt_iff_quotient {p : Nat} (hp : 0 < p) :
    n < m ↔ n / p < m / p ∨ n / p = m / p ∧ n % p < m % p := by
  have h₁ := Nat.div_add_mod n p
  have h₂ := Nat.div_add_mod m p
  constructor
  case mp =>
    intro h
    cases Nat.lt_or_eq_of_le <| Nat.div_le_div_right (c := p) (Nat.le_of_lt h)
    case inl hl => exact .inl hl
    case inr he => rw [he] at h₁; exact .inr ⟨he, by omega⟩
  case mpr =>
    rintro (h | ⟨he, h⟩)
    · exact lt_of_quotient_lt (Nat.mod_lt n hp) h
    · rw [he] at h₁; omega

theorem eq_iff_quotient (p : Nat) : n = m ↔ n / p = m / p ∧ n % p = m % p := by
  constructor
  case mp  => rintro rfl; exact ⟨rfl, rfl⟩
  case mpr => rintro ⟨hd, hm⟩; rw [←Nat.div_add_mod n p, hd, hm, Nat.div_add_mod]

-- Texts which start with numbers of the same width are first compared by these.
theorem digits_lt_iff (hn : n < 10 ^ width) (hm : m < 10 ^ width) :
    digits width n ++ s < digits width m ++ t ↔ n < m ∨ n = m ∧ s < t := by
  induction width generalizing n m
  case zero           => simp_all [digits]
  case succ width hi  =>
    have hp : 0 < 10 ^ width := Nat.pow_pos (by decide)
    have hn : n / 10 ^ width < 10 := Nat.div_lt_of_lt_mul (by rwa [←Nat.pow_succ])
    have hm : m / 10 ^ width < 10 := Nat.div_lt_of_lt_mul (by rwa [←Nat.pow_succ])
    have hi := hi (Nat.mod_lt n hp) (Nat.mod_lt m hp)
    have hl : n < m ↔ _ := lt_iff_quotient hp
    have he : n = m ↔ _ := eq_iff_quotient (10 ^ width)
    rw [digits, digits, List.cons_append, List.cons_append, List.cons_lt_cons_iff, hi,
      Nat.mod_eq_of_lt hn, Nat.mod_eq_of_lt hm, digit_lt_iff _ hn _ hm, digit_inj _ hn _ hm,
      hl, he, and_or_left, or_assoc, and_assoc]

theorem digits_inj (hn : n < 10 ^ width) (hm : m < 10 ^ width)
    (h : digits width n ++ s = digits width m ++ t) : n = m ∧ s = t := by
  have h₁ := (digits_lt_iff hn hm).not.mp h.not_lt
  have h₂ := (digits_lt_iff hm hn).not.mp h.symm.not_lt
  have he : n = m := by omega
  exact ⟨he, le_antisymm (not_lt.mp fun hl => h₂ <| .inr ⟨he.symm, hl⟩)
    (not_lt.mp fun hl => h₁ <| .inr ⟨he, hl⟩)⟩

end Digits

-- The format `%Y-%m`.
def monthText (year month : Nat) : String :=
  .ofList <| digits 4 year ++ '-' :: digits 2 month

-- The name of a month in the sequence of all months.
def monthName (k : Nat) : String :=
  monthText (k / 12) (k % 12 + 1)

theorem monthName_lt_iff {k k' : Nat} (h : k / 12 ≤ maxYear) (h' : k' / 12 ≤ maxYear) :
    monthName k < monthName k' ↔ k < k' := by
  have hy : ∀ n ≤ maxYear, n < 10 ^ 4 := by unfold maxYear; omega
  change (String.ofList _).toList < (String.ofList _).toList ↔ _
  rw [String.toList_ofList, String.toList_ofList, digits_lt_iff (hy _ h) (hy _ h'),
    List.cons_lt_cons_iff, ←List.append_nil (digits 2 _), ←List.append_nil (digits 2 (k' % 12 + 1)),
    digits_lt_iff (by omega) (by omega)]
  simp only [lt_irrefl, false_or, and_false, or_false, true_and]
  omega

theorem monthName_inj {k k' : Nat} (h : k / 12 ≤ maxYear) (h' : k' / 12 ≤ maxYear)
    (hk : monthName k = monthName k') : k = k' := by
  have h₁ := (monthName_lt_iff h h').not.mp hk.not_lt
  have h₂ := (monthName_lt_iff h' h).not.mp hk.symm.not_lt
  omega

namespace Day

variable {d d' : Day}

-- `date.strftime("%Y-%m")`
def yearMonth (d : Day) : String :=
  monthText d.date.1 d.date.2.1

-- `date.isoformat()`
def isoformat (d : Day) : String :=
  .ofList <| digits 4 d.date.1 ++ '-' :: (digits 2 d.date.2.1 ++ '-' :: digits 2 d.date.2.2)

theorem year_le (d : Day) : d.date.1 ≤ maxYear := by
  by_contra hn
  have hl := (toOrdinal_le d.isDate).left
  have hm := daysBeforeYear_mono (Nat.succ_pos maxYear) (Nat.lt_of_not_le hn)
  have hv := d.valid
  rw [toOrdinal_date] at hl
  rw [daysBeforeYear_limit] at hm
  omega

theorem month_year (d : Day) : d.month / 12 = d.date.1 ∧ d.month % 12 + 1 = d.date.2.1 := by
  have h₁ := d.isDate.month_pos
  have h₂ := d.isDate.month_le
  unfold month monthIndex
  omega

theorem yearMonth_eq (d : Day) : d.yearMonth = monthName d.month := by
  rw [monthName, d.month_year.left, d.month_year.right, yearMonth]

theorem month_le (d : Day) : d.month / 12 ≤ maxYear :=
  d.month_year.left ▸ d.year_le

-- Different days are rendered differently.
theorem isoformat_injective : Function.Injective isoformat := by
  intro d d' h
  have h₁ := d.isDate
  have h₂ := d'.isDate
  have hd : ∀ {y m n}, IsDate y m n → m < 10 ^ 2 ∧ n < 10 ^ 2 := by
    intro y m n h
    have hm := h.month_le
    have hl := h.day_le.trans (daysInMonth_le y m)
    omega
  have hy : ∀ n ≤ maxYear, n < 10 ^ 4 := by unfold maxYear; omega
  have h := String.ofList_injective h
  have ⟨h₃, h⟩ := digits_inj (hy _ d.year_le) (hy _ d'.year_le) h
  have ⟨h₄, h⟩ := digits_inj (hd h₁).left (hd h₂).left (List.cons.inj h).right
  have h := (List.cons.inj h).right
  rw [←List.append_nil (digits 2 _), ←List.append_nil (digits 2 d'.date.2.2)] at h
  have ⟨h₅, _⟩ := digits_inj (hd h₁).right (hd h₂).right h
  apply ordinal_injective
  rw [←toOrdinal_date d, ←toOrdinal_date d', h₃, h₄, h₅]

end Day
end Calendar
