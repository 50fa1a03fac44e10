import SaasBackend.Analytics.Selectors

open Calendar Grouping ReadCommitted

namespace SaasBackend

-- The months that end with the current one.
def InRange (today : Day) (months k : Nat) : Prop :=
  k ≤ today.month ∧ today.month < k + months

-- The rows that a chart for the user, or for all users, has to take into account.
def usageInScope (d : Database) (user : Option Uuid) : List DailyUsage :=
  scope (some ·.userId) user d.dailyUsage.rows

def monthlyUsage (rows : List DailyUsage) (k : Nat) : List DailyUsage :=
  rows.filter (·.date.month = k)

def monthlyPoint (rows : List DailyUsage) (k : Nat) : MonthlyPoint where
  month  := monthName k
  count  := ((monthlyUsage rows k).map (·.requestCount)).sum
  errors := ((monthlyUsage rows k).map (·.errorCount)).sum

-- A chart of the rows has a point for each month in range that has any rows, in the order of the months.
structure IsMonthlyChart (rows : List DailyUsage) (today : Day) (months : Nat)
    (chart : List MonthlyPoint) (ks : List Nat) : Prop where
  points : chart = ks.map (monthlyPoint rows)
  mem    : ∀ k, k ∈ ks ↔ InRange today months k ∧ ∃ r ∈ rows, r.date.month = k
  sorted : ks.Pairwise (· < ·)
  length : chart.length ≤ months

-- The day of which the month is the first one that `monthly_chart` considers.
def drifted (today : Day) (months : Nat) : Option Day :=
  today.startOfMonth.addDays (-(31 * (months - 1)))

section Points

variable {rows : List DailyUsage} {first : Day} {k : Nat}

theorem foldl_addUsage (rows : List DailyUsage) (b : Tally) :
    rows.foldl (fun b r => addUsage r b) b =
      ⟨b.count + (rows.map (·.requestCount)).sum, b.errors + (rows.map (·.errorCount)).sum⟩ := by
  induction rows generalizing b
  case nil          => rfl
  case cons r rs hi =>
    rw [List.foldl_cons, hi]
    simp only [addUsage, List.map_cons, List.sum_cons, Nat.add_assoc]

-- The months of some rows, from the first to the last.
def monthsOf (rows : List DailyUsage) : List Nat :=
  (rows.map (·.date.month)).toFinset.sort

theorem mem_monthsOf : k ∈ monthsOf rows ↔ ∃ r ∈ rows, r.date.month = k := by
  simp [monthsOf]

theorem monthsOf_sorted (rows : List DailyUsage) : (monthsOf rows).Pairwise (· < ·) :=
  Finset.sortedLT_sort _ |>.pairwise

theorem month_le_of_mem (h : k ∈ monthsOf rows) : k / 12 ≤ maxYear := by
  obtain ⟨r, _, rfl⟩ := mem_monthsOf.mp h
  exact r.date.month_le

-- The rows of a month are those with its name.
theorem mem_accumulate_usage {month : String} {b : Tally} :
    (month, b) ∈ accumulate (·.date.yearMonth) ⟨0, 0⟩ addUsage rows ↔
      ∃ k ∈ monthsOf rows, month = monthName k ∧
        b = ⟨(monthlyPoint rows k).count, (monthlyPoint rows k).errors⟩ := by
  have hf : ∀ k ∈ monthsOf rows, rows.filter (·.date.yearMonth = monthName k) = monthlyUsage rows k := by
    intro k hk
    refine List.filter_congr fun r _ => decide_eq_decide.mpr ?_
    rw [Day.yearMonth_eq]
    exact ⟨monthName_inj r.date.month_le (month_le_of_mem hk), congrArg _⟩
  rw [mem_accumulate, foldl_addUsage]
  simp only [Nat.zero_add, monthlyPoint]
  constructor
  case mp =>
    rintro ⟨hm, rfl⟩
    obtain ⟨r, hr, rfl⟩ := List.mem_map.mp hm
    have hk : r.date.month ∈ monthsOf rows := mem_monthsOf.mpr ⟨r, hr, rfl⟩
    exact ⟨r.date.month, hk, r.date.yearMonth_eq, by rw [r.date.yearMonth_eq, hf _ hk]⟩
  case mpr =>
    rintro ⟨k, hk, rfl, rfl⟩
    obtain ⟨r, hr, rfl⟩ := mem_monthsOf.mp hk
    exact ⟨List.mem_map.mpr ⟨r, hr, r.date.yearMonth_eq⟩, by rw [hf _ hk]⟩

theorem sortedItems_usage (rows : List DailyUsage) :
    (sortedItems <| accumulate (·.date.yearMonth) ⟨0, 0⟩ addUsage rows).map
      (fun b => (⟨b.1, b.2.count, b.2.errors⟩ : MonthlyPoint)) =
    (monthsOf rows).map (monthlyPoint rows) := by
  have hs : sortedItems (accumulate (·.date.yearMonth) ⟨0, 0⟩ addUsage rows) =
      (monthsOf rows).map fun k => (monthName k,
        (⟨(monthlyPoint rows k).count, (monthlyPoint rows k).errors⟩ : Tally)) := by
    apply eq_of_sorted
    · exact sortedItems_lt <| accumulate_nodup ..
    · rw [List.map_map, List.pairwise_map]
      refine (monthsOf_sorted rows).imp_of_mem fun hk hk' hl => ?_
      exact (monthName_lt_iff (month_le_of_mem hk) (month_le_of_mem hk')).mpr hl
    · rintro ⟨month, b⟩
      rw [mem_sortedItems, mem_accumulate_usage, List.mem_map]
      simp only [Prod.mk.injEq, eq_comm]
  rw [hs, List.map_map]
  rfl

attribute [local irreducible] Day.startOfMonth Day.addDays Day.month

theorem monthlyPoint_filter {n : Nat} (h : n ≤ k) :
    monthlyPoint (rows.filter (n ≤ ·.date.month)) k = monthlyPoint rows k := by
  have hu : monthlyUsage (rows.filter (n ≤ ·.date.month)) k = monthlyUsage rows k := by
    refine List.filter_filter.trans <| List.filter_congr fun r _ => ?_
    by_cases hr : r.date.month = k <;> simp [hr, h]
  rw [monthlyPoint, hu]
  rfl

theorem monthlyRows_eq {d : Database} {now : Instant} {months : Nat} (user : Option Uuid) {day : Day}
    (h : drifted now.day months = some day) :
    monthlyRows d now user months = .ok ((usageInScope d user).filter (day.month ≤ ·.date.month)) := by
  have hf : ∀ rows : List DailyUsage, rows.filter (day.startOfMonth ≤ ·.date) =
      rows.filter (day.month ≤ ·.date.month) := fun rows =>
    List.filter_congr fun r _ => decide_eq_decide.mpr Day.startOfMonth_le
  have he := orOverflow_eq_ok.mpr h
  rw [drifted] at he
  unfold monthlyRows
  dsimp only
  rw [Day.startOfMonth_startOfMonth, he]
  change Except.ok _ = Except.ok _
  rw [hf, scope_filter, ←usageInScope]

theorem monthlyRows_eq_error {d : Database} {now : Instant} {months : Nat} (user : Option Uuid)
    (h : drifted now.day months = none) : monthlyRows d now user months = .error .overflowError := by
  unfold monthlyRows
  dsimp only
  rw [Day.startOfMonth_startOfMonth]
  rw [drifted] at h
  rw [h]
  rfl

-- What the chart shows, given the day by which its first month is found.
theorem monthlyChart_eq {d : Database} {now : Instant} {months : Nat} (user : Option Uuid) {day : Day}
    (h : drifted now.day months = some day) :
    monthlyChart d now user months = .ok (
      (monthsOf <| (usageInScope d user).filter (day.month ≤ ·.date.month)).map
      (monthlyPoint <| usageInScope d user)) := by
  unfold monthlyChart
  rw [monthlyRows_eq user h]
  change Except.ok _ = Except.ok _
  rw [sortedItems_usage]
  refine congrArg Except.ok <| List.map_congr_left fun k hk => monthlyPoint_filter ?_
  obtain ⟨r, hr, rfl⟩ := mem_monthsOf.mp hk
  exact of_decide_eq_true (List.mem_filter.mp hr).right

theorem monthlyChart_eq_error {d : Database} {now : Instant} {months : Nat} (user : Option Uuid)
    (h : drifted now.day months = none) :
    monthlyChart d now user months = .error .overflowError := by
  unfold monthlyChart
  rw [monthlyRows_eq_error user h]
  rfl

end Points

section Range

variable {rows : List DailyUsage} {today day : Day} {months k : Nat}

theorem drifted_eq_some (hm : 1 ≤ months) :
    drifted today months = some day ↔ day.ordinal + 31 * (months - 1) = firstOfMonth today.month := by
  rw [drifted, Day.addDays_eq_some, Day.startOfMonth_ordinal]
  omega

theorem drifted_isSome (hm : 1 ≤ months) :
    (∃ day, drifted today months = some day) ↔ 31 * (months - 1) < firstOfMonth today.month := by
  constructor
  case mp =>
    intro ⟨day, h⟩
    have he := (drifted_eq_some hm).mp h
    have hv := day.valid
    omega
  case mpr =>
    intro h
    have hv := today.startOfMonth.valid
    rw [Day.startOfMonth_ordinal] at hv
    exact ⟨⟨firstOfMonth today.month - 31 * (months - 1), by omega, by omega⟩,
      (drifted_eq_some hm).mpr (by dsimp only; omega)⟩

-- A month is not considered if it is over early enough.
theorem lt_drifted_iff (hm : 1 ≤ months) (hk : 12 ≤ k) (h : drifted today months = some day) :
    k < day.month ↔ firstOfMonth (k + 1) + 31 * (months - 1) ≤ firstOfMonth today.month := by
  rw [←(drifted_eq_some hm).mp h, Nat.add_le_add_iff_right, Day.firstOfMonth_le (by omega)]
  rfl

theorem drifted_le (hm : 1 ≤ months) (h : drifted today months = some day) :
    day.month + months ≤ today.month + 1 := by
  obtain ⟨n, rfl⟩ := Nat.exists_eq_add_of_le' hm
  have hl : day.month + n ≤ today.month := by
    apply Day.month_of_addDays
    rw [←h, drifted]
    exact congrArg _ <| by omega
  omega

theorem length_le_of_inRange {ks : List Nat} (hs : ks.Pairwise (· < ·))
    (hr : ∀ k ∈ ks, InRange today months k) : ks.length ≤ months := by
  have hn : ks.Nodup := hs.imp Nat.ne_of_lt
  rw [←List.toFinset_card_of_nodup hn]
  have hc : ks.toFinset ⊆ Finset.Icc (today.month + 1 - months) today.month := by
    intro k hk
    have ⟨h₁, h₂⟩ := hr k <| List.mem_toFinset.mp hk
    exact Finset.mem_Icc.mpr ⟨by omega, h₁⟩
  refine (Finset.card_le_card hc).trans ?_
  rw [Nat.card_Icc]
  omega

-- Before the months in range there are only rows of months that were over some time ago, namely 31
-- days before the current month for each month between them.
def IsAligned (rows : List DailyUsage) (today : Day) (months : Nat) : Prop :=
  31 * (months - 1) < firstOfMonth today.month ∧
  ∀ r ∈ rows, today.month < r.date.month + months ∨
    firstOfMonth (r.date.month + 1) + 31 * (months - 1) ≤ firstOfMonth today.month

-- A row of an earlier month which is considered nevertheless has a point of its own.
theorem IsMonthlyChart.inRange {d : Database} {now : Instant} {user : Option Uuid}
    {chart : List MonthlyPoint} {ks : List Nat} {r : DailyUsage}
    (h : IsMonthlyChart (usageInScope d user) now.day months chart ks)
    (hc : monthlyChart d now user months = .ok chart) (hd : drifted now.day months = some day)
    (hr : r ∈ usageInScope d user) (hl : day.month ≤ r.date.month) :
    InRange now.day months r.date.month := by
  have hp := h.points.symm.trans <| Except.ok.inj <| hc.symm.trans <| monthlyChart_eq user hd
  have hk : monthlyPoint (usageInScope d user) r.date.month ∈
      ks.map (monthlyPoint <| usageInScope d user) := by
    rw [hp]
    refine List.mem_map_of_mem <| mem_monthsOf.mpr ⟨r, ?_, rfl⟩
    exact List.mem_filter.mpr ⟨hr, decide_eq_true hl⟩
  obtain ⟨k, hk, he⟩ := List.mem_map.mp hk
  have hk := ((h.mem k).mp hk).left
  have hle : k / 12 ≤ maxYear := (Nat.div_le_div_right hk.left).trans now.day.month_le
  exact monthName_inj hle r.date.month_le (congrArg MonthlyPoint.month he) ▸ hk

end Range

-- Going back by months of 31 days, the chart may also consider months before those in range.
theorem monthlyChart_iff (d : Database) (now : Instant) (user : Option Uuid) (months : Nat)
    (hm : 1 ≤ months) (hd : ∀ r ∈ d.dailyUsage, r.date ≤ now.day) :
    (∃ chart ks, monthlyChart d now user months = .ok chart ∧
      IsMonthlyChart (usageInScope d user) now.day months chart ks) ↔
    IsAligned (usageInScope d user) now.day months := by
  constructor
  case mp =>
    intro ⟨chart, ks, hc, h⟩
    have ⟨day, hday⟩ : ∃ day, drifted now.day months = some day := by
      cases hday : drifted now.day months
      case some day => exact ⟨day, rfl⟩
      case none     => cases hc.symm.trans <| monthlyChart_eq_error user hday
    refine ⟨(drifted_isSome hm).mp ⟨day, hday⟩, fun r hr => ?_⟩
    by_cases hl : day.month ≤ r.date.month
    case pos => exact .inl (h.inRange hc hday hr hl).right
    case neg => exact .inr <| (lt_drifted_iff hm r.date.month_ge hday).mp <| Nat.lt_of_not_le hl
  case mpr =>
    intro ⟨hf, ha⟩
    have ⟨day, hday⟩ := (drifted_isSome hm).mpr hf
    have hle := drifted_le hm hday
    have hk : ∀ k, k ∈ monthsOf ((usageInScope d user).filter (day.month ≤ ·.date.month)) ↔
        InRange now.day months k ∧ ∃ r ∈ usageInScope d user, r.date.month = k := by
      intro k
      rw [mem_monthsOf]
      constructor
      case mp =>
        rintro ⟨r, hr, rfl⟩
        obtain ⟨hr, hl⟩ := List.mem_filter.mp hr
        have hl : day.month ≤ r.date.month := of_decide_eq_true hl
        have hn := (lt_drifted_iff hm r.date.month_ge hday).not.mp <| Nat.not_lt.mpr hl
        exact ⟨⟨Day.month_mono <| hd r (mem_scope.mp hr).left, (ha r hr).resolve_right hn⟩, r, hr, rfl⟩
      case mpr =>
        rintro ⟨⟨_, hk⟩, r, hr, rfl⟩
        exact ⟨r, List.mem_filter.mpr ⟨hr, decide_eq_true (by omega)⟩, rfl⟩
    refine ⟨_, _, monthlyChart_eq user hday, rfl, hk, monthsOf_sorted _, ?_⟩
    rw [List.length_map]
    exact length_le_of_inRange (monthsOf_sorted _) fun k h => ((hk k).mp h).left

section Example

def exampleUsage (date : Day) : DailyUsage :=
  ⟨1, 1, date, 5, 0, 10⟩

-- The only usage is that of the user 1 on the given day.
def usageOn (date : Day) : Database :=
  Database.empty.put <| .dailyUsage <| exampleUsage date

theorem eq_of_mem_usageOn {date : Day} {r : DailyUsage} (h : r ∈ (usageOn date).dailyUsage) :
    r = exampleUsage date :=
  List.mem_singleton.mp h

theorem february_is_shown_in_march :
    ∃ chart ks, monthlyChart (usageOn ⟨738565, by decide⟩) (.midnight 738593) (some 1) 2 = .ok chart ∧
      IsMonthlyChart (usageInScope (usageOn ⟨738565, by decide⟩) (some 1))
        (Instant.midnight 738593).day 2 chart ks := by
  refine (monthlyChart_iff _ _ _ _ (by decide) ?_).mpr ⟨by decide +kernel, ?_⟩
  · intro r hr
    rw [eq_of_mem_usageOn hr]
    decide +kernel
  · intro r hr
    rw [eq_of_mem_usageOn (mem_scope.mp hr).left]
    exact .inl (by decide +kernel)

-- On March 15th 2023 the chart of two months also includes January, since February has 28 days only.
theorem january_is_shown_in_march :
    ¬∃ chart ks, monthlyChart (usageOn ⟨738530, by decide⟩) (.midnight 738593) (some 1) 2 = .ok chart ∧
      IsMonthlyChart (usageInScope (usageOn ⟨738530, by decide⟩) (some 1))
        (Instant.midnight 738593).day 2 chart ks := by
  intro ⟨chart, ks, hc, h⟩
  have hd : drifted (Instant.midnight 738593).day 2 = some ⟨738549, by decide⟩ := by decide +kernel
  have hr : exampleUsage ⟨738530, by decide⟩ ∈ usageInScope (usageOn ⟨738530, by decide⟩) (some 1) :=
    mem_scope.mpr ⟨List.mem_singleton.mpr rfl, fun _ h => h⟩
  have hl := (h.inRange hc hd hr (by decide +kernel)).right
  exact absurd hl (by decide +kernel)

end Example
end SaasBackend
