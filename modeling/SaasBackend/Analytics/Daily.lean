import SaasBackend.Analytics.Agreement

open Calendar Grouping ReadCommitted

namespace SaasBackend

-- The given number of days up to today, in ascending order.
def dayWindow (today : Day) (days : Nat) : List Day :=
  (List.range days).map fun (i : Nat) => (today.addDays (1 - days + i)).getD today

-- The entry of the daily chart for a day.
def dailyPoint (d : Database) (user : Option Uuid) (day : Day) : DailyPoint where
  date   := day.isoformat
  count  := (logsInScope d user day).length
  errors := (logsInScope d user day).countP (·.isError)

-- The requests which belong to no user.
def anonymousLogs (d : Database) (day : Day) : List RequestLog :=
  d.requestLogs.rows.filter fun l => l.createdAt.day = day ∧ l.userId = none

section Window

variable {today day : Day} {days i : Nat}

theorem addDays_window (h : days ≤ today.ordinal) (hi : i < days) :
    ∃ day, today.addDays (1 - days + i) = some day ∧ day.ordinal + days = today.ordinal + i + 1 := by
  have hv := today.valid
  have hp : 0 < (today.ordinal : Int) + (1 - days + i) ∧ (today.ordinal : Int) + (1 - days + i) ≤ 3652059 := by omega
  refine ⟨⟨((today.ordinal : Int) + (1 - days + i)).toNat, by omega, by omega⟩, dif_pos hp, ?_⟩
  dsimp only
  omega

theorem length_dayWindow (today : Day) (days : Nat) : (dayWindow today days).length = days := by
  rw [dayWindow, List.length_map, List.length_range]

theorem getElem_dayWindow (h : days ≤ today.ordinal) (hi : i < (dayWindow today days).length) :
    ((dayWindow today days)[i]).ordinal + days = today.ordinal + i + 1 := by
  obtain ⟨day, hd, ho⟩ := addDays_window h <| length_dayWindow today days ▸ hi
  simp only [dayWindow, List.getElem_map, List.getElem_range, hd, Option.getD_some]
  exact ho

theorem mem_dayWindow (h : days ≤ today.ordinal) :
    day ∈ dayWindow today days ↔ today.ordinal < day.ordinal + days ∧ day ≤ today := by
  have hv := day.valid
  change _ ↔ _ ∧ day.ordinal ≤ today.ordinal
  rw [List.mem_iff_getElem]
  constructor
  case mp   =>
    rintro ⟨i, hi, rfl⟩
    have ho := getElem_dayWindow h hi
    rw [length_dayWindow] at hi
    omega
  case mpr  =>
    rintro ⟨h₁, h₂⟩
    have hi : day.ordinal + days - today.ordinal - 1 < (dayWindow today days).length := by
      rw [length_dayWindow]
      omega
    refine ⟨_, hi, Day.ordinal_injective ?_⟩
    have ho := getElem_dayWindow h hi
    omega

theorem dayWindow_nodup (h : days ≤ today.ordinal) : (dayWindow today days).Nodup := by
  refine List.nodup_iff_injective_getElem.mpr fun i j he => Fin.ext ?_
  have hi := getElem_dayWindow h i.isLt
  have hj := getElem_dayWindow h j.isLt
  dsimp only at he
  rw [he] at hi
  omega

end Window

section Chart

variable {d : Database} {now : Instant} {user : Option Uuid} {days : Nat} {day : Day}

theorem mapM_eq_ok {α β X : Type} {f : α → Except X β} {g : α → β} {as : List α}
    (h : ∀ a ∈ as, f a = .ok (g a)) : as.mapM f = .ok (as.map g) := by
  induction as
  case nil          => rfl
  case cons a as hi =>
    rw [List.mapM_cons, h a List.mem_cons_self, hi fun b hb => h b <| List.mem_cons_of_mem _ hb]
    rfl

theorem dailyChart_eq (d : Database) (user : Option Uuid) (hd : 1 ≤ days) (h : days ≤ now.day.ordinal) :
    dailyChart d now user days = .ok ((dayWindow now.day days).map <| dailyPoint d user) := by
  have hs := addDays_window h <| Nat.lt_of_lt_of_le Nat.zero_lt_one hd
  obtain ⟨start, hs, hso⟩ := hs
  rw [Nat.cast_zero, add_zero] at hs
  rw [dailyChart, orOverflow_eq_ok.mpr hs, dayWindow, List.map_map]
  refine mapM_eq_ok fun i hi => ?_
  obtain ⟨day, hday, ho⟩ := addDays_window h <| List.mem_range.mp hi
  have hi : start.addDays i = some day := Day.addDays_eq_some.mpr <| by omega
  have hle : start.ordinal ≤ day.ordinal := by omega
  rw [orOverflow_eq_ok.mpr hi, Function.comp_apply, hday]
  have ht := lookup_tallyByDay d user hle
  exact congrArg (fun t : Tally => (.ok ⟨day.isoformat, t.count, t.errors⟩ : Except Exn DailyPoint)) ht

theorem dailyChart_overflow (d : Database) (user : Option Uuid) (h : now.day.ordinal < days) :
    dailyChart d now user days = .error .overflowError := by
  have hs : now.day.addDays (1 - days) = none := dif_neg <| by omega
  rw [dailyChart, hs]
  rfl

-- The requests of a day are those of the users, and the anonymous ones.
theorem countP_logsInScope (hu : ∀ l ∈ d.requestLogs, ∀ u, l.userId = some u → ∃ r ∈ d.users, r.id = u)
    (p : RequestLog → Bool) (day : Day) :
    (logsInScope d none day).countP p =
      (d.users.rows.map fun u => (logsInScope d (some u.id) day).countP p).sum + (anonymousLogs d day).countP p := by
  have hn : (d.users.rows.map (·.id)).Nodup :=
    List.pairwise_map.mpr <| d.users.distinct.imp fun hk he => hk <| congrArg Key.user he
  have hm : ∀ l ∈ logsInScope d none day, ∀ k, l.userId = some k → k ∈ d.users.rows.map (·.id) := by
    intro l hl k hk
    obtain ⟨r, hr, he⟩ := hu l (mem_logsInScope.mp hl).left k hk
    exact List.mem_map.mpr ⟨r, hr, he⟩
  have hs := sum_countP_owners (·.userId) p hn hm
  rw [List.map_map] at hs
  have ha : anonymousLogs d day = (logsInScope d none day).filter fun l => !l.userId.isSome := by
    rw [logsInScope, scope, List.filter_filter, anonymousLogs]
    refine List.filter_congr fun l _ => ?_
    cases l.userId <;> simp
  have hs : (d.users.rows.map fun u => (logsInScope d (some u.id) day).countP p).sum =
      ((logsInScope d none day).filter (·.userId.isSome)).countP p := by
    rw [List.countP_filter]
    exact hs
  rw [hs, ha]
  exact List.countP_eq_countP_filter_add (logsInScope d none day) p (·.userId.isSome)

end Chart

-- The days up to today, each of them once and in ascending order.
structure IsWindow (today : Day) (days : Nat) (window : List Day) : Prop where
  length  : window.length = days
  ordinal : ∀ (i : Nat) (h : i < window.length), window[i].ordinal + days = today.ordinal + i + 1

-- The requests of a scope from the first day of the window on.
def windowLogs (d : Database) (user : Option Uuid) (today : Day) (days : Nat) : List RequestLog :=
  (scope (·.userId) user d.requestLogs.rows).filter fun l => today.ordinal < l.createdAt.day.ordinal + days

-- A chart which counts each request of the window once.
structure ChartsWindow (d : Database) (user : Option Uuid) (today : Day) (window : List Day)
    (chart : List DailyPoint) : Prop where
  points  : chart = window.map (dailyPoint d user)
  bounded : ∀ p ∈ chart, p.errors ≤ p.count
  count   : (chart.map (·.count)).sum = (windowLogs d user today window.length).length
  errors  : (chart.map (·.errors)).sum = (windowLogs d user today window.length).countP (·.isError)

-- The point of all requests is the sum of those of the users, and of the requests without a user.
structure SumsUsers (d : Database) (day : Day) : Prop where
  count  : (dailyPoint d none day).count =
            (d.users.rows.map fun u => (dailyPoint d (some u.id) day).count).sum + (anonymousLogs d day).length
  errors : (dailyPoint d none day).errors =
            (d.users.rows.map fun u => (dailyPoint d (some u.id) day).errors).sum +
              (anonymousLogs d day).countP (·.isError)

section Totals

variable {d : Database} {now : Instant} {user : Option Uuid} {days : Nat}

theorem windowLogs_filter {today day : Day} (user : Option Uuid) (h : today.ordinal < day.ordinal + days) :
    (windowLogs d user today days).filter (fun l => some l.createdAt.day = some day) = logsInScope d user day := by
  rw [windowLogs, List.filter_filter, logsInScope, scope_filter]
  refine List.filter_congr fun l _ => ?_
  by_cases hl : l.createdAt.day = day
  case pos => simp [hl, h]
  case neg => simp [hl]

-- A request of the window is counted on exactly one of its days.
theorem sum_dayWindow (user : Option Uuid) (h : days ≤ now.day.ordinal) (hl : ∀ l ∈ d.requestLogs, l.createdAt ≤ now)
    (p : RequestLog → Bool) :
    ((dayWindow now.day days).map fun day => (logsInScope d user day).countP p).sum =
      (windowLogs d user now.day days).countP p := by
  have hm : ∀ l ∈ windowLogs d user now.day days, ∀ day, some l.createdAt.day = some day →
      day ∈ dayWindow now.day days := by
    rintro l hw day ⟨⟩
    obtain ⟨hs, hw⟩ := List.mem_filter.mp hw
    have hle := hl l (mem_scope.mp hs).left
    have hday : l.createdAt.ordinal ≤ now.ordinal := Nat.add_le_add_right (Nat.div_le_div_right hle) 1
    exact (mem_dayWindow h).mpr ⟨of_decide_eq_true hw, hday⟩
  have hs := sum_countP_owners (fun l : RequestLog => some l.createdAt.day) p (dayWindow_nodup h) hm
  simp only [Option.isSome_some, Bool.and_true] at hs
  rw [←hs]
  refine congrArg List.sum <| List.map_congr_left fun day hd => ?_
  rw [windowLogs_filter user (mem_dayWindow h |>.mp hd).left]

theorem sumsUsers (hu : ∀ l ∈ d.requestLogs, ∀ u, l.userId = some u → ∃ r ∈ d.users, r.id = u) (day : Day) :
    SumsUsers d day := by
  constructor
  case count  =>
    have h := countP_logsInScope hu (fun _ => true) day
    simp only [List.countP_true] at h
    exact h
  case errors => exact countP_logsInScope hu (·.isError) day

theorem chartsWindow (user : Option Uuid) (h : days ≤ now.day.ordinal) (hl : ∀ l ∈ d.requestLogs, l.createdAt ≤ now) :
    ChartsWindow d user now.day (dayWindow now.day days) ((dayWindow now.day days).map <| dailyPoint d user) := by
  constructor
  case points   => rfl
  case bounded  =>
    intro p hp
    obtain ⟨day, _, rfl⟩ := List.mem_map.mp hp
    exact List.countP_le_length
  case count    =>
    have hs := sum_dayWindow user h hl fun _ => true
    simp only [List.countP_true] at hs
    rw [List.map_map, length_dayWindow]
    exact hs
  case errors   =>
    rw [List.map_map, length_dayWindow]
    exact sum_dayWindow user h hl (·.isError)

end Totals

theorem dailyChart_charts (d : Database) (now : Instant) (hl : ∀ l ∈ d.requestLogs, l.createdAt ≤ now)
    (hu : ∀ l ∈ d.requestLogs, ∀ u, l.userId = some u → ∃ r ∈ d.users, r.id = u) (days : Nat) (hd : 1 ≤ days) :
    (days ≤ now.day.ordinal → ∃ window, IsWindow now.day days window ∧
      (∀ user, ∃ chart, dailyChart d now user days = .ok chart ∧ ChartsWindow d user now.day window chart) ∧
      ∀ day ∈ window, SumsUsers d day) ∧
    (now.day.ordinal < days → ∀ user, dailyChart d now user days = .error .overflowError) := by
  refine ⟨fun h => ?_, fun h user => dailyChart_overflow d user h⟩
  refine ⟨dayWindow now.day days, ⟨length_dayWindow _ _, fun i hi => getElem_dayWindow h hi⟩, fun user => ?_, ?_⟩
  · exact ⟨_, dailyChart_eq d user hd h, chartsWindow user h hl⟩
  · exact fun day _ => sumsUsers hu day

section Example

-- A window which would start before the year 1.
theorem window_before_first_year :
    ¬∀ (d : Database) (now : Instant), (∀ l ∈ d.requestLogs, l.createdAt ≤ now) →
      (∀ l ∈ d.requestLogs, ∀ u, l.userId = some u → ∃ r ∈ d.users, r.id = u) →
      ∀ days, 1 ≤ days → ∃ window, IsWindow now.day days window ∧
        (∀ user, ∃ chart, dailyChart d now user days = .ok chart ∧ ChartsWindow d user now.day window chart) ∧
        ∀ day ∈ window, SumsUsers d day := by
  intro h
  obtain ⟨_, _, hc, _⟩ := h Database.empty (.midnight 739000) (fun l hl => (Table.not_mem_empty l hl).elim)
    (fun l hl => (Table.not_mem_empty l hl).elim) 800000 (by decide)
  obtain ⟨_, hc, _⟩ := hc none
  cases hc.symm.trans <| dailyChart_overflow Database.empty none <| by decide +kernel

-- A request of a user, and one that was refused before its user was known.
def loggedRequests : Database :=
  ((Database.empty.put <| .user loggingUser).put <| .requestLog loggedRequest).put <|
    .requestLog { loggedRequest with id := 2, userId := none, statusCode := 401 }

theorem charts_of_two_days :
    ∃ all own, dailyChart loggedRequests (.midnight 739001) none 2 = .ok all ∧
      dailyChart loggedRequests (.midnight 739001) (some 1) 2 = .ok own ∧
      (all.map (·.count)).sum = 2 ∧ (all.map (·.errors)).sum = 1 ∧ (own.map (·.count)).sum = 1 := by
  obtain ⟨h, _⟩ := dailyChart_charts loggedRequests (.midnight 739001) (by decide +kernel) (by decide +kernel) 2
    (by decide)
  obtain ⟨window, hw, hc, _⟩ := h <| by decide +kernel
  obtain ⟨all, ha, hall⟩ := hc none
  obtain ⟨own, ho, hown⟩ := hc (some 1)
  refine ⟨all, own, ha, ho, ?_, ?_, ?_⟩
  · rw [hall.count, hw.length]
    decide +kernel
  · rw [hall.errors, hw.length]
    decide +kernel
  · rw [hown.count, hw.length]
    decide +kernel

end Example
end SaasBackend
