import SaasBackend.Analytics.Ledger
import SaasBackend.Common.Fields

open Calendar Grouping ReadCommitted ReadCommitted.Service

namespace SaasBackend

open Service

def logsInScope (d : Database) (user : Option Uuid) (day : Day) : List RequestLog :=
  scope (·.userId) user <| d.requestLogs.rows.filter fun l => l.createdAt.day = day

section DailyChart

variable {d : Database} {now : Instant} {user : Option Uuid} {days : Nat} {chart : List DailyPoint}
  {p : DailyPoint} {day : Day}

theorem mem_of_mapM {α β X : Type} {f : α → Except X β} {as : List α} {bs : List β} {b : β}
    (h : as.mapM f = .ok bs) (hb : b ∈ bs) : ∃ a ∈ as, f a = .ok b := by
  induction as generalizing bs
  case nil =>
    rw [List.mapM_nil] at h
    cases h
    cases hb
  case cons a as hi =>
    rw [List.mapM_cons] at h
    have ⟨c, ha, h⟩ := except_bind_eq_ok.mp h
    have ⟨cs, has, h⟩ := except_bind_eq_ok.mp h
    cases h
    cases hb
    case head     => exact ⟨a, List.mem_cons_self, ha⟩
    case tail hb  =>
      have ⟨a', ha', hf⟩ := hi has hb
      exact ⟨a', List.mem_cons_of_mem _ ha', hf⟩

-- The tallies of the days from `start` on, where those without requests are missing.
theorem lookup_tallyByDay {start : Day} (d : Database) (user : Option Uuid) (hle : start ≤ day) :
    ((tallyByDay <| scope (·.userId) user <| d.requestLogs.rows.filter fun l => start ≤ l.createdAt.day).lookup
      day).getD ⟨0, 0⟩ = tally (logsInScope d user day) := by
  have hl : (scope (·.userId) user <| d.requestLogs.rows.filter fun l => start ≤ l.createdAt.day).filter
      (·.createdAt.day = day) = logsInScope d user day := by
    rw [←scope_filter, List.filter_filter, logsInScope]
    refine congrArg _ <| List.filter_congr fun l _ => ?_
    by_cases h : l.createdAt.day = day <;> simp [h, hle]
  have ht := lookup_groupBy (·.createdAt.day) (scope (·.userId) user <|
    d.requestLogs.rows.filter fun l => start ≤ l.createdAt.day) tally day
  rw [hl] at ht
  exact ht

-- What the daily chart reports for a day in its window.
theorem dailyChart_point (h : dailyChart d now user days = .ok chart) (hp : p ∈ chart)
    (hd : p.date = day.isoformat) :
    p.count = (logsInScope d user day).length ∧
    p.errors = (logsInScope d user day).countP (·.isError) := by
  have ⟨start, hs, h⟩ := except_bind_eq_ok.mp h
  have ⟨i, _, hi⟩ := mem_of_mapM h hp
  have ⟨day', hday, hi⟩ := except_bind_eq_ok.mp hi
  cases hi
  obtain rfl : day' = day := Day.isoformat_injective hd
  have hle : start ≤ day' := by
    have he := Day.addDays_eq_some.mp <| orOverflow_eq_ok.mp hday
    change start.ordinal ≤ day'.ordinal
    omega
  have ht := lookup_tallyByDay d user hle
  exact ⟨congrArg Tally.count ht, congrArg Tally.errors ht⟩

end DailyChart

section MonthlyChart

variable {σ : Ledger} {d : Database} {now : Instant} {user : Option Uuid} {months : Nat} {day first : Day}

def usageOfDay (d : Database) (user : Option Uuid) (day : Day) : List DailyUsage :=
  (usageInScope d user).filter (·.date = day)

theorem monthlyRows_filter {rows : List DailyUsage} (hm : monthlyRows d now user months = .ok rows)
    (hf : drifted now.day months = some first) (hd : first.startOfMonth ≤ day) :
    rows.filter (·.date = day) = usageOfDay d user day := by
  cases hm.symm.trans <| monthlyRows_eq user hf
  rw [List.filter_filter, usageOfDay]
  refine List.filter_congr fun r _ => ?_
  by_cases h : r.date = day
  case neg => simp [h]
  case pos => simp [h, Day.startOfMonth_le.mp hd]

theorem mem_usageOfDay {r : DailyUsage} : r ∈ usageOfDay d user day ↔
    r ∈ d.dailyUsage ∧ (∀ u, user = some u → r.userId = u) ∧ r.date = day := by
  rw [usageOfDay, List.mem_filter, usageInScope, mem_scope, Table.mem_rows, decide_eq_true_eq, and_assoc]
  simp only [Option.some.injEq]

theorem usageOfDay_nodup (h : UniqueUsage d) : ((usageOfDay d user day).map (·.userId)).Nodup := by
  have hn : (usageOfDay d user day).Nodup := by
    have hr : d.dailyUsage.rows.Nodup := d.dailyUsage.distinct.imp <| by rintro a b hk rfl; exact hk rfl
    refine List.Nodup.filter _ ?_
    rw [usageInScope]
    cases user
    case none   => exact hr
    case some u => exact hr.filter _
  refine hn.map_on fun a ha b hb he => ?_
  obtain ⟨ha, _, hda⟩ := mem_usageOfDay.mp ha
  obtain ⟨hb, _, hdb⟩ := mem_usageOfDay.mp hb
  exact h a ha b hb he <| hda.trans hdb.symm

theorem mem_logsInScope {l : RequestLog} : l ∈ logsInScope d user day ↔
    l ∈ d.requestLogs ∧ l.createdAt.day = day ∧ ∀ u, user = some u → l.userId = some u := by
  rw [logsInScope, mem_scope, List.mem_filter, Table.mem_rows, decide_eq_true_eq, and_assoc]

theorem logsInScope_filter {r : DailyUsage} (hr : r ∈ usageOfDay d user day) :
    (logsInScope d user day).filter (·.userId = some r.userId) = logsOf d r.userId day := by
  have ⟨_, hu, _⟩ := mem_usageOfDay.mp hr
  rw [logsInScope, logsOf_eq]
  cases user
  case none   => rfl
  case some u =>
    rw [hu u rfl, scope, List.filter_filter]
    simp

-- The figures of a day which has been rolled up are those of the requests that still have a user.
theorem usageOfDay_figures (h : σ.Inv) (hd : day ∈ σ.rolled) {r : DailyUsage}
    (hr : r ∈ usageOfDay σ.db user day) : r.figures = figures (logsOf σ.db r.userId day) := by
  have ⟨hm, _, hday⟩ := mem_usageOfDay.mp hr
  have hf : usageFigures σ.db r.userId day = some r.figures :=
    congrArg (Option.map _) <| (findUsage_eq_some h.unique).mpr ⟨hm, rfl, hday⟩
  have he := h.exact day hd r.userId
  rw [hf] at he
  split at he
  case isTrue   => cases he
  case isFalse  => exact Option.some.inj he

theorem usageOfDay_sum (h : σ.Inv) (hd : day ∈ σ.rolled) (p : RequestLog → Bool) (g : DailyUsage → Nat)
    (hg : ∀ r ∈ usageOfDay σ.db user day, g r = (logsOf σ.db r.userId day).countP p) :
    ((usageOfDay σ.db user day).map g).sum =
      (logsInScope σ.db user day).countP fun l => p l && l.userId.isSome := by
  have hs : (usageOfDay σ.db user day).map g = ((usageOfDay σ.db user day).map (·.userId)).map
      fun k => ((logsInScope σ.db user day).filter (·.userId = some k)).countP p := by
    rw [List.map_map]
    refine List.map_congr_left fun r hr => (hg r hr).trans ?_
    rw [←logsInScope_filter hr]
    rfl
  rw [hs]
  refine sum_countP_owners _ p (usageOfDay_nodup h.unique) fun l hl k hk => ?_
  have ⟨hm, hday, hu⟩ := mem_logsInScope.mp hl
  have hn : logsOf σ.db k day ≠ [] := List.ne_nil_of_mem <| mem_logsOf.mpr ⟨hm, hday, hk⟩
  have he := h.exact day hd k
  rw [if_neg hn] at he
  have ⟨r, hr, _⟩ := Option.map_eq_some_iff.mp he
  have ⟨hr, hu', hday⟩ := findUsage_mem hr
  refine List.mem_map.mpr ⟨r, mem_usageOfDay.mpr ⟨hr, fun u h => ?_, hday⟩, hu'⟩
  exact hu'.trans <| Option.some.inj <| hk.symm.trans <| hu u h

end MonthlyChart

-- The figures that both charts have for a day.
structure Agree (p : DailyPoint) (rows : List DailyUsage) (day : Day) : Prop where
  count  : p.count = ((rows.filter (·.date = day)).map (·.requestCount)).sum
  errors : p.errors = ((rows.filter (·.date = day)).map (·.errorCount)).sum

theorem agree_iff {σ : Ledger} (hi : σ.Inv) {day : Day} (hd : day ∈ σ.rolled) {now : Instant}
    {user : Option Uuid} {days months : Nat} {chart : List DailyPoint} {rows : List DailyUsage}
    {p : DailyPoint} {first : Day} (hc : dailyChart σ.db now user days = .ok chart) (hp : p ∈ chart)
    (hday : p.date = day.isoformat) (hm : monthlyRows σ.db now user months = .ok rows)
    (hf : drifted now.day months = some first) (hw : first.startOfMonth ≤ day) :
    Agree p rows day ↔ ∀ l ∈ logsInScope σ.db user day, l.userId.isSome := by
  have ⟨hn, he⟩ := dailyChart_point hc hp hday
  have hg : ∀ r ∈ usageOfDay σ.db user day,
      r.requestCount = (logsOf σ.db r.userId day).countP (fun _ => true) ∧
      r.errorCount = (logsOf σ.db r.userId day).countP (·.isError) := by
    intro r hr
    have hf := usageOfDay_figures hi hd hr
    rw [List.countP_true]
    exact ⟨congrArg DayFigures.requestCount hf, congrArg DayFigures.errorCount hf⟩
  have h₁ := usageOfDay_sum hi hd (fun _ => true) (·.requestCount) fun r hr => (hg r hr).left
  have h₂ := usageOfDay_sum hi hd (·.isError) (·.errorCount) fun r hr => (hg r hr).right
  rw [←monthlyRows_filter hm hf hw] at h₁ h₂
  constructor
  case mp =>
    intro h
    have hl := h₁.symm.trans <| h.count.symm.trans hn
    simpa using List.countP_eq_length.mp hl
  case mpr =>
    intro h
    refine ⟨hn.trans <| Eq.trans ?_ h₁.symm, he.trans <| Eq.trans ?_ h₂.symm⟩
    · exact (List.countP_eq_length.mpr <| by simpa using h).symm
    · exact List.countP_congr fun l hl => by simp [h l hl]

-- The charts agree about a day unless they are those of all users, and a user with a request on that
-- day has been deleted.
theorem charts_agree_iff (σ : Ledger) (hσ : σ.Reachable) (day : Day) (hd : day ∈ σ.rolled)
    (now : Instant) (user : Option Uuid) (days months : Nat) (chart : List DailyPoint)
    (rows : List DailyUsage) (p : DailyPoint) (first : Day)
    (hc : dailyChart σ.db now user days = .ok chart) (hp : p ∈ chart) (hday : p.date = day.isoformat)
    (hm : monthlyRows σ.db now user months = .ok rows) (hf : drifted now.day months = some first)
    (hw : first.startOfMonth ≤ day) :
    Agree p rows day ↔
      user ≠ none ∨ ∀ l ∈ σ.db.requestLogs, l.createdAt.day = day → l.userId ≠ none := by
  rw [agree_iff hσ.inv hd hc hp hday hm hf hw]
  constructor
  case mp =>
    intro h
    cases user
    case none   =>
      exact .inr fun l hl hday => Option.isSome_iff_ne_none.mp <| h l <| mem_logsInScope.mpr ⟨hl, hday, nofun⟩
    case some u => exact .inl <| by simp
  case mpr =>
    intro h l hl
    have ⟨hl, hday, hu⟩ := mem_logsInScope.mp hl
    refine Option.isSome_iff_ne_none.mpr ?_
    cases h
    case inr h => exact h l hl hday
    case inl h =>
      have ⟨u, hs⟩ := Option.ne_none_iff_exists'.mp h
      rw [hu u hs]
      exact Option.some_ne_none u

section Example

def loggingUser : User :=
  ⟨1, "a@example.com", ⟨"secret"⟩, "", "", .customer, true, true, none, none⟩

def loggedRequest : RequestLog :=
  ⟨1, some 1, none, "GET", "/api/v1/users/me/", 200, 0, none, "", .midnight 739000⟩

-- A request on April 25th 2024, and the rollup on the next day.
def rolledUp : List (Instant × LedgerEvent) :=
  [(.midnight 739000, .log loggedRequest), (.midnight 739001, .rollup none id)]

def ledgerOf (es : List (Instant × LedgerEvent)) : Ledger :=
  es.foldl Ledger.step ⟨Database.empty.put <| .user loggingUser, .midnight 739000, []⟩

theorem rolledUp_valid :
    Throughout Ledger.step Ledger.IsValid
      ⟨Database.empty.put <| .user loggingUser, .midnight 739000, []⟩ rolledUp := by
  refine ⟨⟨le_refl _, rfl, loggingUser, Table.mem_put_self .., rfl⟩, ⟨by decide, ?_, ?_⟩, trivial⟩
  · exact fun _ _ => id
  · intro r hr
    simp only [Ledger.step, Ledger.create_log_dailyUsage] at hr
    exact (Table.not_mem_empty r hr).elim

theorem eq_ok_of_toOption {α X : Type} {x : Except X α} {a : α} (h : x.toOption = some a) :
    x = .ok a := by
  cases x
  case error  => cases h
  case ok b   => rw [Option.some.inj h]

theorem charts_agree_after_rollup :
    ∃ chart rows, dailyChart (ledgerOf rolledUp).db (.midnight 739001) none 2 = .ok chart ∧
      monthlyRows (ledgerOf rolledUp).db (.midnight 739001) none 1 = .ok rows ∧
      ∃ p ∈ chart, p.date = "2024-04-25" ∧ Agree p rows ⟨739001, by decide⟩ := by
  have hσ : (ledgerOf rolledUp).Reachable :=
    ⟨_, _, rolledUp, Table.not_mem_empty, Table.not_mem_empty, rolledUp_valid, rfl⟩
  have hd : (⟨739001, by decide⟩ : Day) ∈ (ledgerOf rolledUp).rolled := by decide +kernel
  have hc : dailyChart (ledgerOf rolledUp).db (.midnight 739001) none 2 =
      .ok [⟨"2024-04-25", 1, 0⟩, ⟨"2024-04-26", 0, 0⟩] := eq_ok_of_toOption (by decide +kernel)
  have hm : monthlyRows (ledgerOf rolledUp).db (.midnight 739001) none 1 =
      .ok [⟨1, 1, ⟨739001, by decide⟩, 1, 0, 0⟩] := eq_ok_of_toOption (by decide +kernel)
  have hf : drifted (Instant.midnight 739001).day 1 = some ⟨738977, by decide⟩ := by decide +kernel
  refine ⟨_, _, hc, hm, _, List.mem_cons_self, rfl, ?_⟩
  refine (charts_agree_iff _ hσ _ hd _ none 2 1 _ _ _ _ hc List.mem_cons_self (by decide +kernel) hm hf
    (by decide +kernel)).mpr (.inr ?_)
  decide +kernel

-- Afterwards the user is deleted, and the chart of the rollup loses the request.
theorem charts_disagree_after_deletion :
    ∃ es day chart rows, (ledgerOf es).Reachable ∧ day ∈ (ledgerOf es).rolled ∧
      dailyChart (ledgerOf es).db (.midnight 739001) none 2 = .ok chart ∧
      monthlyRows (ledgerOf es).db (.midnight 739001) none 1 = .ok rows ∧
      ∃ p ∈ chart, p.date = day.isoformat ∧ ¬Agree p rows day := by
  let es := rolledUp ++ [(.midnight 739001, .deleteUser 1)]
  have hv : Throughout Ledger.step Ledger.IsValid
      ⟨Database.empty.put <| .user loggingUser, .midnight 739000, []⟩ es := by
    have ⟨h₁, h₂, _⟩ := rolledUp_valid
    exact ⟨h₁, h₂, le_refl _, trivial⟩
  refine ⟨es, ⟨739001, by decide⟩, [⟨"2024-04-25", 1, 0⟩, ⟨"2024-04-26", 0, 0⟩], [], ?_, ?_, ?_, ?_, ?_⟩
  · exact ⟨_, _, es, Table.not_mem_empty, Table.not_mem_empty, hv, rfl⟩
  · decide +kernel
  · exact eq_ok_of_toOption (by decide +kernel)
  · exact eq_ok_of_toOption (by decide +kernel)
  · exact ⟨_, List.mem_cons_self, by decide +kernel, fun h => absurd h.count (by decide)⟩

end Example
end SaasBackend
