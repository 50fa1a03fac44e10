import SaasBackend.Analytics.Monthly
import SaasBackend.Analytics.Rollup
import SaasBackend.ReadCommitted.Runs
import SaasBackend.Users.Deletion

open Calendar Grouping ReadCommitted ReadCommitted.Service

namespace SaasBackend

open Service

-- What happens to the log and its rollup.
inductive LedgerEvent
  | log (l : RequestLog)
  | deleteUser (user : Uuid)
  | rollup (targetDate : Option Day) (ids : Uuid → Uuid)

-- The database, the time of the latest event, and the days which were rolled up after they had ended.
structure Ledger where
  db     : Database
  now    : Instant
  rolled : List Day

namespace Ledger

def rolledBy (now : Instant) (targetDate : Option Day) : List Day :=
  match rollupDate now targetDate with
  | .ok date => if date < now.day then [date] else []
  | .error _ => []

def step (σ : Ledger) : Instant × LedgerEvent → Ledger
  | (now, .log l)               => ⟨((create <| .requestLog l).run σ.db).2, now, σ.rolled⟩
  | (now, .deleteUser user)     => ⟨SaasBackend.deleteUser σ.db user, now, σ.rolled⟩
  | (now, .rollup targetDate ids) =>
    ⟨((rollupDailyUsage now targetDate ids).run σ.db).2, now, rolledBy now targetDate ++ σ.rolled⟩

-- Time does not run backwards. Requests are logged at once, for a user who exists, and the rollup
-- generates fresh ids.
def IsValid (σ : Ledger) : Instant × LedgerEvent → Prop
  | (now, .log l)          => σ.now ≤ now ∧ l.createdAt = now ∧ ∃ u ∈ σ.db.users, l.userId = some u.id
  | (now, .deleteUser _)   => σ.now ≤ now
  | (now, .rollup _ ids)   => σ.now ≤ now ∧ Function.Injective ids ∧
                                ∀ r ∈ σ.db.dailyUsage, ∀ user, r.id ≠ ids user

-- The figures of the days which were rolled up are those of the log.
structure Inv (σ : Ledger) : Prop where
  unique : UniqueUsage σ.db
  past   : ∀ day ∈ σ.rolled, day < σ.now.day
  logged : ∀ user day f, usageFigures σ.db user day = some f → logsOf σ.db user day ≠ []
  exact  : ∀ day ∈ σ.rolled, ∀ user, usageFigures σ.db user day =
            if logsOf σ.db user day = [] then none else some (figures <| logsOf σ.db user day)

section Steps

variable {σ : Ledger} {d : Database} {user v : Uuid} {day : Day} {now : Instant}

theorem usageFigures_congr {d' : Database} (h : d'.dailyUsage = d.dailyUsage) (user : Uuid) (day : Day) :
    usageFigures d' user day = usageFigures d user day := by
  rw [usageFigures, usageFigures, findUsage, findUsage, h]

theorem logsOf_congr {d' : Database} (h : d'.requestLogs = d.requestLogs) (user : Uuid) (day : Day) :
    logsOf d' user day = logsOf d user day := by
  rw [logsOf, logsOf, h]

theorem Inv.start {d : Database} {now : Instant} (h : ∀ r, r ∉ d.dailyUsage) : Inv ⟨d, now, []⟩ where
  unique a ha := (h a ha).elim
  past        := by simp
  logged user day f hf := by
    have ⟨u, hu, _⟩ := Option.map_eq_some_iff.mp hf
    exact (h u (findUsage_mem hu).left).elim
  exact       := by simp

theorem create_log_rows (l : RequestLog) (d : Database) :
    ((create <| .requestLog l).run d).2.requestLogs.rows = d.requestLogs.rows ∨
    ((create <| .requestLog l).run d).2.requestLogs.rows = l :: d.requestLogs.rows := by
  cases hr : (create <| .requestLog l).run d
  case mk r d' =>
    cases r
    case error e => exact .inl <| by rw [run_create_eq_error hr]
    case ok _    =>
      have ⟨ha, hd⟩ := run_create_eq_ok hr
      exact .inr <| hd ▸ Table.rows_put_of_not_mem (accepts_new ha)

theorem create_log_dailyUsage (l : RequestLog) (d : Database) :
    ((create <| .requestLog l).run d).2.dailyUsage = d.dailyUsage :=
  (Maintains.create (I := Preserved (·.dailyUsage)) fun _ _ => by rfl).related d

theorem logsOf_create_subset (l : RequestLog) (d : Database) (user : Uuid) (day : Day) :
    logsOf d user day ⊆ logsOf ((create <| .requestLog l).run d).2 user day := by
  rw [logsOf, logsOf]
  cases create_log_rows l d
  case inl h => rw [h]; exact List.Subset.refl _
  case inr h => rw [h]; exact List.filter_subset _ <| List.subset_cons_self ..

-- A new entry of the log belongs to the current day.
theorem logsOf_create {l : RequestLog} (hd : l.createdAt.day ≠ day) (d : Database) (user : Uuid) :
    logsOf ((create <| .requestLog l).run d).2 user day = logsOf d user day := by
  rw [logsOf, logsOf]
  cases create_log_rows l d
  case inl h => rw [h]
  case inr h => rw [h]; exact List.filter_cons_of_neg <| by simp [hd]

theorem Inv.past_le (h : σ.Inv) (hn : σ.now ≤ now) : ∀ day ∈ σ.rolled, day < now.day :=
  fun day hd => Nat.lt_of_lt_of_le (h.past day hd) <| Nat.add_le_add_right (Nat.div_le_div_right hn) 1

theorem Inv.log (h : σ.Inv) {l : RequestLog} (hn : σ.now ≤ now) (hl : l.createdAt = now) :
    (σ.step (now, .log l)).Inv := by
  have hu := usageFigures_congr (create_log_dailyUsage l σ.db)
  refine ⟨?_, h.past_le hn, fun user day f hf => ?_, fun day hd user => ?_⟩
  · intro a ha b hb
    simp only [step, create_log_dailyUsage] at ha hb
    exact h.unique a ha b hb
  · have hl := h.logged user day f <| (hu user day).symm.trans hf
    exact fun he => hl <| List.subset_nil.mp <| he ▸ logsOf_create_subset l σ.db user day
  · have hne : l.createdAt.day ≠ day := by
      rw [hl]
      rintro rfl
      exact Nat.lt_irrefl _ (h.past_le hn _ hd)
    simp only [step, logsOf_create hne]
    exact (hu user day).trans <| h.exact day hd user

section Deletion

theorem figures_orphaned (ls : List RequestLog) (v : Uuid) (keys : List Uuid) :
    figures (ls.map (·.orphaned v keys)) = figures ls := by
  simp [figures, tally, avgResponseMs, List.countP_map, Function.comp_def, RequestLog.orphaned,
    RequestLog.isError]

-- The requests of the other users are still theirs.
theorem logsOf_deleteUser (d : Database) (v user : Uuid) (day : Day) :
    logsOf (SaasBackend.deleteUser d v) user day =
      if user = v then [] else (logsOf d user day).map (·.orphaned v <| keysOf d v) := by
  refine List.filter_map.trans ?_
  split
  case isTrue h =>
    refine List.map_eq_nil_iff.mpr <| List.filter_eq_nil_iff.mpr fun l _ => ?_
    by_cases hl : l.userId = some v <;> simp [RequestLog.orphaned, hl, h]
  case isFalse h =>
    refine congrArg _ <| List.filter_congr fun l _ => ?_
    by_cases hl : l.userId = some v <;> simp [RequestLog.orphaned, hl, Ne.symm h]

theorem usageFigures_deleteUser (d : Database) (v user : Uuid) (day : Day) :
    usageFigures (SaasBackend.deleteUser d v) user day =
      if user = v then none else usageFigures d user day := by
  have hf : findUsage (SaasBackend.deleteUser d v) user day =
      if user = v then none else findUsage d user day := by
    refine List.find?_filter.trans ?_
    split
    case isTrue h   =>
      refine List.find?_eq_none.mpr fun r _ => ?_
      by_cases hr : r.userId = v <;> simp [hr, h]
    case isFalse h  =>
      refine congrArg (List.find? · d.dailyUsage.rows) <| funext fun r => ?_
      by_cases hr : r.userId = user <;> simp [hr, h]
  rw [usageFigures, usageFigures, hf]
  split <;> rfl

end Deletion

theorem Inv.deleteUser (h : σ.Inv) (hn : σ.now ≤ now) (v : Uuid) :
    (σ.step (now, .deleteUser v)).Inv := by
  refine ⟨fun a ha b hb => ?_, h.past_le hn, fun user day f hf => ?_, fun day hd user => ?_⟩
  · exact h.unique a (Table.mem_filter.mp ha).left b (Table.mem_filter.mp hb).left
  · simp only [step, usageFigures_deleteUser] at hf
    simp only [step, logsOf_deleteUser]
    split at hf
    case isTrue     => cases hf
    case isFalse hu =>
      rw [if_neg hu]
      exact List.map_eq_nil_iff.not.mpr <| h.logged user day f hf
  · simp only [step, usageFigures_deleteUser, logsOf_deleteUser]
    split
    case isTrue     => rfl
    case isFalse    =>
      simp only [List.map_eq_nil_iff, figures_orphaned]
      exact h.exact day hd user

theorem Inv.rollup (h : σ.Inv) (hn : σ.now ≤ now) {ids : Uuid → Uuid} (hi : Function.Injective ids)
    (hf : ∀ r ∈ σ.db.dailyUsage, ∀ user, r.id ≠ ids user) (targetDate : Option Day) :
    (σ.step (now, .rollup targetDate ids)).Inv := by
  cases ht : rollupDate now targetDate
  case error e =>
    have hs : σ.step (now, .rollup targetDate ids) = ⟨σ.db, now, σ.rolled⟩ := by
      simp only [step, rolledBy, rollupDailyUsage_run_error ht, ht]
      rfl
    rw [hs]
    exact ⟨h.unique, h.past_le hn, h.logged, h.exact⟩
  case ok date =>
    have ⟨d', hr, hd⟩ := rollupDailyUsage_run ht hi h.unique hf
    have hs : σ.step (now, .rollup targetDate ids) =
        ⟨d', now, (if date < now.day then [date] else []) ++ σ.rolled⟩ := by
      simp only [step, rolledBy, hr, ht]
    have hl := logsOf_congr hd.requestLogs
    have he : ∀ user, usageFigures d' user date = if logsOf σ.db user date = [] then none
        else some (figures <| logsOf σ.db user date) := by
      intro user
      rw [hd.figures, if_pos rfl, lookup_figuresByUser]
      split
      case isFalse    => rfl
      case isTrue he  =>
        cases hu : usageFigures σ.db user date
        case none   => rfl
        case some f => exact (h.logged user date f hu he).elim
    have hm : ∀ day ∈ (if date < now.day then [date] else []) ++ σ.rolled,
        day = date ∧ date < now.day ∨ day ∈ σ.rolled := by
      intro day hday
      refine (List.mem_append.mp hday).imp_left fun hday => ?_
      split at hday
      case isTrue hlt => exact ⟨List.mem_singleton.mp hday, hlt⟩
      case isFalse    => cases hday
    rw [hs]
    refine ⟨hd.unique, fun day hday => ?_, fun user day f hu => ?_, fun day hday user => ?_⟩
    · cases hm day hday
      case inl hday => exact hday.left ▸ hday.right
      case inr hday => exact h.past_le hn day hday
    · rw [hl]
      by_cases hday : day = date
      case pos =>
        intro hn
        rw [hday] at hu hn
        rw [he, if_pos hn] at hu
        cases hu
      case neg =>
        rw [hd.figures, if_neg hday] at hu
        exact h.logged user day f hu
    · rw [hl]
      by_cases hd' : day = date
      case pos => rw [hd', he]
      case neg =>
        rw [hd.figures, if_neg hd']
        exact h.exact day ((hm day hday).resolve_left fun h => hd' h.left) user

theorem Inv.step (h : σ.Inv) (e : Instant × LedgerEvent) (he : σ.IsValid e) : (σ.step e).Inv := by
  obtain ⟨now, e⟩ := e
  cases e
  case log l          => exact h.log he.left he.right.left
  case deleteUser v   => exact h.deleteUser he v
  case rollup t ids   => exact h.rollup he.left he.right.left he.right.right t

-- What a history leads to that starts with an empty log.
def Reachable (σ : Ledger) : Prop :=
  ∃ d now es, (∀ l, l ∉ d.requestLogs) ∧ (∀ r, r ∉ d.dailyUsage) ∧
    Throughout Ledger.step IsValid ⟨d, now, []⟩ es ∧ σ = es.foldl Ledger.step ⟨d, now, []⟩

theorem Reachable.inv (h : σ.Reachable) : σ.Inv := by
  obtain ⟨d, now, es, _, hr, hv, rfl⟩ := h
  exact hv.induction (Inv.start hr) fun _ e he hi => hi.step e he

end Steps
end Ledger
end SaasBackend
