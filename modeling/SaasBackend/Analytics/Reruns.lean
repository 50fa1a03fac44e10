import SaasBackend.Analytics.Rollup
import SaasBackend.ReadCommitted.Runs

open Calendar Grouping ReadCommitted ReadCommitted.Service

namespace SaasBackend

open Service

-- The ids that are generated for new rows are distinct, and not in use yet.
structure FreshIds (ids : Uuid → Uuid) (d : Database) : Prop where
  injective : Function.Injective ids
  unused    : ∀ r ∈ d.dailyUsage, ∀ user, r.id ≠ ids user

-- The row of a user with requests on a day, as the rollup leaves it.
def rolledUsage (d : Database) (ids : Uuid → Uuid) (date : Day) (user : Uuid) : DailyUsage :=
  (figures <| logsOf d user date).assign <| startingUsage d (ids user) user date

-- The rollup of a day writes the rows of the users with requests on that day, and nothing else.
structure WritesUsage (date : Day) (ids : Uuid → Uuid) (d d' : Database) : Prop where
  rows   : ∀ r, r ∈ d'.dailyUsage ↔
            r ∈ d.dailyUsage ∧ (r.date = date → logsOf d r.userId date = []) ∨
            ∃ user, logsOf d user date ≠ [] ∧ r = rolledUsage d ids date user
  others : d' = { d with dailyUsage := d'.dailyUsage }

section Rollup

variable {d d' : Database} {ids : Uuid → Uuid} {date day : Day} {now : Instant} {targetDate : Option Day}

-- One user after the other, where the figures are those of a result set.
theorem rollupUsers_rows (date : Day) (hi : Function.Injective ids) {rows : List (Uuid × DayFigures)}
    (hd : (rows.map (·.1)).Nodup) (h : UniqueUsage d)
    (hn : ∀ r ∈ d.dailyUsage, ∀ user ∈ rows.map (·.1), r.id ≠ ids user) (count : Nat) :
    (∀ r, r ∈ ((rollupUsers date ids rows count).run d).2.dailyUsage ↔
      r ∈ d.dailyUsage ∧ (r.date = date → rows.lookup r.userId = none) ∨
      ∃ user f, rows.lookup user = some f ∧ r = f.assign (startingUsage d (ids user) user date)) ∧
    ((rollupUsers date ids rows count).run d).2 =
      { d with dailyUsage := ((rollupUsers date ids rows count).run d).2.dailyUsage } := by
  induction rows generalizing d count
  case nil            => exact ⟨fun r => by simp [rollupUsers], rfl⟩
  case cons b rows hr =>
    obtain ⟨user, f⟩ := b
    obtain ⟨hu, hd⟩ := List.nodup_cons.mp hd
    have hf : ∀ r ∈ d.dailyUsage, r.id ≠ ids user := fun r hr => hn r hr user List.mem_cons_self
    have h₁ := updates_put user date f h hf
    have hn₁ : ∀ r ∈ (d.put <| .dailyUsage <| f.assign <| startingUsage d (ids user) user date).dailyUsage,
        ∀ v ∈ rows.map (·.1), r.id ≠ ids v := by
      intro r hr v hv
      rcases h₁.ids r hr with he | ⟨r₀, hr₀, he⟩
      · exact he ▸ fun hk => hu <| hi hk ▸ hv
      · exact he ▸ hn r₀ hr₀ v (List.mem_cons_of_mem _ hv)
    have hl : rows.lookup user = none := by
      refine List.lookup_eq_none_iff.mpr fun b hb => bne_iff_ne.mpr fun he => hu ?_
      exact List.mem_map.mpr ⟨b, hb, he.symm⟩
    have hc : ∀ v, v ≠ user → ((user, f) :: rows).lookup v = rows.lookup v :=
      fun v hv => by simp [List.lookup_cons, beq_eq_false_iff_ne.mpr hv]
    have hc₀ : ((user, f) :: rows).lookup user = some f := by simp
    have hs : ∀ v, v ≠ user → startingUsage (d.put <| .dailyUsage <| f.assign <| startingUsage d (ids user) user date)
        (ids v) v date = startingUsage d (ids v) v date :=
      fun v hv => startingUsage_congr (findUsage_put h hf fun he => hv he.left) _
    have hrun : (updateOrCreateUsage (ids user) user date f).run d = _ := updateOrCreateUsage_run hf
    obtain ⟨hm, ho⟩ := hr hd h₁.unique hn₁ (count + 1)
    rw [rollupUsers, run_bind_of_ok hrun]
    refine ⟨fun r => ?_, ho⟩
    rw [hm, mem_put_startingUsage h hf]
    constructor
    case mp   =>
      rintro (⟨he | ⟨hr, hne⟩, hnone⟩ | ⟨v, g, hv, he⟩)
      · exact .inr ⟨user, f, hc₀, he⟩
      · exact .inl ⟨hr, fun hday => (hc r.userId fun he => hne ⟨he, hday⟩).trans <| hnone hday⟩
      · have hv' : v ≠ user := by
          rintro rfl
          cases hl.symm.trans hv
        exact .inr ⟨v, g, (hc v hv').trans hv, hs v hv' ▸ he⟩
    case mpr  =>
      rintro (⟨hr, hnone⟩ | ⟨v, g, hv, he⟩)
      · have hne : r.date = date → r.userId ≠ user := by
          intro hday he
          cases (he ▸ hnone hday).symm.trans hc₀
        exact .inl ⟨.inr ⟨hr, fun he => hne he.right he.left⟩,
          fun hday => (hc r.userId <| hne hday).symm.trans <| hnone hday⟩
      · by_cases hv' : v = user
        case neg => exact .inr ⟨v, g, (hc v hv').symm.trans hv, (hs v hv').symm ▸ he⟩
        case pos =>
          subst hv'
          cases hc₀.symm.trans hv
          have hru : r.userId = v := (congrArg DailyUsage.userId he).trans (startingUsage_spec v date h hf).left
          exact .inl ⟨.inl he, fun _ => hru ▸ hl⟩

theorem rollupDailyUsage_run_eq (ht : rollupDate now targetDate = .ok date) (ids : Uuid → Uuid) (d : Database) :
    (rollupDailyUsage now targetDate ids).run d = (rollupUsers date ids (figuresByUser d date) 0).run d := by
  rw [rollupDailyUsage, run_bind_of_ok <| run_ofExcept_eq_ok.mpr ⟨ht, rfl⟩, run_bind_of_ok (run_select ..)]

theorem rollupDailyUsage_writes (ht : rollupDate now targetDate = .ok date) (hf : FreshIds ids d)
    (h : UniqueUsage d) : WritesUsage date ids d ((rollupDailyUsage now targetDate ids).run d).2 := by
  obtain ⟨hm, ho⟩ := rollupUsers_rows date hf.injective (figuresByUser_nodup d date) h
    (fun r hr user _ => hf.unused r hr user) 0
  rw [rollupDailyUsage_run_eq ht]
  refine ⟨fun r => (hm r).trans ?_, ho⟩
  simp only [lookup_figuresByUser, rolledUsage]
  refine or_congr ?_ <| exists_congr fun user => ?_
  · simp
  · constructor
    case mp   =>
      rintro ⟨f, hl, he⟩
      split at hl
      case isTrue     => cases hl
      case isFalse hn =>
        cases hl
        exact ⟨hn, he⟩
    case mpr  =>
      rintro ⟨hn, he⟩
      exact ⟨_, if_neg hn, he⟩

end Rollup

-- The users with a request on a day.
def usersOf (d : Database) (date : Day) : Finset Uuid :=
  ((d.requestLogs.rows.filter fun l => l.createdAt.day = date).filterMap (·.userId)).toFinset

section Users

variable {d : Database} {date : Day} {user : Uuid}

theorem mem_usersOf : user ∈ usersOf d date ↔ logsOf d user date ≠ [] := by
  simp only [usersOf, logsOf, List.mem_toFinset, List.mem_filterMap, List.mem_filter, decide_eq_true_eq,
    ne_eq, List.filter_eq_nil_iff]
  push Not
  constructor
  case mp   =>
    rintro ⟨l, hl, hu⟩
    exact ⟨l, hl.left, hl.right, hu⟩
  case mpr  =>
    rintro ⟨l, hl, hd, hu⟩
    exact ⟨l, ⟨hl, hd⟩, hu⟩

theorem length_figuresByUser (d : Database) (date : Day) : (figuresByUser d date).length = (usersOf d date).card := by
  rw [←List.length_map (·.1), ←List.toFinset_card_of_nodup (figuresByUser_nodup d date)]
  congr 1
  ext user
  simp only [mem_usersOf, List.mem_toFinset, List.mem_map, Prod.exists, exists_and_right, exists_eq_right]
  exact ⟨fun ⟨f, hf⟩ => (mem_figuresByUser.mp hf).left, fun hn => ⟨_, mem_figuresByUser.mpr ⟨hn, rfl⟩⟩⟩

end Users

namespace WritesUsage

variable {d d' d₁ d₂ : Database} {ids ids' : Uuid → Uuid} {date date' : Day} {user : Uuid} {r : DailyUsage}

theorem rolledUsage_spec (h : UniqueUsage d) (hf : FreshIds ids d) (date : Day) (user : Uuid) :
    (rolledUsage d ids date user).userId = user ∧ (rolledUsage d ids date user).date = date ∧
    (rolledUsage d ids date user).figures = figures (logsOf d user date) := by
  obtain ⟨hu, hd, _⟩ := startingUsage_spec user date h (hf.unused · · user)
  exact ⟨hu, hd, rfl⟩

theorem logsOf_eq (h : WritesUsage date ids d d') (user : Uuid) (day : Day) :
    logsOf d' user day = logsOf d user day := by
  rw [h.others, logsOf, logsOf]

theorem unique (h : WritesUsage date ids d d') (hu : UniqueUsage d) (hf : FreshIds ids d) : UniqueUsage d' := by
  have hs := rolledUsage_spec hu hf date
  intro a ha b hb h₁ h₂
  rcases (h.rows a).mp ha with ⟨ha, hna⟩ | ⟨u, hua, ha⟩ <;> rcases (h.rows b).mp hb with ⟨hb, hnb⟩ | ⟨v, hvb, hb⟩
  · exact hu a ha b hb h₁ h₂
  · rw [hb, (hs v).left] at h₁
    rw [hb, (hs v).right.left] at h₂
    exact (hvb <| h₁ ▸ hna h₂).elim
  · rw [ha, (hs u).left] at h₁
    rw [ha, (hs u).right.left] at h₂
    exact (hua <| h₁ ▸ hnb h₂.symm).elim
  · rw [ha, hb, (hs u).left, (hs v).left] at h₁
    rw [ha, hb, h₁]

-- The row of a user with requests on that day.
theorem mem_rolledUsage (h : WritesUsage date ids d d') (hn : logsOf d user date ≠ []) :
    rolledUsage d ids date user ∈ d'.dailyUsage :=
  (h.rows _).mpr <| .inr ⟨user, hn, rfl⟩

theorem findUsage_of_ne (h : WritesUsage date ids d d') (hu : UniqueUsage d) (hf : FreshIds ids d)
    (hd : date' ≠ date) : findUsage d' user date' = findUsage d user date' := by
  refine findUsage_congr hu (h.unique hu hf) fun r _ hr => (h.rows r).trans ?_
  constructor
  case mp   =>
    rintro (⟨hr, _⟩ | ⟨v, _, he⟩)
    · exact hr
    · exact (hd <| hr.symm.trans <| he ▸ (rolledUsage_spec hu hf date v).right.left).elim
  case mpr  => exact fun hm => .inl ⟨hm, fun hday => (hd <| hr.symm.trans hday).elim⟩

-- What has been rolled up is not changed by doing so once more.
theorem again (h₁ : WritesUsage date ids d d₁) (hu : UniqueUsage d) (hf : FreshIds ids d)
    (h₂ : WritesUsage date ids' d₁ d₂) : ∀ r, r ∈ d₂.dailyUsage ↔ r ∈ d₁.dailyUsage := by
  have hw : ∀ user, logsOf d user date ≠ [] → rolledUsage d₁ ids' date user = rolledUsage d ids date user := by
    intro user hn
    obtain ⟨hs₁, hs₂, _⟩ := rolledUsage_spec hu hf date user
    have hfind : findUsage d₁ user date = some (rolledUsage d ids date user) :=
      (findUsage_eq_some <| h₁.unique hu hf).mpr ⟨h₁.mem_rolledUsage hn, hs₁, hs₂⟩
    rw [rolledUsage, startingUsage, hfind, h₁.logsOf_eq]
    rfl
  intro r
  rw [h₂.rows]
  simp only [h₁.logsOf_eq]
  constructor
  case mp   =>
    rintro (⟨hr, _⟩ | ⟨user, hn, he⟩)
    · exact hr
    · exact he ▸ hw user hn ▸ h₁.mem_rolledUsage hn
  case mpr  =>
    intro hr
    rcases (h₁.rows r).mp hr with ⟨_, hn⟩ | ⟨user, hn, he⟩
    · exact .inl ⟨hr, hn⟩
    · exact .inr ⟨user, hn, he.trans (hw user hn).symm⟩

-- The rows after the rollups of two days.
theorem rows_twice (h₁ : WritesUsage date ids d d₁) (hu : UniqueUsage d) (hf : FreshIds ids d)
    (hd : date' ≠ date) (h₂ : WritesUsage date' ids' d₁ d₂) (r : DailyUsage) :
    r ∈ d₂.dailyUsage ↔
      r ∈ d.dailyUsage ∧ (r.date = date → logsOf d r.userId date = []) ∧ (r.date = date' → logsOf d r.userId date' = []) ∨
      (∃ user, logsOf d user date ≠ [] ∧ r = rolledUsage d ids date user) ∨
      ∃ user, logsOf d user date' ≠ [] ∧ r = rolledUsage d ids' date' user := by
  have hw : ∀ user, rolledUsage d₁ ids' date' user = rolledUsage d ids' date' user := by
    intro user
    rw [rolledUsage, rolledUsage, h₁.logsOf_eq, startingUsage_congr (h₁.findUsage_of_ne hu hf hd)]
  rw [h₂.rows, h₁.rows]
  simp only [h₁.logsOf_eq, hw]
  rw [←or_assoc]
  refine or_congr_left ?_
  constructor
  case mp   =>
    rintro ⟨⟨hr, hn⟩ | hr, hn'⟩
    · exact .inl ⟨hr, hn, hn'⟩
    · exact .inr hr
  case mpr  =>
    rintro (⟨hr, hn, hn'⟩ | ⟨user, hn, he⟩)
    · exact ⟨.inl ⟨hr, hn⟩, hn'⟩
    · refine ⟨.inr ⟨user, hn, he⟩, fun hday => ?_⟩
      exact (hd <| hday.symm.trans <| he ▸ (rolledUsage_spec hu hf date user).right.left).elim

theorem freshIds (h : WritesUsage date ids d d') (hf : FreshIds ids' d) (hd : ∀ u v, ids u ≠ ids' v) :
    FreshIds ids' d' where
  injective := hf.injective
  unused    := by
    intro r hr user
    rcases (h.rows r).mp hr with ⟨hr, _⟩ | ⟨v, _, he⟩
    · exact hf.unused r hr user
    · have hi : r.id = (startingUsage d (ids v) v date).id := by
        rw [he]
        rfl
      rw [hi]
      have hs : (startingUsage d (ids v) v date).id = ids v ∨ _ := startingUsage_id
      rcases hs with hi | ⟨r₀, hr₀, hi⟩
      · rw [hi]
        exact hd v user
      · rw [hi]
        exact hf.unused r₀ hr₀ user

theorem usersOf_eq (h : WritesUsage date ids d d') (day : Day) : usersOf d' day = usersOf d day := by
  rw [h.others, usersOf, usersOf]

end WritesUsage

theorem rollupDailyUsage_run_writes {d : Database} {ids : Uuid → Uuid} {date : Day} {now : Instant}
    {targetDate : Option Day} (ht : rollupDate now targetDate = .ok date) (hf : FreshIds ids d)
    (h : UniqueUsage d) :
    ∃ d', (rollupDailyUsage now targetDate ids).run d = (.ok (usersOf d date).card, d') ∧
      WritesUsage date ids d d' := by
  obtain ⟨d', hr, _⟩ := rollupDailyUsage_run ht hf.injective h hf.unused
  have hw := rollupDailyUsage_writes ht hf h
  rw [hr] at hw
  exact ⟨d', length_figuresByUser d date ▸ hr, hw⟩

-- What happens to the tables of the rollup.
inductive RollupEvent
  | log (l : RequestLog)
  | rollup (now : Instant) (targetDate : Option Day) (ids : Uuid → Uuid)

namespace RollupEvent

def step (d : Database) : RollupEvent → Database
  | log l                     => ((create <| .requestLog l).run d).2
  | rollup now targetDate ids => ((rollupDailyUsage now targetDate ids).run d).2

def IsValid (d : Database) : RollupEvent → Prop
  | log _         => True
  | rollup _ _ ids => FreshIds ids d

theorem step_unique {d : Database} {e : RollupEvent} (he : e.IsValid d) (h : UniqueUsage d) :
    UniqueUsage (step d e) := by
  cases e
  case log l =>
    have hd : (step d <| .log l).dailyUsage = d.dailyUsage :=
      (Maintains.create (I := Preserved (·.dailyUsage)) fun _ _ => by rfl).related d
    intro a ha b hb
    rw [hd] at ha hb
    exact h a ha b hb
  case rollup now targetDate ids =>
    cases ht : rollupDate now targetDate
    case error e  =>
      rw [step, rollupDailyUsage_run_error ht]
      exact h
    case ok date  => exact (rollupDailyUsage_writes ht he h).unique h he

theorem run_unique {d : Database} {es : List RollupEvent} (hv : Throughout step (fun d e => e.IsValid d) d es)
    (h : UniqueUsage d) : UniqueUsage (es.foldl step d) :=
  hv.induction h fun _ _ => step_unique

end RollupEvent

-- After any history, a rollup replaces the figures of the users with requests on that day. A second one
-- of the same day changes nothing, and the order of the rollups of two days does not matter.
theorem usage_rolled_up (d : Database) (es : List RollupEvent) (hd : UniqueUsage d)
    (hv : Throughout RollupEvent.step (fun d e => e.IsValid d) d es) (now : Instant) (targetDate : Option Day)
    (ids : Uuid → Uuid) (date : Day) (ht : rollupDate now targetDate = .ok date)
    (hf : FreshIds ids (es.foldl RollupEvent.step d)) :
    let d₁ := es.foldl RollupEvent.step d
    ∃ d₂, (rollupDailyUsage now targetDate ids).run d₁ = (.ok (usersOf d₁ date).card, d₂) ∧
      d₂ = { d₁ with dailyUsage := d₂.dailyUsage } ∧
      (∀ user, logsOf d₁ user date ≠ [] → ∃ r ∈ d₂.dailyUsage, r.figures = figures (logsOf d₁ user date) ∧
        ∀ r' ∈ d₂.dailyUsage, r'.userId = user ∧ r'.date = date ↔ r' = r) ∧
      (∀ r, (r.date = date → logsOf d₁ r.userId date = []) → (r ∈ d₂.dailyUsage ↔ r ∈ d₁.dailyUsage)) ∧
      ∀ now' targetDate' ids' date', rollupDate now' targetDate' = .ok date' → FreshIds ids' d₁ →
        (∀ u v, ids u ≠ ids' v) →
        ∃ d₃, (rollupDailyUsage now' targetDate' ids').run d₂ = (.ok (usersOf d₁ date').card, d₃) ∧
          d₃ = { d₁ with dailyUsage := d₃.dailyUsage } ∧
          (date' = date → ∀ r, r ∈ d₃.dailyUsage ↔ r ∈ d₂.dailyUsage) ∧
          (date' ≠ date → ∃ d₂' d₃',
            (rollupDailyUsage now' targetDate' ids').run d₁ = (.ok (usersOf d₁ date').card, d₂') ∧
            (rollupDailyUsage now targetDate ids).run d₂' = (.ok (usersOf d₁ date).card, d₃') ∧
            d₃' = { d₁ with dailyUsage := d₃'.dailyUsage } ∧
            ∀ r, r ∈ d₃.dailyUsage ↔ r ∈ d₃'.dailyUsage) := by
  intro d₁
  have hu : UniqueUsage d₁ := RollupEvent.run_unique hv hd
  obtain ⟨d₂, hr, hw⟩ := rollupDailyUsage_run_writes ht hf hu
  have hu₂ := hw.unique hu hf
  refine ⟨d₂, hr, hw.others, fun user hn => ?_, fun r hn => ?_, fun now' targetDate' ids' date' ht' hf' hids => ?_⟩
  · obtain ⟨hs₁, hs₂, hs₃⟩ := WritesUsage.rolledUsage_spec hu hf date user
    refine ⟨_, hw.mem_rolledUsage hn, hs₃, fun r' hr' => ⟨fun h => ?_, fun he => he ▸ ⟨hs₁, hs₂⟩⟩⟩
    exact hu₂ r' hr' _ (hw.mem_rolledUsage hn) (h.left.trans hs₁.symm) (h.right.trans hs₂.symm)
  · rw [hw.rows]
    constructor
    case mp   =>
      rintro (⟨hr, _⟩ | ⟨user, hl, he⟩)
      · exact hr
      · obtain ⟨hs₁, hs₂, _⟩ := WritesUsage.rolledUsage_spec hu hf date user
        rw [he, hs₁] at hn
        exact (hl <| hn hs₂).elim
    case mpr  => exact fun hr => .inl ⟨hr, hn⟩
  · obtain ⟨d₃, hr₃, hw₃⟩ := rollupDailyUsage_run_writes ht' (hw.freshIds hf' hids) hu₂
    rw [hw.usersOf_eq] at hr₃
    refine ⟨d₃, hr₃, ?_, fun he => ?_, fun hne => ?_⟩
    · rw [hw₃.others, hw.others]
    · subst he
      exact hw.again hu hf hw₃
    · obtain ⟨d₂', hr₂', hw₂'⟩ := rollupDailyUsage_run_writes ht' hf' hu
      have hf₂' := hw₂'.freshIds hf fun u v => (hids v u).symm
      obtain ⟨d₃', hr₃', hw₃'⟩ := rollupDailyUsage_run_writes ht hf₂' (hw₂'.unique hu hf')
      rw [hw₂'.usersOf_eq] at hr₃'
      refine ⟨d₂', d₃', hr₂', hr₃', by rw [hw₃'.others, hw₂'.others], fun r => ?_⟩
      rw [hw.rows_twice hu hf hne hw₃, hw₂'.rows_twice hu hf' hne.symm hw₃']
      exact or_congr (and_congr_right fun _ => and_comm) or_comm

section Example

def exampleLog (id user statusCode responseMs : Nat) : RequestLog :=
  ⟨id, some user, none, "GET", "/api/v1/users/me/", statusCode, responseMs, none, "", .midnight 739000⟩

-- A day is rolled up before its last request.
def exampleRollups : List RollupEvent :=
  [.log <| exampleLog 1 1 200 10, .rollup (.midnight 739001) none fun u => 2 * u,
    .log <| exampleLog 2 1 404 25]

theorem exampleRollups_valid :
    Throughout RollupEvent.step (fun d e => e.IsValid d) Database.empty exampleRollups := by
  refine ⟨trivial, ⟨fun _ _ h => ?_, fun r hr => ?_⟩, trivial, trivial⟩
  · exact Nat.eq_of_mul_eq_mul_left (by decide) h
  · have hn : ∀ r ∈ (RollupEvent.step Database.empty <| .log <| exampleLog 1 1 200 10).dailyUsage, False := by
      decide +kernel
    exact (hn r hr).elim

theorem exampleRollups_fresh :
    FreshIds (fun u => 2 * u + 1) (exampleRollups.foldl RollupEvent.step Database.empty) := by
  constructor
  case injective  =>
    exact fun _ _ h => Nat.eq_of_mul_eq_mul_left (by decide) <| Nat.succ.inj h
  case unused     =>
    have he : ∀ r ∈ (exampleRollups.foldl RollupEvent.step Database.empty).dailyUsage, r.id % 2 = 0 := by
      decide +kernel
    intro r hr user hi
    have ho : (2 * user + 1) % 2 = 1 := Nat.mul_add_mod 2 user 1
    exact absurd ((he r hr).symm.trans <| (congrArg (· % 2) hi).trans ho) <| by decide

-- The figures include the late request once the day has been rolled up again.
theorem late_request_rolled_up :
    ∃ d₂, (rollupDailyUsage (.midnight 739002) (some ⟨739001, by decide⟩) fun u => 2 * u + 1).run
        (exampleRollups.foldl RollupEvent.step Database.empty) = (.ok 1, d₂) ∧
      ∃ r ∈ d₂.dailyUsage, r.requestCount = 2 ∧ r.errorCount = 1 ∧ r.avgResponseMs = 17 := by
  obtain ⟨d₂, hr, _, hw, _⟩ := usage_rolled_up Database.empty exampleRollups
    (fun a ha => (Table.not_mem_empty a ha).elim) exampleRollups_valid (.midnight 739002)
    (some ⟨739001, by decide⟩) (fun u => 2 * u + 1) ⟨739001, by decide⟩ rfl exampleRollups_fresh
  have hn : logsOf (exampleRollups.foldl RollupEvent.step Database.empty) 1 ⟨739001, by decide⟩ ≠ [] := by
    decide +kernel
  have hc : (usersOf (exampleRollups.foldl RollupEvent.step Database.empty) ⟨739001, by decide⟩).card = 1 := by
    decide +kernel
  obtain ⟨r, hm, hf, _⟩ := hw 1 hn
  refine ⟨d₂, hc ▸ hr, r, hm, ?_, ?_, ?_⟩
  · exact (congrArg DayFigures.requestCount hf).trans <| by decide +kernel
  · exact (congrArg DayFigures.errorCount hf).trans <| by decide +kernel
  · exact (congrArg DayFigures.avgResponseMs hf).trans <| by decide +kernel

end Example
end SaasBackend
