import SaasBackend.Analytics.Selectors
import SaasBackend.Statements

open Calendar Grouping ReadCommitted ReadCommitted.Service

namespace SaasBackend

open Service

-- The figures of one user on one day.
structure DayFigures where
  requestCount  : Nat
  errorCount    : Nat
  avgResponseMs : Nat

def figures (logs : List RequestLog) : DayFigures where
  requestCount  := (tally logs).count
  errorCount    := (tally logs).errors
  avgResponseMs := SaasBackend.avgResponseMs logs

def DayFigures.assign (f : DayFigures) (u : DailyUsage) : DailyUsage :=
  { u with requestCount := f.requestCount, errorCount := f.errorCount, avgResponseMs := f.avgResponseMs }

-- The result set of the rollup, where the requests of deleted users are left out.
def figuresByUser (d : Database) (targetDate : Day) : List (Uuid × DayFigures) :=
  let logs := d.requestLogs.rows.filter fun l => l.createdAt.day = targetDate
  let logs := logs.filterMap fun l => l.userId.map fun user => (user, l)
  (groupBy (·.1) logs).map fun g => (g.1, figures <| g.2.map (·.2))

def findUsage (d : Database) (user : Uuid) (date : Day) : Option DailyUsage :=
  d.dailyUsage.rows.find? fun u => u.userId = user ∧ u.date = date

-- `get_or_create`, which looks again if the row has been created in the meantime.
def getOrCreateUsage (usage : DailyUsage) : Service (DailyUsage × Bool) := do
  match ← selectForUpdate .dailyUsage (findUsage · usage.userId usage.date) with
  | some u => return (u, false)
  | none   =>
    handle
      (atomic do
        create <| .dailyUsage usage
        return (usage, true))
      fun
        | .integrityError => do
          match ← selectForUpdate .dailyUsage (findUsage · usage.userId usage.date) with
          | some u => return (u, false)
          | none   => raise .integrityError
        | e               => raise e

def updateOrCreateUsage (id user : Uuid) (date : Day) (f : DayFigures) : Service Unit :=
  atomic do
    let (u, created) ← getOrCreateUsage <| f.assign ⟨id, user, date, 0, 0, 0⟩
    if created then return ()
    else save Database.dailyUsage .dailyUsage (.dailyUsage u.id) f.assign

def rollupUsers (targetDate : Day) (ids : Uuid → Uuid) :
    List (Uuid × DayFigures) → (count : Nat) → Service Nat
  | [],                count => return count
  | (user, f) :: rows, count => do
    updateOrCreateUsage (ids user) user targetDate f
    rollupUsers targetDate ids rows (count + 1)

-- The day before is the default.
def rollupDate (now : Instant) (targetDate : Option Day) : Except Exn Day :=
  match targetDate with
  | some date => .ok date
  | none      => orOverflow <| now.day.addDays (-1)

def rollupDailyUsage (now : Instant) (targetDate : Option Day) (ids : Uuid → Uuid) : Service Nat := do
  let targetDate ← ofExcept <| rollupDate now targetDate
  let rows ← select (figuresByUser · targetDate)
  rollupUsers targetDate ids rows 0

-- The requests of a user on a day.
def logsOf (d : Database) (user : Uuid) (date : Day) : List RequestLog :=
  d.requestLogs.rows.filter fun l => l.createdAt.day = date ∧ l.userId = some user

section Figures

variable {d : Database} {user : Uuid} {date : Day} {f : DayFigures}

theorem mem_logsOf {l : RequestLog} :
    l ∈ logsOf d user date ↔ l ∈ d.requestLogs ∧ l.createdAt.day = date ∧ l.userId = some user := by
  simp [logsOf, Table.mem_rows]

-- The rows of a group, without the key.
theorem filter_owner (logs : List RequestLog) (user : Uuid) :
    ((logs.filterMap fun l => l.userId.map fun u => (u, l)).filter (·.1 = user)).map (·.2) =
      logs.filter (·.userId = some user) := by
  induction logs
  case nil          => rfl
  case cons l ls hi =>
    cases hu : l.userId
    case none   => simp [hu, hi]
    case some u => by_cases h : u = user <;> simp [hu, hi, h]

theorem logsOf_eq (d : Database) (user : Uuid) (date : Day) :
    logsOf d user date =
      (d.requestLogs.rows.filter fun l => l.createdAt.day = date).filter (·.userId = some user) := by
  rw [List.filter_filter]
  exact List.filter_congr fun l _ => by simp [and_comm]

-- There are figures for each user with a request on that day.
theorem mem_figuresByUser :
    (user, f) ∈ figuresByUser d date ↔ logsOf d user date ≠ [] ∧ f = figures (logsOf d user date) := by
  rw [logsOf_eq, ←filter_owner, figuresByUser]
  generalize (d.requestLogs.rows.filter fun l => l.createdAt.day = date).filterMap
    (fun l => l.userId.map fun u => (u, l)) = logs
  rw [Ne, List.map_eq_nil_iff, List.mem_map]
  constructor
  case mp =>
    rintro ⟨⟨_, g⟩, hg, he⟩
    cases he
    obtain ⟨hk, rfl⟩ := mem_groupBy.mp hg
    obtain ⟨l, hl, rfl⟩ := List.mem_map.mp hk
    exact ⟨List.ne_nil_of_mem <| List.mem_filter.mpr ⟨hl, decide_eq_true rfl⟩, rfl⟩
  case mpr =>
    rintro ⟨hn, rfl⟩
    obtain ⟨l, hl⟩ := List.exists_mem_of_ne_nil _ hn
    obtain ⟨hl, hk⟩ := List.mem_filter.mp hl
    refine ⟨(user, _), mem_groupBy.mpr ⟨?_, rfl⟩, rfl⟩
    exact List.mem_map.mpr ⟨l, hl, of_decide_eq_true hk⟩

theorem lookup_figuresByUser (d : Database) (user : Uuid) (date : Day) :
    (figuresByUser d date).lookup user =
      if logsOf d user date = [] then none else some (figures <| logsOf d user date) := by
  cases h : (figuresByUser d date).lookup user
  case some f =>
    have ⟨l₁, l₂, hl, _⟩ := List.lookup_eq_some_iff.mp h
    have hm : (user, f) ∈ figuresByUser d date := by simp [hl]
    have ⟨hn, hf⟩ := mem_figuresByUser.mp hm
    rw [if_neg hn, hf]
  case none =>
    split
    case isTrue     => rfl
    case isFalse hn =>
      have hm : (user, _) ∈ figuresByUser d date := mem_figuresByUser.mpr ⟨hn, rfl⟩
      simpa using List.lookup_eq_none_iff.mp h _ hm

theorem figuresByUser_nodup (d : Database) (date : Day) : ((figuresByUser d date).map (·.1)).Nodup := by
  rw [figuresByUser, List.map_map]
  exact groupBy_nodup ..

end Figures

-- No user has two rows for the same day.
def UniqueUsage (d : Database) : Prop :=
  ∀ a ∈ d.dailyUsage, ∀ b ∈ d.dailyUsage, a.userId = b.userId → a.date = b.date → a = b

def DailyUsage.figures (u : DailyUsage) : DayFigures where
  requestCount  := u.requestCount
  errorCount    := u.errorCount
  avgResponseMs := u.avgResponseMs

-- The figures which are stored for a user and a day.
def usageFigures (d : Database) (user : Uuid) (date : Day) : Option DayFigures :=
  (findUsage d user date).map (·.figures)

section Run

variable {d : Database} {id user : Uuid} {date : Day} {f : DayFigures} {u : DailyUsage}

theorem findUsage_mem (h : findUsage d user date = some u) :
    u ∈ d.dailyUsage ∧ u.userId = user ∧ u.date = date := by
  have hu : u.userId = user ∧ u.date = date := by simpa using List.find?_some h
  exact ⟨List.mem_of_find?_eq_some h, hu⟩

theorem findUsage_eq_none (h : findUsage d user date = none) :
    ∀ u ∈ d.dailyUsage, u.userId = user → u.date ≠ date := by
  intro u hu h₁ h₂
  simpa [h₁, h₂] using List.find?_eq_none.mp h u hu

theorem findUsage_eq_some (h : UniqueUsage d) :
    findUsage d user date = some u ↔ u ∈ d.dailyUsage ∧ u.userId = user ∧ u.date = date := by
  constructor
  case mp  => exact findUsage_mem
  case mpr =>
    intro ⟨hu, h₁, h₂⟩
    cases hf : findUsage d user date
    case none   => exact (findUsage_eq_none hf u hu h₁ h₂).elim
    case some v =>
      have ⟨hv, h₃, h₄⟩ := findUsage_mem hf
      rw [h v hv u hu (h₃.trans h₁.symm) (h₄.trans h₂.symm)]

-- The row that an update starts from.
def startingUsage (d : Database) (id user : Uuid) (date : Day) : DailyUsage :=
  (findUsage d user date).getD ⟨id, user, date, 0, 0, 0⟩

theorem selectUsage_run (d : Database) (user : Uuid) (date : Day) :
    (selectForUpdate .dailyUsage (findUsage · user date)).run d = (.ok <| findUsage d user date, d) :=
  run_selectForUpdate (fun _ => rfl) fun _ hr => (findUsage_mem hr).left

theorem getOrCreateUsage_run_of_some (h : findUsage d user date = some u) (n : DailyUsage)
    (h₁ : n.userId = user) (h₂ : n.date = date) :
    (getOrCreateUsage n).run d = (.ok (u, false), d) := by
  subst h₁ h₂
  have hs := selectUsage_run d n.userId n.date
  rw [h] at hs
  exact run_bind_eq_ok.mpr ⟨some u, d, hs, rfl⟩

theorem getOrCreateUsage_run_of_none {n : DailyUsage} (h : findUsage d n.userId n.date = none)
    (hn : ∀ r ∈ d.dailyUsage, r.id ≠ n.id) :
    (getOrCreateUsage n).run d = (.ok (n, true), d.put <| .dailyUsage n) := by
  have hs := selectUsage_run d n.userId n.date
  rw [h] at hs
  have hc : (create <| .dailyUsage n).run d = (.ok (), d.put <| .dailyUsage n) := by
    refine run_create_of_fits rfl (fun r hr hk => hn r hr <| Key.dailyUsage.inj hk) ?_
    intro r hr k hk hk'
    have hk := (List.mem_singleton.mp hk).symm.trans <| List.mem_singleton.mp hk'
    have ⟨h₁, h₂⟩ := Key.usageDay.inj hk
    exact findUsage_eq_none h r hr h₁.symm h₂.symm
  refine run_bind_eq_ok.mpr ⟨none, d, hs, ?_⟩
  have ha : (atomic do create <| .dailyUsage n; return (n, true)).run d =
      (.ok (n, true), d.put <| .dailyUsage n) :=
    run_atomic_eq_ok.mpr <| run_bind_eq_ok.mpr ⟨(), _, hc, rfl⟩
  dsimp only
  rw [run_handle, ha]

theorem updateOrCreateUsage_run (hn : ∀ r ∈ d.dailyUsage, r.id ≠ id) :
    (updateOrCreateUsage id user date f).run d =
      (.ok (), d.put <| .dailyUsage <| f.assign <| startingUsage d id user date) := by
  refine run_atomic_eq_ok.mpr ?_
  rw [startingUsage]
  cases h : findUsage d user date
  case some u =>
    have hg := getOrCreateUsage_run_of_some h (f.assign ⟨id, user, date, 0, 0, 0⟩) rfl rfl
    refine run_bind_eq_ok.mpr ⟨(u, false), d, hg, ?_⟩
    have hl : d.dailyUsage.lookup (.dailyUsage u.id) = some u :=
      Table.lookup_eq_some.mpr ⟨(findUsage_mem h).left, rfl⟩
    exact run_save hl rfl (List.Subset.refl _)
  case none =>
    have hg := getOrCreateUsage_run_of_none (n := f.assign ⟨id, user, date, 0, 0, 0⟩) h hn
    exact run_bind_eq_ok.mpr ⟨(_, true), _, hg, rfl⟩

-- How one update affects the stored figures.
structure Updates (user : Uuid) (date : Day) (f : DayFigures) (id : Uuid) (d d' : Database) : Prop where
  unique      : UniqueUsage d'
  figures     : ∀ u day, usageFigures d' u day =
                  if u = user ∧ day = date then some f else usageFigures d u day
  ids         : ∀ r ∈ d'.dailyUsage, r.id = id ∨ ∃ r₀ ∈ d.dailyUsage, r.id = r₀.id
  users       : d'.users = d.users
  requestLogs : d'.requestLogs = d.requestLogs

theorem startingUsage_spec (user : Uuid) (date : Day) (h : UniqueUsage d) (hn : ∀ r ∈ d.dailyUsage, r.id ≠ id) :
    (startingUsage d id user date).userId = user ∧ (startingUsage d id user date).date = date ∧
    ∀ r ∈ d.dailyUsage,
      r.userId = user ∧ r.date = date ↔ r.id = (startingUsage d id user date).id := by
  rw [startingUsage]
  cases hf : findUsage d user date
  case none   => exact ⟨rfl, rfl, fun r hr =>
    ⟨fun ⟨h₁, h₂⟩ => (findUsage_eq_none hf r hr h₁ h₂).elim, fun he => (hn r hr he).elim⟩⟩
  case some u =>
    have ⟨hu, h₁, h₂⟩ := findUsage_mem hf
    refine ⟨h₁, h₂, fun r hr => ⟨fun ⟨h₃, h₄⟩ => ?_, fun he => ?_⟩⟩
    · exact congrArg DailyUsage.id <| h r hr u hu (h₃.trans h₁.symm) (h₄.trans h₂.symm)
    · rw [Table.eq_of_key hr hu <| congrArg Key.dailyUsage he]
      exact ⟨h₁, h₂⟩

theorem startingUsage_id : (startingUsage d id user date).id = id ∨
    ∃ r ∈ d.dailyUsage, (startingUsage d id user date).id = r.id := by
  rw [startingUsage]
  cases hf : findUsage d user date
  case none   => exact .inl rfl
  case some u => exact .inr ⟨u, (findUsage_mem hf).left, rfl⟩

theorem mem_put_startingUsage (h : UniqueUsage d) (hn : ∀ r ∈ d.dailyUsage, r.id ≠ id) (r : DailyUsage) :
    r ∈ (d.put <| .dailyUsage <| f.assign <| startingUsage d id user date).dailyUsage ↔
      r = f.assign (startingUsage d id user date) ∨
      r ∈ d.dailyUsage ∧ ¬(r.userId = user ∧ r.date = date) := by
  have ⟨_, _, hk⟩ := startingUsage_spec user date h hn
  refine Table.mem_put.trans <| or_congr_right <| and_congr_right fun hr => ?_
  exact (not_congr <| (hk r hr).trans ⟨congrArg Key.dailyUsage, Key.dailyUsage.inj⟩).symm

theorem uniqueUsage_put (h : UniqueUsage d) (hn : ∀ r ∈ d.dailyUsage, r.id ≠ id) :
    UniqueUsage (d.put <| .dailyUsage <| f.assign <| startingUsage d id user date) := by
  have ⟨hu, hd, _⟩ := startingUsage_spec user date h hn
  have hm : ∀ r, r ∈ (d.put <| .dailyUsage <| f.assign <| startingUsage d id user date).dailyUsage ↔ _ :=
    mem_put_startingUsage h hn
  intro a ha b hb h₁ h₂
  cases (hm a).mp ha <;> cases (hm b).mp hb
  case inl.inl ha hb => exact ha.trans hb.symm
  case inl.inr ha hb => subst ha; exact (hb.right ⟨h₁.symm.trans hu, h₂.symm.trans hd⟩).elim
  case inr.inl ha hb => subst hb; exact (ha.right ⟨h₁.trans hu, h₂.trans hd⟩).elim
  case inr.inr ha hb => exact h a ha.left b hb.left h₁ h₂

-- The row that is looked up only depends on the rows of that user and day.
theorem findUsage_congr {d' : Database} {u : Uuid} {day : Day} (h : UniqueUsage d) (h' : UniqueUsage d')
    (hm : ∀ r, r.userId = u → r.date = day → (r ∈ d'.dailyUsage ↔ r ∈ d.dailyUsage)) :
    findUsage d' u day = findUsage d u day := by
  refine Option.ext fun r => ?_
  rw [findUsage_eq_some h', findUsage_eq_some h]
  exact and_congr_left fun hr => hm r hr.left hr.right

theorem findUsage_put {u : Uuid} {day : Day} (h : UniqueUsage d) (hn : ∀ r ∈ d.dailyUsage, r.id ≠ id)
    (hu : ¬(u = user ∧ day = date)) :
    findUsage (d.put <| .dailyUsage <| f.assign <| startingUsage d id user date) u day = findUsage d u day := by
  refine findUsage_congr h (uniqueUsage_put h hn) fun r hr₁ hr₂ => ?_
  have ⟨hs₁, hs₂, _⟩ := startingUsage_spec user date h hn
  subst hr₁ hr₂
  rw [mem_put_startingUsage h hn]
  constructor
  case mp   =>
    rintro (he | hr)
    · exact (hu ⟨(congrArg DailyUsage.userId he).trans hs₁, (congrArg DailyUsage.date he).trans hs₂⟩).elim
    · exact hr.left
  case mpr  => exact fun hr => .inr ⟨hr, hu⟩

theorem startingUsage_congr {d' : Database} (h : findUsage d' user date = findUsage d user date) (id : Uuid) :
    startingUsage d' id user date = startingUsage d id user date := by
  rw [startingUsage, startingUsage, h]

theorem updates_put (user : Uuid) (date : Day) (f : DayFigures) (h : UniqueUsage d) (hn : ∀ r ∈ d.dailyUsage, r.id ≠ id) :
    Updates user date f id d (d.put <| .dailyUsage <| f.assign <| startingUsage d id user date) := by
  have hm : ∀ r, r ∈ (d.put <| .dailyUsage <| f.assign <| startingUsage d id user date).dailyUsage ↔ _ :=
    mem_put_startingUsage h hn
  refine ⟨uniqueUsage_put h hn, fun u day => ?_, fun r hr => ?_, rfl, rfl⟩
  · split
    case isFalse hu => exact congrArg (Option.map _) <| findUsage_put h hn hu
    case isTrue ht  =>
      obtain ⟨rfl, rfl⟩ := ht
      obtain ⟨hu, hd, _⟩ := startingUsage_spec u day h hn
      have hf := (findUsage_eq_some <| uniqueUsage_put h hn).mpr ⟨(hm _).mpr <| .inl rfl, hu, hd⟩
      rw [usageFigures, hf]
      rfl
  · cases (hm r).mp hr
    case inr hr => exact .inr ⟨r, hr.left, rfl⟩
    case inl he =>
      subst he
      exact startingUsage_id

-- How the rollup of a day affects the stored figures: those of the day are replaced.
structure RollsUp (date : Day) (rows : List (Uuid × DayFigures)) (d d' : Database) : Prop where
  unique      : UniqueUsage d'
  figures     : ∀ user day, usageFigures d' user day =
                  if day = date then (rows.lookup user).or (usageFigures d user day)
                  else usageFigures d user day
  users       : d'.users = d.users
  requestLogs : d'.requestLogs = d.requestLogs

theorem rollupUsers_run (date : Day) {ids : Uuid → Uuid} (hi : Function.Injective ids)
    {rows : List (Uuid × DayFigures)} (hd : (rows.map (·.1)).Nodup) (h : UniqueUsage d)
    (hn : ∀ r ∈ d.dailyUsage, ∀ user ∈ rows.map (·.1), r.id ≠ ids user) (count : Nat) :
    ∃ d', (rollupUsers date ids rows count).run d = (.ok (count + rows.length), d') ∧
      RollsUp date rows d d' := by
  induction rows generalizing d count
  case nil => exact ⟨d, rfl, h, fun _ _ => by simp, rfl, rfl⟩
  case cons b rows hr =>
    obtain ⟨user, f⟩ := b
    have ⟨hu, hd⟩ := List.nodup_cons.mp hd
    have hf : ∀ r ∈ d.dailyUsage, r.id ≠ ids user := fun r hr => hn r hr user List.mem_cons_self
    have h₁ := updates_put user date f h hf
    have ⟨d', hr, h₂⟩ := hr hd h₁.unique (by
      intro r hr v hv
      cases h₁.ids r hr
      case inl he => exact he ▸ fun hk => hu <| hi hk ▸ hv
      case inr he =>
        have ⟨r₀, hr₀, he⟩ := he
        exact he ▸ hn r₀ hr₀ v (List.mem_cons_of_mem _ hv)) (count + 1)
    refine ⟨d', ?_, h₂.unique, fun v day => ?_, h₂.users.trans h₁.users,
      h₂.requestLogs.trans h₁.requestLogs⟩
    · refine run_bind_eq_ok.mpr ⟨(), _, updateOrCreateUsage_run hf, hr.trans ?_⟩
      rw [List.length_cons, Nat.add_right_comm, Nat.add_assoc]
    · rw [h₂.figures, h₁.figures]
      have hl : rows.lookup user = none :=
        List.lookup_eq_none_iff.mpr fun b hb => bne_iff_ne.mpr fun he =>
          hu <| List.mem_map.mpr ⟨b, hb, he.symm⟩
      by_cases hday : day = date
      case neg => simp [hday]
      case pos =>
        by_cases hv : v = user
        case pos => simp [hday, hv, hl]
        case neg => simp [hday, hv, List.lookup_cons, beq_eq_false_iff_ne.mpr hv]

theorem rollupDailyUsage_run {now : Instant} {targetDate : Option Day} {ids : Uuid → Uuid}
    (ht : rollupDate now targetDate = .ok date) (hi : Function.Injective ids) (h : UniqueUsage d)
    (hn : ∀ r ∈ d.dailyUsage, ∀ user, r.id ≠ ids user) :
    ∃ d', (rollupDailyUsage now targetDate ids).run d = (.ok (figuresByUser d date).length, d') ∧
      RollsUp date (figuresByUser d date) d d' := by
  have ⟨d', hr, hd⟩ := rollupUsers_run date hi (figuresByUser_nodup d date) h
    (fun r hr user _ => hn r hr user) 0
  refine ⟨d', ?_, hd⟩
  refine run_bind_eq_ok.mpr ⟨date, d, run_ofExcept_eq_ok.mpr ⟨ht, rfl⟩, ?_⟩
  refine run_bind_eq_ok.mpr ⟨_, d, rfl, ?_⟩
  rw [Nat.zero_add] at hr
  exact hr

theorem rollupDailyUsage_run_error {now : Instant} {targetDate : Option Day} {ids : Uuid → Uuid} {e : Exn}
    (ht : rollupDate now targetDate = .error e) :
    (rollupDailyUsage now targetDate ids).run d = (.error e, d) := by
  rw [rollupDailyUsage, ht]
  rfl

end Run
end SaasBackend
