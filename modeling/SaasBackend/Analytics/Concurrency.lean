import SaasBackend.Analytics.Rollup
import SaasBackend.QuerySet
import SaasBackend.ReadCommitted.Evolution
import SaasBackend.ReadCommitted.Outcome

open Calendar ReadCommitted ReadCommitted.Service

namespace SaasBackend

open Service

-- What is done with the result of a block can be done inside of the block.
theorem atomic_map {α β : Type} (s : Service α) (f : α → β) :
    atomic (do let a ← s; return f a) = do let a ← atomic s; return f a := by
  have hp : ∀ p : Program Database Write Exn α,
      (p.bind fun a => .ret (f a)).closed = p.closed.bind fun a => .ret (f a) := by
    intro p
    induction p <;> simp_all
  exact Service.ext <| congrArg Program.enter <| hp s.program

theorem getOrCreateUsage_eq (usage : DailyUsage) : getOrCreateUsage usage =
    QuerySet.getOrCreate .dailyUsage (findUsage · usage.userId usage.date) usage := by
  apply bind_congr
  intro r
  cases r
  case some => rfl
  case none =>
    refine congrArg (handle _) <| funext fun e => ?_
    cases e
    case integrityError =>
      apply bind_congr
      intro r
      cases r <;> rfl
    all_goals rfl

theorem updateOrCreateUsage_eq (id user : Uuid) (date : Day) (f : DayFigures) :
    updateOrCreateUsage id user date f = do
      let _ ← QuerySet.updateOrCreate Database.dailyUsage .dailyUsage (findUsage · user date)
        (f.assign ⟨id, user, date, 0, 0, 0⟩) f.assign
      return () := by
  rw [QuerySet.updateOrCreate, ←atomic_map, updateOrCreateUsage, getOrCreateUsage_eq]
  apply congrArg
  rw [bind_assoc]
  apply bind_congr
  rintro ⟨u, created⟩
  cases created
  case true   => rfl
  case false  =>
    have hb := bind_assoc (save Database.dailyUsage .dailyUsage (Entity.key u) f.assign)
      (fun _ => pure (f.assign u, false)) fun _ => (pure () : Service Unit)
    simp only [pure_bind, bind_pure_unit] at hb
    exact hb.symm

-- The row has the figures of the requests of its user on its day.
def DailyUsage.IsRolledUp (d : Database) (u : DailyUsage) : Prop :=
  logsOf d u.userId u.date ≠ [] ∧ u.figures = SaasBackend.figures (logsOf d u.userId u.date)

-- How rollups of the days `days` may change the database while no requests are logged.
structure Rolls (days : Day → Prop) (d d' : Database) : Prop where
  others  : d' = { d with dailyUsage := d'.dailyUsage }
  kept    : ∀ u ∈ d.dailyUsage, ∃ u' ∈ d'.dailyUsage, u'.id = u.id ∧ u'.userId = u.userId ∧ u'.date = u.date
  figures : ∀ u ∈ d'.dailyUsage, u ∈ d.dailyUsage ∨ days u.date ∧ u.IsRolledUp d
  indexed : Indexed d → Indexed d'

def HasFigures (user : Uuid) (date : Day) (d : Database) : Prop :=
  ∃ u ∈ d.dailyUsage, u.userId = user ∧ u.date = date ∧ u.figures = figures (logsOf d user date)

section Rolls

variable {days : Day → Prop} {d d' : Database} {user : Uuid} {date : Day} {u : DailyUsage}

theorem Rolls.logsOf_eq (h : Rolls days d d') (user : Uuid) (date : Day) :
    logsOf d' user date = logsOf d user date := by
  rw [h.others]
  rfl

instance : Std.Refl (Rolls days) where
  refl _ := ⟨rfl, fun u hu => ⟨u, hu, rfl, rfl, rfl⟩, fun _ => .inl, id⟩

instance : IsTrans Database (Rolls days) where
  trans d₁ d₂ d₃ h₁ h₂ := {
    others        := by
      have ho := h₁.others
      have ho' := h₂.others
      rw [ho] at ho'
      exact ho'
    kept u hu     := by
      have ⟨u₂, hu₂, hi₂, hs₂, hd₂⟩ := h₁.kept u hu
      have ⟨u₃, hu₃, hi₃, hs₃, hd₃⟩ := h₂.kept u₂ hu₂
      exact ⟨u₃, hu₃, hi₃.trans hi₂, hs₃.trans hs₂, hd₃.trans hd₂⟩
    figures u hu  := by
      cases h₂.figures u hu
      case inl hu => exact h₁.figures u hu
      case inr hu =>
        refine .inr ⟨hu.left, ?_⟩
        have hr := hu.right
        rwa [DailyUsage.IsRolledUp, h₁.logsOf_eq] at hr
    indexed       := h₂.indexed ∘ h₁.indexed
  }

-- Figures which are right are only replaced by the same ones.
theorem Rolls.hasFigures (h : Rolls days d d') (hf : HasFigures user date d) : HasFigures user date d' := by
  obtain ⟨u, hu, hs, hd, hf⟩ := hf
  obtain ⟨u', hu', hi, hs', hd'⟩ := h.kept u hu
  refine ⟨u', hu', hs'.trans hs, hd'.trans hd, ?_⟩
  rw [h.logsOf_eq]
  cases h.figures u' hu'
  case inl hm =>
    have he : u' = u := Table.eq_of_key hm hu <| congrArg Key.dailyUsage hi
    exact he ▸ hf
  case inr hr => rw [hr.right.right, hs', hs, hd', hd]

theorem Rolls.put {o : Option Row} (hd : days u.date) (hr : u.IsRolledUp d)
    (ho : ∀ r ∈ d.dailyUsage, r.id = u.id → r.userId = u.userId ∧ r.date = u.date)
    (h : Accepts d ⟨o, .dailyUsage u⟩) : Rolls days d (d.put <| .dailyUsage u) := by
  constructor
  case others   => rfl
  case indexed  => exact fun hi => Indexed.put (w := ⟨o, .dailyUsage u⟩) hi h
  case kept     =>
    intro r hm
    by_cases hi : r.id = u.id
    case neg => exact ⟨r, Table.mem_put_of_ne hm fun hk => hi <| Key.dailyUsage.inj hk, rfl, rfl, rfl⟩
    case pos =>
      have ⟨hs, hd⟩ := ho r hm hi
      exact ⟨u, Table.mem_put_self .., hi.symm, hs.symm, hd.symm⟩
  case figures  =>
    intro r hm
    cases Table.mem_put.mp hm
    case inl he => exact .inr <| he ▸ ⟨hd, hr⟩
    case inr hm => exact .inl hm.left

end Rolls

section Keeps

variable {days : Day → Prop} {d d₀ : Database} {user id : Uuid} {date : Day} {f : DayFigures}

theorem updateOrCreateUsage_keeps {Q : Unit → List (List Write) → Database → Prop} (hd : days date)
    (hf : (user, f) ∈ figuresByUser d date)
    (h : ∀ d', Rolls days d d' → HasFigures user date d' → Q () [] d') :
    (updateOrCreateUsage id user date f).Keeps (Rolls days) d₀ Q [] d := by
  obtain ⟨hn, hf⟩ := mem_figuresByUser.mp hf
  -- What is written has the figures of the requests, which are the same all the time.
  have hr : ∀ d' u, Rolls days d d' → u.userId = user → u.date = date → (f.assign u).IsRolledUp d' := by
    intro d' u hd' hs hdt
    have hl : logsOf d' (f.assign u).userId (f.assign u).date = logsOf d user date :=
      (hd'.logsOf_eq ..).trans <| by rw [show (f.assign u).userId = _ from hs, show (f.assign u).date = _ from hdt]
    exact ⟨hl.symm ▸ hn, by rw [hl, ←hf]; rfl⟩
  have hfin : ∀ d' u, Rolls days d d' → u.userId = user → u.date = date →
      Rolls days d' (d'.put <| .dailyUsage <| f.assign u) →
      Q () [] (d'.put <| .dailyUsage <| f.assign u) := by
    intro d' u hd' hs hdt hp
    refine h _ (Trans.trans hd' hp) ⟨f.assign u, Table.mem_put_self .., hs, hdt, ?_⟩
    have hr := (hr d' u hd' hs hdt).right
    rw [hr, show (f.assign u).userId = _ from hs, show (f.assign u).date = _ from hdt]
    rfl
  rw [updateOrCreateUsage_eq]
  apply Keeps.bind
  refine QuerySet.updateOrCreate_keeps (M := fun u => u.userId = user ∧ u.date = date)
    (fun d r hr => findUsage_mem hr) (fun _ => rfl) (fun d₁ u h₁ hm hu ha => ?_) fun d₁ h₁ ha => ?_
  · have hp : Rolls days d₁ (d₁.put <| .dailyUsage <| f.assign u) := by
      refine .put (hm.right ▸ hd) (hr d₁ u h₁ hm.left hm.right) (fun r hr hi => ?_) ha
      have he : r = u := Table.eq_of_key hr hu <| congrArg Key.dailyUsage hi
      exact he ▸ ⟨rfl, rfl⟩
    exact ⟨hp, Keeps.pure <| hfin d₁ u h₁ hm.left hm.right hp⟩
  · have hp : Rolls days d₁ (d₁.put <| .dailyUsage <| f.assign ⟨id, user, date, 0, 0, 0⟩) := by
      refine .put hd (hr d₁ _ h₁ rfl rfl) (fun r hr hi => ?_) ha
      exact (accepts_new ha r hr <| congrArg Key.dailyUsage hi).elim
    exact ⟨hp, Keeps.pure <| hfin d₁ _ h₁ rfl rfl hp⟩

-- By induction on the users that are left, where the figures of those before them remain in place.
theorem rollupUsers_keeps {Q : Nat → List (List Write) → Database → Prop} (ids : Uuid → Uuid)
    (rows done : List (Uuid × DayFigures)) (count : Nat) (hd : days date)
    (hr : ∀ r ∈ rows, r ∈ figuresByUser d date) (h : ∀ r ∈ done, HasFigures r.1 date d)
    (hq : ∀ d', Rolls days d d' → (∀ r ∈ done ++ rows, HasFigures r.1 date d') →
      Q (count + rows.length) [] d') :
    (rollupUsers date ids rows count).Keeps (Rolls days) d₀ Q [] d := by
  induction rows generalizing done count d
  case nil => exact Keeps.pure <| hq d (Std.Refl.refl d) <| by simpa using h
  case cons r rows ih =>
    obtain ⟨user, f⟩ := r
    apply Keeps.bind
    refine updateOrCreateUsage_keeps hd (hr _ List.mem_cons_self) fun d₁ h₁ hf => ?_
    have hg : figuresByUser d₁ date = figuresByUser d date := by
      rw [h₁.others]
      rfl
    refine ih (done ++ [(user, f)]) (count + 1) ?_ ?_ fun d' h₂ hs => ?_
    · exact fun r hm => hg.symm ▸ hr r (List.mem_cons_of_mem _ hm)
    · intro r hm
      cases List.mem_append.mp hm
      case inl hm => exact h₁.hasFigures <| h r hm
      case inr hm => exact List.mem_singleton.mp hm ▸ hf
    · have hq := hq d' (Trans.trans h₁ h₂) <| by simpa using hs
      rwa [List.length_cons, ←Nat.add_assoc, Nat.add_right_comm] at hq

end Keeps

-- A call of `rollup_daily_usage`, with what it takes from its environment.
structure RollupCall where
  now        : Instant
  targetDate : Option Day
  ids        : Uuid → Uuid

namespace RollupCall

def service (c : RollupCall) : Service Nat :=
  rollupDailyUsage c.now c.targetDate c.ids

-- The calls roll up this day, among others.
def Includes {ι : Type} (cs : ι → RollupCall) (date : Day) : Prop :=
  ∃ i, rollupDate (cs i).now (cs i).targetDate = .ok date

variable {d : Database}

theorem service_keeps {days : Day → Prop} (c : RollupCall)
    (hd : ∀ date, rollupDate c.now c.targetDate = .ok date → days date) :
    c.service.Keeps (Rolls days) d (fun n _ d' => ∀ date, rollupDate c.now c.targetDate = .ok date →
      n = (figuresByUser d' date).length ∧ ∀ r ∈ figuresByUser d' date, HasFigures r.1 date d') [] d := by
  apply Keeps.bind
  apply Keeps.ofExcept
  intro date hdate
  apply Keeps.bind
  refine Keeps.select fun d₁ h₁ _ => ?_
  refine rollupUsers_keeps c.ids _ [] 0 (hd date hdate) (fun _ hr => hr) nofun fun d' h₂ hs => ?_
  rintro date' hdate'
  cases hdate.symm.trans hdate'
  have hg : figuresByUser d' date = figuresByUser d₁ date := by
    rw [h₂.others]
    rfl
  rw [hg]
  exact ⟨Nat.zero_add _, by simpa using hs⟩

end RollupCall

variable {ι : Type} [Fintype ι] [DecidableEq ι]

-- However many rollups of whichever days overlap, and whichever of them fail: as soon as one has
-- returned, the figures of its day are right, and remain right. All other rows are left alone.
theorem concurrent_rollups (d : Database) (cs : ι → RollupCall) (as bs : List (Action ι Exn)) (i : ι)
    (n : Nat) (date : Day) (hd : Indexed d)
    (hdate : rollupDate (cs i).now (cs i).targetDate = .ok date)
    (h : ((System.start d fun i => (cs i).service).run as).Returned i n) :
    let d' := ((System.start d fun i => (cs i).service).run (as ++ bs)).db
    n = (figuresByUser d date).length ∧
    (∀ user, logsOf d user date ≠ [] →
      usageFigures d' user date = some (figures <| logsOf d user date)) ∧
    (∀ u ∈ d'.dailyUsage, u ∈ d.dailyUsage ∨ RollupCall.Includes cs u.date ∧ u.IsRolledUp d) ∧
    (∀ u ∈ d.dailyUsage, ∃ u' ∈ d'.dailyUsage, u'.id = u.id ∧ u'.userId = u.userId ∧ u'.date = u.date) ∧
    d' = { d with dailyUsage := d'.dailyUsage } := by
  intro d'
  have hk : ∀ i, (cs i).service.Keeps (Rolls <| RollupCall.Includes cs) d (fun n _ d' => ∀ date,
      rollupDate (cs i).now (cs i).targetDate = .ok date →
      n = (figuresByUser d' date).length ∧ ∀ r ∈ figuresByUser d' date, HasFigures r.1 date d') [] d :=
    fun i => (cs i).service_keeps fun date hd => ⟨i, hd⟩
  have hs : Rolls (RollupCall.Includes cs) d d' :=
    System.run_related (fun i => (hk i).mono fun _ _ _ _ _ => trivial) [] (as ++ bs)
  have hg : figuresByUser d' date = figuresByUser d date := by
    rw [hs.others]
    rfl
  have ⟨hn, hr⟩ := System.run_returned hk (fun i n d d' hs h date hd => by
    have hg : figuresByUser d' date = figuresByUser d date := by
      rw [hs.others]
      rfl
    rw [hg]
    exact ⟨(h date hd).left, fun r hr => hs.hasFigures <| (h date hd).right r hr⟩) as bs h date hdate
  refine ⟨hg ▸ hn, fun user hl => ?_, hs.figures, hs.kept, hs.others⟩
  obtain ⟨u, hu, hus, hud, huf⟩ := hr (user, figures <| logsOf d user date) <|
    hg.symm ▸ mem_figuresByUser.mpr ⟨hl, rfl⟩
  have hq : UniqueUsage d' := by
    intro a ha b hb h₁ h₂
    have he : Row.dailyUsage a = .dailyUsage b := by
      refine hs.indexed hd _ (Database.dailyUsage_mem_rows.mpr ha) _ (Database.dailyUsage_mem_rows.mpr hb)
        (.usageDay a.userId a.date) (List.mem_singleton_self _) ?_
      exact List.mem_singleton.mpr <| by rw [h₁, h₂]
    cases he
    rfl
  rw [usageFigures, (findUsage_eq_some hq).mpr ⟨hu, hus, hud⟩, Option.map_some, huf, hs.logsOf_eq]

section Example

def failedLog : RequestLog where
  id         := 1
  userId     := some 1
  apiKeyId   := none
  method     := "GET"
  path       := "/api/v1/users/me/"
  statusCode := 500
  responseMs := 12
  ipAddress  := none
  userAgent  := ""
  createdAt  := .midnight 739000

def failedLogs : Database :=
  Database.empty.put <| .requestLog failedLog

theorem failedLogs_indexed : Indexed failedLogs := by
  intro r hr
  cases List.mem_singleton.mp hr
  simp [Entity.entries, Row.entries]

def overlappingRollup (i : Nat) : RollupCall :=
  ⟨.midnight 739001, some failedLog.createdAt.day, fun user => 10 * i + user⟩

-- Both rollups look for the row of the user before one of them creates it.
theorem rolled_up_by_both :
    let d' := ((System.start failedLogs fun i : Fin 2 => (overlappingRollup i).service).run
      ((.replicate 4 (.go 1) ++ .replicate 20 (.go 0)) ++ .replicate 20 (.go 1))).db
    let date := failedLog.createdAt.day
    ∀ user, logsOf failedLogs user date ≠ [] →
      usageFigures d' user date = some (figures <| logsOf failedLogs user date) := by
  intro d' date
  refine (concurrent_rollups failedLogs (fun i : Fin 2 => overlappingRollup i) _ _ 0 1 date
    failedLogs_indexed ?_ ?_).right.left
  · rfl
  · decide +kernel

end Example
end SaasBackend
