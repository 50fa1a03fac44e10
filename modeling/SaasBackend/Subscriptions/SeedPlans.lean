import SaasBackend.QuerySet
import SaasBackend.ReadCommitted.Evolution
import SaasBackend.ReadCommitted.Outcome
import SaasBackend.Subscriptions.Seed

open ReadCommitted ReadCommitted.Service

namespace SaasBackend

open Service

-- The command `seed_plans`, which is run whenever a container starts.
namespace SeedPlans

-- The list `PLANS`. Its ids are not part of it.
def plans : List Plan :=
  [Seed.free, Seed.pro, Seed.enterprise]

-- The defaults of `update_or_create`.
def assign (spec p : Plan) : Plan :=
  { p with
    requestQuota       := spec.requestQuota
    rateLimitPerMinute := spec.rateLimitPerMinute
    maxApiKeys         := spec.maxApiKeys
    durationDays       := spec.durationDays
    features           := spec.features
    isActive           := true }

def findPlan (d : Database) (slug : String) : Option Plan :=
  d.plans.rows.find? fun p => p.slug = slug

def updateOrCreatePlan (spec : Plan) (id : Uuid) : Service (Plan × Bool) :=
  QuerySet.updateOrCreate Database.plans .plan (findPlan · spec.slug) (assign spec { spec with id := id })
    (assign spec)

def seed (ids : String → Uuid) : List Plan → (created updated : Nat) → Service (Nat × Nat)
  | [],            created, updated => return (created, updated)
  | spec :: specs, created, updated => do
    let (_, wasCreated) ← updateOrCreatePlan spec (ids spec.slug)
    if wasCreated then seed ids specs (created + 1) updated else seed ids specs created (updated + 1)

-- `Command.handle`, where `ids` are the generated ids.
def handle (ids : String → Uuid) : Service (Nat × Nat) :=
  seed ids plans 0 0

-- A plan with this slug has the values that are given for it.
def IsSeeded (spec : Plan) (d : Database) : Prop :=
  ∃ p ∈ d.plans, p.slug = spec.slug ∧ assign spec p = p

-- How the command may change the database. Plans keep their ids, for which subscriptions refer to
-- them, and those with other slugs are not touched.
structure Seeds (d d' : Database) : Prop where
  others  : d' = { d with plans := d'.plans }
  kept    : ∀ p ∈ d.plans, ∃ p' ∈ d'.plans, p'.id = p.id ∧ p'.slug = p.slug ∧
              (p.slug ∉ plans.map (·.slug) → p' = p)
  seeded  : ∀ spec ∈ plans, IsSeeded spec d → IsSeeded spec d'
  indexed : Indexed d → Indexed d'

instance : Std.Refl Seeds where
  refl _ := ⟨rfl, fun p hp => ⟨p, hp, rfl, rfl, fun _ => rfl⟩, fun _ _ => id, id⟩

instance : IsTrans Database Seeds where
  trans d₁ d₂ d₃ h₁ h₂ := {
    others          := by
      have ho := h₁.others
      have ho' := h₂.others
      rw [ho] at ho'
      exact ho'
    kept p hp       := by
      have ⟨p₂, hp₂, hi₂, hs₂, he₂⟩ := h₁.kept p hp
      have ⟨p₃, hp₃, hi₃, hs₃, he₃⟩ := h₂.kept p₂ hp₂
      refine ⟨p₃, hp₃, hi₃.trans hi₂, hs₃.trans hs₂, fun hn => ?_⟩
      exact (he₃ <| hs₂ ▸ hn).trans <| he₂ hn
    seeded spec hs  := h₂.seeded spec hs ∘ h₁.seeded spec hs
    indexed         := h₂.indexed ∘ h₁.indexed
  }

variable {spec p : Plan} {d d' : Database}

theorem plans_slug_injective : ∀ s ∈ plans, ∀ s' ∈ plans, s.slug = s'.slug → s = s' := by
  simp [plans, Seed.free, Seed.pro, Seed.enterprise, PlanSlug.free, PlanSlug.pro, PlanSlug.enterprise]

theorem assign_assign (spec p : Plan) : assign spec (assign spec p) = assign spec p :=
  rfl

theorem findPlan_mem (h : findPlan d spec.slug = some p) : p ∈ d.plans ∧ p.slug = spec.slug :=
  ⟨List.mem_of_find?_eq_some h, by simpa using List.find?_some h⟩

-- A plan is written with the values that are given for its slug.
theorem Seeds.put {o : Option Row} (hs : spec ∈ plans) (hp : p.slug = spec.slug)
    (ha : assign spec p = p) (ho : ∀ r ∈ d.plans, r.id = p.id → r.slug = p.slug)
    (h : Accepts d ⟨o, .plan p⟩) : Seeds d (d.put <| .plan p) := by
  have hm : p ∈ (d.put <| .plan p).plans := Table.mem_put_self ..
  have hn : ∀ r ∈ d.plans, r.id ≠ p.id → r ∈ (d.put <| .plan p).plans :=
    fun r hr hi => Table.mem_put_of_ne hr fun hk => hi <| Key.plan.inj hk
  constructor
  case others   => rfl
  case indexed  => exact fun hd => Indexed.put (w := ⟨o, .plan p⟩) hd h
  case kept     =>
    intro r hr
    by_cases hi : r.id = p.id
    case neg => exact ⟨r, hn r hr hi, rfl, rfl, fun _ => rfl⟩
    case pos =>
      refine ⟨p, hm, hi.symm, (ho r hr hi).symm, fun hc => (hc ?_).elim⟩
      rw [ho r hr hi, hp]
      exact List.mem_map_of_mem hs
  case seeded   =>
    rintro s hs' ⟨r, hr, hsl, hra⟩
    by_cases hi : r.id = p.id
    case neg => exact ⟨r, hn r hr hi, hsl, hra⟩
    case pos =>
      have he : s.slug = spec.slug := hsl.symm.trans <| (ho r hr hi).trans hp
      have he : s = spec := plans_slug_injective s hs' spec hs he
      exact ⟨p, hm, he ▸ hp, he ▸ ha⟩

variable {d₀ : Database} {Q : Nat × Nat → List (List Write) → Database → Prop}

-- A single plan is in place once its update has been committed.
theorem updateOrCreatePlan_keeps {Q : Plan × Bool → List (List Write) → Database → Prop} (id : Uuid)
    (hs : spec ∈ plans)
    (h : ∀ d' x, Seeds d d' → IsSeeded spec d' → Q x [] d') :
    (updateOrCreatePlan spec id).Keeps Seeds d₀ Q [] d := by
  refine QuerySet.updateOrCreate_keeps (M := (·.slug = spec.slug)) (fun d r hr => findPlan_mem hr)
    (fun _ => rfl) (fun d₁ r h₁ hm hr ha => ?_) fun d₁ h₁ ha => ?_
  · have hp : Seeds d₁ (d₁.put <| .plan <| assign spec r) := by
      refine .put hs hm (assign_assign ..) (fun r' hr' hi => ?_) ha
      have he : r' = r := Table.eq_of_key hr' hr <| congrArg Key.plan hi
      exact he ▸ rfl
    exact ⟨hp, h _ _ (Trans.trans h₁ hp) ⟨_, Table.mem_put_self .., hm, assign_assign ..⟩⟩
  · have hp : Seeds d₁ (d₁.put <| .plan <| assign spec { spec with id := id }) := by
      refine .put hs rfl (assign_assign ..) (fun r' hr' hi => ?_) ha
      exact (accepts_new ha r' hr' <| congrArg Key.plan hi).elim
    exact ⟨hp, h _ _ (Trans.trans h₁ hp) ⟨_, Table.mem_put_self .., rfl, assign_assign ..⟩⟩

-- By induction on the plans that are left, where those before them remain in place.
theorem seed_keeps (ids : String → Uuid) (specs done : List Plan) (created updated : Nat)
    (hs : ∀ s ∈ specs, s ∈ plans) (hd : ∀ s ∈ done, s ∈ plans) (h : ∀ s ∈ done, IsSeeded s d)
    (hq : ∀ d' c u, Seeds d d' → c + u = created + updated + specs.length →
      (∀ s ∈ done ++ specs, IsSeeded s d') → Q (c, u) [] d') :
    (seed ids specs created updated).Keeps Seeds d₀ Q [] d := by
  induction specs generalizing done created updated d
  case nil => exact Keeps.pure <| hq d created updated (Std.Refl.refl d) rfl <| by simpa using h
  case cons s specs ih =>
    apply Keeps.bind
    refine updateOrCreatePlan_keeps _ (hs s List.mem_cons_self) fun d₁ x h₁ hx => ?_
    have hd₁ : ∀ r ∈ done ++ [s], r ∈ plans := by
      simpa [or_imp, forall_and] using ⟨hd, hs s List.mem_cons_self⟩
    have hs₁ : ∀ r ∈ done ++ [s], IsSeeded r d₁ := by
      intro r hr
      cases List.mem_append.mp hr
      case inl hr => exact h₁.seeded r (hd r hr) (h r hr)
      case inr hr => exact List.mem_singleton.mp hr ▸ hx
    have hq₁ : ∀ n d' c u, Seeds d₁ d' → c + u = created + updated + 1 + specs.length → n = () →
        (∀ r ∈ done ++ [s] ++ specs, IsSeeded r d') → Q (c, u) [] d' := by
      intro _ d' c u h₂ hc _ hr
      refine hq d' c u (Trans.trans h₁ h₂) (by simp [hc]; omega) ?_
      simpa using hr
    obtain ⟨p, wasCreated⟩ := x
    cases wasCreated
    case true   =>
      refine ih (done ++ [s]) (created + 1) updated (fun r hr => hs r <| List.mem_cons_of_mem _ hr) hd₁ hs₁ ?_
      exact fun d' c u h₂ hc hr => hq₁ () d' c u h₂ (by omega) rfl hr
    case false  =>
      refine ih (done ++ [s]) created (updated + 1) (fun r hr => hs r <| List.mem_cons_of_mem _ hr) hd₁ hs₁ ?_
      exact fun d' c u h₂ hc hr => hq₁ () d' c u h₂ (by omega) rfl hr

theorem eq_of_slug (hd : Indexed d) {r : Plan} (hr : r ∈ d.plans) (hp : p ∈ d.plans)
    (h : r.slug = p.slug) : r = p := by
  have he : Row.plan r = .plan p := by
    refine hd _ (Database.plan_mem_rows.mpr hr) _ (Database.plan_mem_rows.mpr hp) (.planSlug r.slug) ?_ ?_
    · exact List.mem_singleton_self _
    · exact List.mem_singleton.mpr <| congrArg Key.planSlug h
  cases he
  rfl

theorem getPlanBySlug_of_isSeeded (hd : Indexed d) (h : IsSeeded spec d) :
    ∃ p, getPlanBySlug d spec.slug = some p ∧ assign spec p = p := by
  obtain ⟨p, hp, hs, ha⟩ := h
  have hac : p.isActive := by rw [←ha]; rfl
  cases hf : getPlanBySlug d spec.slug
  case none   => simpa [hs, hac] using List.find?_eq_none.mp hf p hp
  case some r =>
    have ⟨hr, hrs, _⟩ := getPlanBySlug_eq_some hf
    exact ⟨r, rfl, eq_of_slug hd hr hp (hrs.trans hs.symm) ▸ ha⟩

section Run

-- The number of plans that are not there yet.
def missing (specs : List Plan) (d : Database) : Nat :=
  specs.countP fun spec => (findPlan d spec.slug).isNone

-- What an update of one plan finds and leaves behind.
structure Updates (spec : Plan) (id : Uuid) (d : Database) (p : Plan) (created : Bool) : Prop where
  run     : (updateOrCreatePlan spec id).run d = (.ok (p, created), d.put <| .plan p)
  seeds   : Seeds d (d.put <| .plan p)
  slug    : p.slug = spec.slug
  values  : assign spec p = p
  created : created = (findPlan d spec.slug).isNone
  id      : p.id = id ∨ p.id ∈ d.plans.rows.map (·.id)

theorem fits_of_mem (hs : spec ∈ plans) (hp : p.slug = spec.slug) : (Row.plan p).fits := by
  have h : ∀ s ∈ plans, s.slug.length ≤ 64 := by decide +kernel
  simpa [Row.fits, hp] using h spec hs

theorem updateOrCreatePlan_updates {id : Uuid} (hs : spec ∈ plans) (hi : ∀ r ∈ d.plans, r.id ≠ id) :
    ∃ p created, Updates spec id d p created := by
  cases hf : findPlan d spec.slug
  case some p =>
    have ⟨hp, hsl⟩ := findPlan_mem hf
    have ha : Accepts d (⟨some <| .plan p, .plan <| assign spec p⟩ : Write) :=
      ⟨fun o ho => Option.some.inj ho ▸ ⟨Database.plan_mem_rows.mpr hp, rfl⟩, nofun,
        fun r hr _ k hk => by simp [Put.mem_added, Row.entries, Entity.entries, assign] at hk⟩
    refine ⟨assign spec p, false, ?_, ?_, hsl, assign_assign .., ?_, ?_⟩
    · exact QuerySet.updateOrCreate_run_of_some hf hp (fits_of_mem hs hsl) (fits_of_mem hs hsl)
        (List.Subset.refl _)
    · refine .put hs hsl (assign_assign ..) (fun r hr hi => ?_) ha
      have he : r = p := Table.eq_of_key hr hp <| congrArg Key.plan hi
      exact he ▸ rfl
    · simp [hf]
    · exact .inr <| List.mem_map.mpr ⟨p, hp, rfl⟩
  case none   =>
    have hn : ∀ r ∈ d.plans, r.slug ≠ spec.slug := by simpa [findPlan, Table.mem_rows] using hf
    have hk : ∀ r ∈ d.plans, Entity.key r ≠ Entity.key (assign spec { spec with id := id }) :=
      fun r hr hk => hi r hr <| Key.plan.inj hk
    have he : ∀ r ∈ d.plans, ∀ k ∈ Entity.entries (assign spec { spec with id := id }),
        k ∉ Entity.entries r := by
      intro r hr k hk hk'
      exact hn r hr <| Key.planSlug.inj <| (List.mem_singleton.mp hk').symm.trans <| List.mem_singleton.mp hk
    have hf' : (Row.plan <| assign spec { spec with id := id }).fits := fits_of_mem hs rfl
    have hr : (updateOrCreatePlan spec id).run d = (.ok (assign spec { spec with id := id }, true),
        d.put <| .plan <| assign spec { spec with id := id }) :=
      QuerySet.updateOrCreate_run_of_none hf hf' hk he
    have ha := (run_create_eq_ok <| run_create_of_fits hf' hk he).left
    refine ⟨assign spec { spec with id := id }, true, hr, ?_, rfl, assign_assign .., ?_, .inl rfl⟩
    · refine .put hs rfl (assign_assign ..) (fun r hr hi' => (hi r hr hi').elim) ha
    · simp [hf]

theorem findPlan_isNone_iff {slug : String} :
    (findPlan d slug).isNone ↔ ∀ r ∈ d.plans, r.slug ≠ slug := by
  simp [findPlan, Table.mem_rows]

-- The other plans are neither found nor missed because of an update.
theorem Updates.findPlan_isNone {id : Uuid} {created : Bool} (h : Updates spec id d p created)
    {slug : String} (hn : slug ≠ spec.slug) :
    (findPlan (d.put <| .plan p) slug).isNone = (findPlan d slug).isNone := by
  rw [Bool.eq_iff_iff, findPlan_isNone_iff, findPlan_isNone_iff]
  constructor
  case mp   =>
    intro hr r hm hs
    have ⟨r', hm', _, hs', _⟩ := h.seeds.kept r hm
    exact hr r' hm' <| hs'.trans hs
  case mpr  =>
    intro hr r hm hs
    cases Table.mem_put.mp hm
    case inl he => exact hn <| hs.symm.trans <| he ▸ h.slug
    case inr hm => exact hr r hm.left hs

-- The ids which are generated are not in use, and differ from each other.
structure AreFresh (ids : String → Uuid) (specs : List Plan) (d : Database) : Prop where
  unused    : ∀ s ∈ specs, ∀ r ∈ d.plans, r.id ≠ ids s.slug
  distinct  : specs.Pairwise fun s s' => ids s.slug ≠ ids s'.slug

theorem AreFresh.update {ids : String → Uuid} {specs : List Plan} {created : Bool}
    (hf : AreFresh ids (spec :: specs) d) (h : Updates spec (ids spec.slug) d p created) :
    AreFresh ids specs (d.put <| .plan p) where
  distinct        := (List.pairwise_cons.mp hf.distinct).right
  unused s hs r hr := by
    cases Table.mem_put.mp hr
    case inr hr => exact hf.unused s (List.mem_cons_of_mem _ hs) r hr.left
    case inl hr =>
      rw [hr]
      cases h.id
      case inl hi => exact hi ▸ (List.pairwise_cons.mp hf.distinct).left s hs
      case inr hi =>
        have ⟨r', hr', hi'⟩ := List.mem_map.mp hi
        exact hi' ▸ hf.unused s (List.mem_cons_of_mem _ hs) r' hr'

-- A serial run creates the plans that are missing, and updates the others.
theorem seed_run (ids : String → Uuid) (specs : List Plan) (created updated : Nat)
    (hs : ∀ s ∈ specs, s ∈ plans) (hd : specs.Pairwise (·.slug ≠ ·.slug)) (hf : AreFresh ids specs d) :
    ∃ d', (seed ids specs created updated).run d =
        (.ok (created + missing specs d, updated + (specs.length - missing specs d)), d') ∧
      Seeds d d' ∧ ∀ s ∈ specs, IsSeeded s d' := by
  induction specs generalizing created updated d
  case nil                => exact ⟨d, rfl, Std.Refl.refl d, nofun⟩
  case cons spec specs ih =>
    have ⟨hd₁, hd₂⟩ := List.pairwise_cons.mp hd
    have ⟨p, c, hu⟩ := updateOrCreatePlan_updates (hs spec List.mem_cons_self)
      (hf.unused spec List.mem_cons_self)
    have hs' : ∀ s ∈ specs, s ∈ plans := fun s hm => hs s <| List.mem_cons_of_mem _ hm
    have hm : missing specs (d.put <| .plan p) = missing specs d :=
      List.countP_congr fun s hm => by rw [hu.findPlan_isNone (hd₁ s hm).symm]
    have hl : missing specs d ≤ specs.length := List.countP_le_length
    have hc : missing (spec :: specs) d = missing specs d + if c then 1 else 0 := by
      rw [missing, List.countP_cons, hu.created]
      rfl
    have hp : IsSeeded spec (d.put <| .plan p) := ⟨p, Table.mem_put_self .., hu.slug, hu.values⟩
    cases c
    case true   =>
      have ⟨d', hr, hse, hi⟩ := ih (created + 1) updated hs' hd₂ (hf.update hu)
      refine ⟨d', run_bind_eq_ok.mpr ⟨(p, true), _, hu.run, ?_⟩, Trans.trans hu.seeds hse, ?_⟩
      · refine hr.trans ?_
        rw [hm, hc, List.length_cons]
        simp only [if_true]
        congr 3
        all_goals omega
      · exact List.forall_mem_cons.mpr ⟨hse.seeded spec (hs spec List.mem_cons_self) hp, hi⟩
    case false  =>
      have ⟨d', hr, hse, hi⟩ := ih created (updated + 1) hs' hd₂ (hf.update hu)
      refine ⟨d', run_bind_eq_ok.mpr ⟨(p, false), _, hu.run, ?_⟩, Trans.trans hu.seeds hse, ?_⟩
      · refine hr.trans ?_
        rw [hm, hc, List.length_cons]
        simp only [Bool.false_eq_true, if_false]
        congr 3
        omega
      · exact List.forall_mem_cons.mpr ⟨hse.seeded spec (hs spec List.mem_cons_self) hp, hi⟩

-- Plans that are in place are written as they are.
theorem seed_run_of_isSeeded (hd : Indexed d) (ids : String → Uuid) (specs : List Plan)
    (created updated : Nat) (hs : ∀ s ∈ specs, s ∈ plans) (hi : ∀ s ∈ specs, IsSeeded s d) :
    (seed ids specs created updated).run d = (.ok (created, updated + specs.length), d) := by
  induction specs generalizing updated
  case nil                => rfl
  case cons spec specs ih =>
    have ⟨hp, hi⟩ := List.forall_mem_cons.mp hi
    have ⟨hs, hs'⟩ := List.forall_mem_cons.mp hs
    obtain ⟨p, hp, hsl, ha⟩ := hp
    have hf : findPlan d spec.slug = some p := by
      cases hf : findPlan d spec.slug
      case none   => simpa [hsl] using List.find?_eq_none.mp hf p hp
      case some r =>
        have ⟨hr, hrs⟩ := findPlan_mem hf
        rw [eq_of_slug hd hr hp <| hrs.trans hsl.symm]
    have hr : (updateOrCreatePlan spec (ids spec.slug)).run d =
        (.ok (assign spec p, false), d.put <| .plan <| assign spec p) := by
      have hf' : (Row.plan p).fits := fits_of_mem hs hsl
      exact QuerySet.updateOrCreate_run_of_some hf hp hf' (ha.symm ▸ hf') (List.Subset.refl _)
    rw [ha, Database.put_of_mem <| Database.plan_mem_rows.mpr hp] at hr
    refine run_bind_eq_ok.mpr ⟨(p, false), d, hr, (ih (updated + 1) hs' hi).trans ?_⟩
    rw [List.length_cons, Nat.add_right_comm, Nat.add_assoc]

end Run
end SeedPlans

open SeedPlans

variable {ι : Type} [Fintype ι] [DecidableEq ι]

section Example

def exampleIds (i : Nat) (slug : String) : Uuid :=
  20 * i + slug.length

theorem empty_indexed : Indexed Database.empty := by
  intro r hr
  cases (show r ∈ [] from hr)

end Example

section Example

end Example

end SaasBackend
