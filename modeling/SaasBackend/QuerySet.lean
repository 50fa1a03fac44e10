import SaasBackend.Statements

open ReadCommitted ReadCommitted.Session ReadCommitted.Service

-- The methods of query sets which create a row unless there is one already.
namespace SaasBackend.QuerySet

open Service

variable {R : Type} [Entity R Key]

-- `select_for_update().get_or_create(...)`, where `find` looks for the row. It looks again if the row
-- has been created in the meantime.
def getOrCreate (row : R → Row) (find : Database → Option R) (new : R) : Service (R × Bool) := do
  match ← selectForUpdate row find with
  | some r => return (r, false)
  | none   =>
    handle
      (atomic do
        create <| row new
        return (new, true))
      fun
        | .integrityError => do
          match ← selectForUpdate row find with
          | some r => return (r, false)
          | none   => raise .integrityError
        | e               => raise e

-- `update_or_create(...)`, where `assign` sets the defaults.
def updateOrCreate (table : Database → Table R) (row : R → Row) (find : Database → Option R) (new : R)
    (assign : R → R) : Service (R × Bool) :=
  atomic do
    let (r, created) ← getOrCreate row find new
    if created then return (r, true)
    else do
      save table row (Entity.key r) assign
      return (assign r, false)

section Keeps

variable {α : Type} {P : Database → Database → Prop} [Std.Refl P] [IsTrans Database P]
  {d₀ d : Database} {f : List Write} {fs : List (List Write)}

-- A row is inserted inside of a block of its own, and if this fails the transaction goes on.
theorem create_or_keeps {r : Row} {a : α} {h : Exn → Service α}
    {Q : α → List (List Write) → Database → Prop}
    (hc : ∀ d', P d d' → Valid d' (uncommitted (f :: fs) ++ [⟨none, r⟩]) →
      Q a ((f ++ [⟨none, r⟩]) :: fs) d')
    (hh : ∀ e d', P d d' → (h e).Keeps P d' Q (f :: fs) d') :
    (handle (atomic do create r; return a) h).Keeps P d₀ Q (f :: fs) d := by
  constructor
  intro hp hv d' hi
  have hi : Interference (Commit P) (heldBy (D := Database) (f :: fs)) d d' := by
    simpa [heldBy] using hi
  have hp' : P d d' := hi.related
  have hv : Valid d' (uncommitted (f :: fs)) := hi.valid hv
  have hf : ∀ e, (h e).program.Safe (Commit P)
      (fun a fs' d' => P d₀ d' ∧ Valid d' (uncommitted fs') ∧ Q a fs' d') (fun _ _ d' => P d₀ d')
      (f :: fs) d' :=
    fun e => ((hh e d' hp').rebase.safe (Std.Refl.refl d') hv).mono
      (fun _ _ _ h => ⟨Trans.trans (Trans.trans hp hp') h.left, h.right⟩)
      (fun _ _ _ h => Trans.trans (Trans.trans hp hp') h)
  refine ⟨hf, fun hc' => ⟨?_, hf⟩⟩
  have hv' : Valid d' (uncommitted (f :: fs) ++ [⟨none, r⟩]) :=
    Valid.append.mpr ⟨hv, by simpa using honest_insert r _ hc'⟩
  exact ⟨Trans.trans hp hp', by simpa using hv', by simpa using hc d' hp' hv'⟩

variable {table : Database → Table R} {row : R → Row} [ht : IsTable table row] {M : R → Prop}
  {find : Database → Option R} {new : R} {assign : R → R}

-- A row that is found is locked for the rest of the transaction.
theorem getOrCreate_keeps {Q : R × Bool → List (List Write) → Database → Prop}
    (hq : ∀ d r, find d = some r → r ∈ table d ∧ M r)
    (hf : ∀ d' r, P d d' → M r → Valid d' (uncommitted (f :: fs) ++ [⟨some <| row r, row r⟩]) →
      Q (r, false) ((f ++ [⟨some <| row r, row r⟩]) :: fs) d')
    (hc : ∀ d', P d d' → Valid d' (uncommitted (f :: fs) ++ [⟨none, row new⟩]) →
      Q (new, true) ((f ++ [⟨none, row new⟩]) :: fs) d') :
    (getOrCreate row find new).Keeps P d₀ Q (f :: fs) d := by
  have ho : Honest fun d => ((find d).map fun r => (⟨some <| row r, row r⟩ : Write)).toList :=
    honest_selectForUpdate fun d r hr => (hq d r hr).left
  apply Keeps.bind
  refine Keeps.stmt ho fun d₁ a hp₁ hv₁ ha => ?_
  cases a
  case some r =>
    have hr := Except.ok.inj ha
    have hw : ((find <| Store.applyAll d₁ (uncommitted (f :: fs))).map fun r =>
        (⟨some <| row r, row r⟩ : Write)).toList = [⟨some <| row r, row r⟩] := by rw [hr]; rfl
    rw [hw] at hv₁ ⊢
    exact Keeps.pure <| hf d₁ r hp₁ (hq _ r hr).right hv₁
  case none   =>
    have hr := Except.ok.inj ha
    have hw : ((find <| Store.applyAll d₁ (uncommitted (f :: fs))).map fun r =>
        (⟨some <| row r, row r⟩ : Write)).toList = [] := by rw [hr]; rfl
    rw [hw, List.append_nil]
    refine create_or_keeps (fun d₂ hp₂ => hc d₂ <| Trans.trans hp₁ hp₂) fun e d₂ hp₂ => ?_
    cases e
    case integrityError =>
      apply Keeps.bind
      refine Keeps.stmt ho fun d₃ a hp₃ hv₃ ha => ?_
      cases a
      case none   => exact Keeps.raise
      case some r =>
        have hr := Except.ok.inj ha
        have hw : ((find <| Store.applyAll d₃ (uncommitted (f :: fs))).map fun r =>
            (⟨some <| row r, row r⟩ : Write)).toList = [⟨some <| row r, row r⟩] := by rw [hr]; rfl
        rw [hw] at hv₃ ⊢
        have hp : P d d₃ := Trans.trans hp₁ <| Trans.trans hp₂ hp₃
        exact Keeps.pure <| hf d₃ r hp (hq _ r hr).right hv₃
    all_goals exact Keeps.raise

-- The row that is locked is the one which is updated.
theorem eq_of_locked {d : Database} {r r' : R} (hk : Entity.key r' = Entity.key r)
    (hv : Valid d [⟨some <| row r, row r⟩, ⟨some <| row r', row <| assign r'⟩]) :
    r' = r ∧ r ∈ table d ∧ Accepts d ⟨some <| row r, row <| assign r⟩ := by
  have hm := (accepts_old hv.left).left
  have hd : d.put (row r) = d := Database.put_of_mem <| ht.mem_rows.mpr hm
  have ha : Accepts d ⟨some <| row r', row <| assign r'⟩ := hd ▸ hv.right.left
  have he : r' = r := Table.eq_of_key (accepts_old ha).left hm hk
  subst he
  exact ⟨rfl, hm, ha⟩

-- Either one row is inserted, or one row that matches is updated.
theorem updateOrCreate_keeps {Q : R × Bool → List (List Write) → Database → Prop}
    (hq : ∀ d r, find d = some r → r ∈ table d ∧ M r) (hg : ∀ r, Entity.key (assign r) = Entity.key r)
    (hu : ∀ d' r, P d d' → M r → r ∈ table d' → Accepts d' ⟨some <| row r, row <| assign r⟩ →
      P d' (d'.put <| row <| assign r) ∧ Q (assign r, false) [] (d'.put <| row <| assign r))
    (hc : ∀ d', P d d' → Accepts d' ⟨none, row new⟩ →
      P d' (d'.put <| row new) ∧ Q (new, true) [] (d'.put <| row new)) :
    (updateOrCreate table row find new assign).Keeps P d₀ Q [] d := by
  refine Keeps.rebase <| Keeps.atomic <| Keeps.bind ?_
  refine getOrCreate_keeps hq (fun d₁ r hp₁ hm _ => ?_) fun d₁ hp₁ _ => ?_
  · refine Keeps.bind <| Keeps.save hg fun d₂ r' hp₂ _ hk => Keeps.pure fun f hf d₃ hp₃ hv => ?_
    cases hf
    have hv : Valid d₃ [⟨some <| row r, row r⟩, ⟨some <| row r', row <| assign r'⟩] := hv
    obtain ⟨he, hr, ha⟩ := eq_of_locked hk hv
    subst he
    have hd : Store.applyAll d₃ [⟨some <| row r', row r'⟩, ⟨some <| row r', row <| assign r'⟩] =
        d₃.put (row <| assign r') := by
      change (d₃.put (row r')).put (row <| assign r') = _
      rw [Database.put_of_mem <| ht.mem_rows.mpr hr]
    rw [show ([] ++ [⟨some <| row r', row r'⟩] ++ [⟨some <| row r', row <| assign r'⟩] : List Write) =
      [⟨some <| row r', row r'⟩, ⟨some <| row r', row <| assign r'⟩] from rfl, hd]
    exact hu d₃ r' (Trans.trans hp₁ <| Trans.trans hp₂ hp₃) hm hr ha
  · refine Keeps.pure fun f hf d₂ hp₂ hv => ?_
    cases hf
    exact hc d₂ (Trans.trans hp₁ hp₂) hv.left

end Keeps

section Run

variable {table : Database → Table R} {row : R → Row} [ht : IsTable table row] {d : Database}
  {find : Database → Option R} {new r : R} {assign : R → R}

theorem selectForUpdate_run (h : ∀ r, find d = some r → r ∈ table d ∧ (row r).fits) :
    (selectForUpdate row find).run d = (.ok (find d), d) := by
  refine run_stmt_eq_ok.mpr ⟨?_, rfl, ?_⟩ <;> cases hr : find d
  case refine_1.none   => rfl
  case refine_1.some r =>
    exact (Store.check_singleton ..).trans <| violation_replace (h r hr).right (List.Subset.refl _) d
  case refine_2.none   => rfl
  case refine_2.some r => exact Database.put_of_mem <| ht.mem_rows.mpr (h r hr).left

theorem updateOrCreate_run_of_some (h : find d = some r) (hm : r ∈ table d) (hf : (row r).fits)
    (hf' : (row <| assign r).fits) (he : Entity.entries (assign r) ⊆ Entity.entries r) :
    (updateOrCreate table row find new assign).run d =
      (.ok (assign r, false), d.put <| row <| assign r) := by
  have hs : (selectForUpdate row find).run d = (.ok (some r), d) := by
    rw [selectForUpdate_run fun r' hr => Option.some.inj (h.symm.trans hr) ▸ ⟨hm, hf⟩, h]
  refine run_atomic_eq_ok.mpr <| run_bind_eq_ok.mpr ⟨(r, false), d, ?_, ?_⟩
  · exact run_bind_eq_ok.mpr ⟨some r, d, hs, rfl⟩
  · have hl : (table d).lookup (Entity.key r) = some r := Table.lookup_eq_some.mpr ⟨hm, rfl⟩
    exact run_bind_eq_ok.mpr ⟨(), _, run_save hl hf' he, rfl⟩

theorem updateOrCreate_run_of_none (h : find d = none) (hf : (row new).fits)
    (hk : ∀ r ∈ table d, Entity.key r ≠ Entity.key new)
    (he : ∀ r ∈ table d, ∀ k ∈ Entity.entries new, k ∉ Entity.entries r) :
    (updateOrCreate table row find new assign).run d = (.ok (new, true), d.put <| row new) := by
  have hs : (selectForUpdate row find).run d = (.ok none, d) := by
    rw [selectForUpdate_run fun r hr => by simp [h] at hr, h]
  have hc : (atomic do create <| row new; return (new, true)).run d = (.ok (new, true), d.put <| row new) :=
    run_atomic_eq_ok.mpr <| run_bind_eq_ok.mpr ⟨(), _, run_create_of_fits hf hk he, rfl⟩
  refine run_atomic_eq_ok.mpr <| run_bind_eq_ok.mpr ⟨(new, true), d.put <| row new, ?_, rfl⟩
  refine run_bind_eq_ok.mpr ⟨none, d, hs, ?_⟩
  exact (run_handle ..).trans <| by rw [hc]

end Run
end SaasBackend.QuerySet
