import SaasBackend.Database
import SaasBackend.ReadCommitted.Commit
import SaasBackend.ReadCommitted.Issues

open ReadCommitted ReadCommitted.Session ReadCommitted.Service

namespace SaasBackend.Service

variable {R α : Type} [Entity R Key] {P : Database → Database → Prop} {d₀ d : Database}
  {fs : List (List Write)} {f : List Write}

-- The rows of a table are rows of the database.
class IsTable (table : outParam (Database → Table R)) (row : R → Row) : Prop where
  mem_rows    : ∀ {d r}, row r ∈ d.rows ↔ r ∈ table d
  key_row     : ∀ r, (row r).key = Entity.key r
  entries_row : ∀ r, (row r).entries = Entity.entries r
  of_key      : ∀ (r : Row) (n : R), r.key = Entity.key n → ∃ n', r = row n'
  of_entry    : ∀ (r : Row) (n : R), ∀ k ∈ r.entries, k ∈ Entity.entries n → ∃ n', r = row n'

instance : IsTable Database.users .user where
  mem_rows      := Database.user_mem_rows
  key_row _     := rfl
  entries_row _ := rfl
  of_key r      := by cases r <;> simp [Row.key, Entity.key]
  of_entry r    := by cases r <;> simp +contextual [Row.entries, Entity.entries]

instance : IsTable Database.plans .plan where
  mem_rows      := Database.plan_mem_rows
  key_row _     := rfl
  entries_row _ := rfl
  of_key r      := by cases r <;> simp [Row.key, Entity.key]
  of_entry r    := by cases r <;> simp +contextual [Row.entries, Entity.entries]

instance : IsTable Database.subscriptions .subscription where
  mem_rows      := Database.subscription_mem_rows
  key_row _     := rfl
  entries_row _ := rfl
  of_key r      := by cases r <;> simp [Row.key, Entity.key]
  of_entry r    := by cases r <;> simp +contextual [Row.entries, Entity.entries]

instance : IsTable Database.quotas .usageQuota where
  mem_rows      := Database.usageQuota_mem_rows
  key_row _     := rfl
  entries_row _ := rfl
  of_key r      := by cases r <;> simp [Row.key, Entity.key]
  of_entry r    := by cases r <;> simp +contextual [Row.entries, Entity.entries]

instance : IsTable Database.verificationTokens .verificationToken where
  mem_rows      := Database.verificationToken_mem_rows
  key_row _     := rfl
  entries_row _ := rfl
  of_key r      := by cases r <;> simp [Row.key, Entity.key]
  of_entry r    := by cases r <;> simp +contextual [Row.entries, Entity.entries]

instance : IsTable Database.resetTokens .resetToken where
  mem_rows      := Database.resetToken_mem_rows
  key_row _     := rfl
  entries_row _ := rfl
  of_key r      := by cases r <;> simp [Row.key, Entity.key]
  of_entry r    := by cases r <;> simp +contextual [Row.entries, Entity.entries]

instance : IsTable Database.sessions .session where
  mem_rows      := Database.session_mem_rows
  key_row _     := rfl
  entries_row _ := rfl
  of_key r      := by cases r <;> simp [Row.key, Entity.key]
  of_entry r    := by cases r <;> simp +contextual [Row.entries, Entity.entries]

instance : IsTable Database.apiKeys .apiKey where
  mem_rows      := Database.apiKey_mem_rows
  key_row _     := rfl
  entries_row _ := rfl
  of_key r      := by cases r <;> simp [Row.key, Entity.key]
  of_entry r    := by cases r <;> simp +contextual [Row.entries, Entity.entries]

instance : IsTable Database.requestLogs .requestLog where
  mem_rows      := Database.requestLog_mem_rows
  key_row _     := rfl
  entries_row _ := rfl
  of_key r      := by cases r <;> simp [Row.key, Entity.key]
  of_entry r    := by cases r <;> simp +contextual [Row.entries, Entity.entries]

instance : IsTable Database.dailyUsage .dailyUsage where
  mem_rows      := Database.dailyUsage_mem_rows
  key_row _     := rfl
  entries_row _ := rfl
  of_key r      := by cases r <;> simp [Row.key, Entity.key]
  of_entry r    := by cases r <;> simp +contextual [Row.entries, Entity.entries]

instance : IsTable Database.outstandingTokens .outstandingToken where
  mem_rows      := Database.outstandingToken_mem_rows
  key_row _     := rfl
  entries_row _ := rfl
  of_key r      := by cases r <;> simp [Row.key, Entity.key]
  of_entry r    := by cases r <;> simp +contextual [Row.entries, Entity.entries]

instance : IsTable Database.blacklistedTokens .blacklistedToken where
  mem_rows      := Database.blacklistedToken_mem_rows
  key_row _     := rfl
  entries_row _ := rfl
  of_key r      := by cases r <;> simp [Row.key, Entity.key]
  of_entry r    := by cases r <;> simp +contextual [Row.entries, Entity.entries]

section Accepts

variable {table : Database → Table R} {row : R → Row} [ht : IsTable table row] {n o : R}

theorem accepts_new (h : Accepts d ⟨none, row n⟩) : ∀ r ∈ table d, Entity.key r ≠ Entity.key n :=
  fun r hr hk => h.new rfl (row r) (ht.mem_rows.mpr hr) <|
    (ht.key_row r).trans <| hk.trans (ht.key_row n).symm

theorem accepts_old (h : Accepts d ⟨some (row o), row n⟩) :
    o ∈ table d ∧ Entity.key o = Entity.key n :=
  have ⟨hm, hk⟩ := h.old (row o) rfl
  ⟨ht.mem_rows.mp hm, (ht.key_row o).symm.trans <| hk.trans (ht.key_row n)⟩

theorem accepts_fresh (h : Accepts d ⟨none, row n⟩) :
    ∀ r ∈ table d, ∀ k ∈ Entity.entries n, k ∉ Entity.entries r := by
  intro r hr k hk hk'
  refine h.fresh (row r) (ht.mem_rows.mpr hr) (fun h' => ?_) k ?_ ?_
  · exact accepts_new h r hr <| (ht.key_row r).symm.trans <| h'.trans (ht.key_row n)
  · rw [Put.added_insert]
    exact (congrArg (k ∈ ·) <| ht.entries_row n).mpr hk
  · exact (congrArg (k ∈ ·) <| ht.entries_row r).mpr hk'

end Accepts

theorem assign_eq_some {table : Database → Table R} {row : R → Row} {k : Key} {g : R → R}
    {w : Write} :
    assign table row k g d = some w ↔
      ∃ r ∈ table d, Entity.key r = k ∧ w = ⟨some <| row r, row <| g r⟩ := by
  simp only [assign, Option.map_eq_some_iff, Table.lookup_eq_some, and_assoc]
  exact exists_congr fun r => and_congr_right fun _ => and_congr_right fun _ => eq_comm

theorem honest_assign {table : Database → Table R} {row : R → Row} [ht : IsTable table row] {k : Key}
    {g : R → R} (hg : ∀ r, Entity.key (g r) = Entity.key r) :
    Honest fun d => (assign table row k g d).toList := by
  apply honest_replace
  intro d w hw
  have ⟨r, hr, hk, hw⟩ := assign_eq_some.mp hw
  refine ⟨row r, ht.mem_rows.mpr hr, by rw [hw], ?_⟩
  rw [hw]
  exact (ht.key_row r).trans <| (hg r).symm.trans (ht.key_row (g r)).symm

theorem honest_selectForUpdate {table : Database → Table R} {row : R → Row} [ht : IsTable table row]
    {q : Database → Option R} (hq : ∀ d r, q d = some r → r ∈ table d) :
    Honest fun d => ((q d).map fun r => (⟨some <| row r, row r⟩ : Write)).toList := by
  apply honest_replace
  intro d w hw
  have ⟨r, hr, hw⟩ := Option.map_eq_some_iff.mp hw
  exact ⟨row r, ht.mem_rows.mpr <| hq d r hr, by rw [←hw], by rw [←hw]⟩

namespace Keeps

theorem ofExcept {r : Except Exn α} {Q : α → List (List Write) → Database → Prop}
    (h : ∀ a, r = .ok a → Q a fs d) : (ofExcept r).Keeps P d₀ Q fs d :=
  match r with
  | .ok a    => Keeps.pure <| h a rfl
  | .error _ => Keeps.raise

variable [Std.Refl P] [IsTrans Database P]

theorem create {r : Row} {Q : Unit → List (List Write) → Database → Prop}
    (h : ∀ d', P d d' → Valid d' (uncommitted (f :: fs) ++ [⟨none, r⟩]) →
      Q () ((f ++ [⟨none, r⟩]) :: fs) d') :
    (create r).Keeps P d₀ Q (f :: fs) d :=
  Keeps.execute (honest_insert r) h

theorem create_commit {r : Row} {Q : Unit → List (List Write) → Database → Prop}
    (h : ∀ d', P d d' → Valid d' [⟨none, r⟩] → P d' (d'.put r) ∧ Q () [] (d'.put r)) :
    (Service.create r).Keeps P d₀ Q [] d :=
  Keeps.execute_commit (honest_insert r) h

theorem save {table : Database → Table R} {row : R → Row} [IsTable table row] {k : Key} {g : R → R}
    {Q : Unit → List (List Write) → Database → Prop} (hg : ∀ r, Entity.key (g r) = Entity.key r)
    (h : ∀ d' r, P d d' →
      Valid d' (uncommitted (f :: fs) ++ [⟨some <| row r, row <| g r⟩]) → Entity.key r = k →
      Q () ((f ++ [⟨some <| row r, row <| g r⟩]) :: fs) d') :
    (save table row k g).Keeps P d₀ Q (f :: fs) d := by
  refine Keeps.stmt (honest_assign hg) fun d' _ hp hv hq => ?_
  cases ha : assign table row k g (Store.applyAll d' (uncommitted (f :: fs)))
  case none   =>
    have hn : ((table (Store.applyAll d' (uncommitted (f :: fs)))).lookup k) = none := by
      simpa [assign] using ha
    simp only [hn, Option.isSome_none, Bool.false_eq_true, if_false, reduceCtorEq] at hq
  case some w =>
    have ⟨r, _, hk, hw⟩ := assign_eq_some.mp ha
    rw [ha, hw] at hv
    rw [hw]
    exact h d' r hp hv hk

theorem update_commit {table : Database → Table R} {row : R → Row} [IsTable table row] {k : Key}
    {g : R → R} {Q : Unit → List (List Write) → Database → Prop}
    (hg : ∀ r, Entity.key (g r) = Entity.key r)
    (h : ∀ d' w, P d d' → w = [] ∨ (∃ r ∈ table d', w = [⟨some <| row r, row <| g r⟩]) →
      Valid d' w → P d' (Store.applyAll d' w) ∧ Q () [] (Store.applyAll d' w)) :
    (update table row k g).Keeps P d₀ Q [] d := by
  refine Keeps.execute_commit (honest_assign hg) fun d' hp hv => h d' _ hp ?_ hv
  cases ha : assign table row k g d'
  case none   => exact .inl rfl
  case some w =>
    have ⟨r, hr, _, hw⟩ := assign_eq_some.mp ha
    exact .inr ⟨r, hr, by rw [hw]; rfl⟩

end Keeps

section Run

theorem run_create (r : Row) (d : Database) :
    (create r).run d =
      match Store.violation d (⟨none, r⟩ : Write) with
      | none   => (.ok (), d.put r)
      | some e => (.error e, d) := by
  rw [create, run_execute, Store.check_singleton]
  cases Store.violation d (⟨none, r⟩ : Write) <;> rfl

theorem run_create_eq_ok {r : Row} {d' : Database} (h : (create r).run d = (.ok (), d')) :
    Accepts d ⟨none, r⟩ ∧ d' = d.put r := by
  rw [run_create] at h
  split at h
  case h_1 hv =>
    have hv := honest_insert r d <| (Store.check_singleton ..).trans hv
    exact ⟨hv.left, (congrArg Prod.snd h).symm⟩
  case h_2    => cases h

theorem run_create_eq_error {r : Row} {e : Exn} {d' : Database}
    (h : (create r).run d = (.error e, d')) : d' = d := by
  rw [run_create] at h
  split at h
  case h_1 => cases h
  case h_2 => exact (congrArg Prod.snd h).symm

theorem fits_of_violation {w : Write} (h : Store.violation d w = none) : w.new.fits := by
  have hv : (if w.new.fits then none else some Exn.dataError) = none := (violation_eq_none.mp h).left
  by_cases hf : w.new.fits
  case pos => exact hf
  case neg => rw [if_neg hf] at hv; cases hv

theorem fits_of_run_create {r : Row} {d' : Database} (h : (create r).run d = (.ok (), d')) :
    r.fits := by
  rw [run_create] at h
  split at h
  case h_2    => cases h
  case h_1 hv => exact fits_of_violation hv

theorem run_ofExcept_eq_ok {r : Except Exn α} {a : α} {d' : Database} :
    (ofExcept r).run d = (.ok a, d') ↔ r = .ok a ∧ d = d' := by
  cases r <;> simp [ofExcept]

theorem run_ofExcept_eq_error {r : Except Exn α} {e : Exn} {d' : Database}
    (h : (ofExcept r).run d = (.error e, d')) : d' = d := by
  cases r <;> exact (congrArg Prod.snd h).symm

-- A row can be inserted if it fits, and if its keys are not in use in its table.
theorem run_create_of_fits {table : Database → Table R} {row : R → Row} [ht : IsTable table row]
    {n : R} (hf : (row n).fits) (hk : ∀ r ∈ table d, Entity.key r ≠ Entity.key n)
    (he : ∀ r ∈ table d, ∀ k ∈ Entity.entries n, k ∉ Entity.entries r) :
    (create (row n)).run d = (.ok (), d.put (row n)) := by
  have hc : ¬Conflict d.rows (⟨none, row n⟩ : Write) := by
    rintro (⟨-, r, hr, h⟩ | ⟨r, hr, -, k, h₁, h₂⟩)
    · have h : r.key = Entity.key n := h.trans <| ht.key_row n
      have ⟨n', hn⟩ := ht.of_key r n h
      rw [hn] at h hr
      exact hk n' (ht.mem_rows.mp hr) <| (ht.key_row n').symm.trans h
    · rw [Put.added_insert] at h₁
      have h₁ : k ∈ Entity.entries n := (congrArg (k ∈ ·) <| ht.entries_row n).mp h₁
      have ⟨n', hn⟩ := ht.of_entry r n k h₂ h₁
      rw [hn] at h₂ hr
      exact he n' (ht.mem_rows.mp hr) k h₁ <| (congrArg (k ∈ ·) <| ht.entries_row n').mp h₂
  rw [run_create, violation_eq_none.mpr ⟨if_pos hf, hc⟩]

theorem run_create_of_not_fits {r : Row} (h : ¬r.fits) :
    (create r).run d = (.error .dataError, d) := by
  simp [run_create, Store.violation, Relational.refuses, h]

-- A row can be updated if it fits, and if it gets no additional index entries.
theorem violation_replace {row : R → Row} {table : Database → Table R} [ht : IsTable table row]
    {o n : R} (hf : (row n).fits) (he : Entity.entries n ⊆ Entity.entries o) (d : Database) :
    Store.violation d (⟨some <| row o, row n⟩ : Write) = none := by
  have ha : (⟨some <| row o, row n⟩ : Write).added = [] := by
    refine Put.added_replace ?_
    rwa [show Entity.entries (row n) = _ from ht.entries_row _,
      show Entity.entries (row o) = _ from ht.entries_row _]
  refine violation_eq_none.mpr ⟨if_pos hf, ?_⟩
  simp [Conflict, ha]

theorem run_update {table : Database → Table R} {row : R → Row} [IsTable table row] {k : Key}
    {g : R → R} {r : R} (h : (table d).lookup k = some r) (hf : (row <| g r).fits)
    (he : Entity.entries (g r) ⊆ Entity.entries r) :
    (update table row k g).run d = (.ok (), d.put <| row <| g r) := by
  have ha : assign table row k g d = some ⟨some <| row r, row <| g r⟩ := by rw [assign, h]; rfl
  rw [update, run_execute, ha, Option.toList_some, Store.check_singleton, violation_replace hf he]
  rfl

theorem run_update_snd (table : Database → Table R) (row : R → Row) (k : Key) (g : R → R)
    (d : Database) :
    ((update table row k g).run d).snd = d ∨
    ∃ r ∈ table d, Entity.key r = k ∧ ((update table row k g).run d).snd = d.put (row <| g r) := by
  rw [update, run_execute]
  split
  case h_2 => exact .inl rfl
  case h_1 =>
    cases ha : assign table row k g d
    case none   => exact .inl rfl
    case some w =>
      obtain ⟨r, hr, hk, hw⟩ := assign_eq_some.mp ha
      exact .inr ⟨r, hr, hk, hw ▸ rfl⟩

theorem run_save {table : Database → Table R} {row : R → Row} [IsTable table row] {k : Key}
    {g : R → R} {r : R} (h : (table d).lookup k = some r) (hf : (row <| g r).fits)
    (he : Entity.entries (g r) ⊆ Entity.entries r) :
    (save table row k g).run d = (.ok (), d.put <| row <| g r) := by
  have ha : assign table row k g d = some ⟨some <| row r, row <| g r⟩ := by rw [assign, h]; rfl
  rw [save, run_stmt, ha, Option.toList_some, Store.check_singleton, violation_replace hf he, h]
  rfl

-- No other row is affected by an assignment.
theorem mem_run_save {table : Database → Table R} {row : R → Row} [ht : IsTable table row] {k : Key}
    {g : R → R} {r : R} (hg : ∀ r, Entity.key (g r) = Entity.key r) (hr : r ∈ table d)
    (hk : Entity.key r ≠ k) : r ∈ table ((save table row k g).run d).snd := by
  rw [save, run_stmt]
  split
  case h_2 => exact hr
  case h_1 =>
    cases ha : assign table row k g d
    case none   => exact hr
    case some w =>
      obtain ⟨r', _, hk', hw⟩ := assign_eq_some.mp ha
      have hn : (row r).key ≠ (row <| g r').key := by
        rw [show (row r).key = _ from ht.key_row r, show (row <| g r').key = _ from ht.key_row _, hg, hk']
        exact hk
      have hm : row r ∈ (d.put <| row <| g r').rows :=
        Database.mem_rows_put.mpr <| .inr ⟨ht.mem_rows.mpr hr, hn⟩
      rw [hw]
      exact ht.mem_rows.mp hm

theorem run_save_eq_ok {table : Database → Table R} {row : R → Row} [IsTable table row] {k : Key}
    {g : R → R} {d' : Database} (h : (save table row k g).run d = (.ok (), d')) :
    ∃ r ∈ table d, Entity.key r = k ∧ d' = d.put (row <| g r) := by
  have ⟨_, hq, hd⟩ := run_stmt_eq_ok.mp h
  cases hl : (table d).lookup k
  case none   => simp [hl] at hq
  case some r =>
    have ⟨hr, hk⟩ := Table.lookup_eq_some.mp hl
    refine ⟨r, hr, hk, hd.symm.trans ?_⟩
    rw [assign, hl]
    rfl

theorem fits_of_run_save {table : Database → Table R} {row : R → Row} {k : Key} {g : R → R} {r : R}
    {d' : Database} (hl : (table d).lookup k = some r)
    (h : (save table row k g).run d = (.ok (), d')) : (row <| g r).fits := by
  have ⟨hc, _⟩ := run_stmt_eq_ok.mp h
  rw [assign, hl] at hc
  exact fits_of_violation <| (Store.check_singleton ..).symm.trans hc

theorem run_save_eq_error {table : Database → Table R} {row : R → Row} {k : Key} {g : R → R} {e : Exn}
    {d' : Database} (h : (save table row k g).run d = (.error e, d')) : d' = d := by
  rw [save, run_stmt] at h
  split at h
  case h_2 => exact (congrArg Prod.snd h).symm
  case h_1 =>
    cases hl : (table d).lookup k
    case some   => simp [hl] at h
    case none   => simpa [assign, hl] using (congrArg Prod.snd h).symm

theorem run_selectForUpdate {table : Database → Table R} {row : R → Row} [ht : IsTable table row]
    {q : Database → Option R} (hf : ∀ r, (row r).fits) (hq : ∀ r, q d = some r → r ∈ table d) :
    (selectForUpdate row q).run d = (.ok (q d), d) := by
  refine run_stmt_eq_ok.mpr ⟨?_, rfl, ?_⟩ <;> cases hr : q d
  case refine_1.none   => rfl
  case refine_1.some r =>
    exact (Store.check_singleton ..).trans <| violation_replace (hf r) (List.Subset.refl _) d
  case refine_2.none   => rfl
  case refine_2.some r => exact Database.put_of_mem <| ht.mem_rows.mpr <| hq r hr

-- A row which is locked for an update stays as it is.
theorem run_selectForUpdate_eq_ok {table : Database → Table R} {row : R → Row} [IsTable table row]
    {q : Database → Option R} {r : Option R} {d' : Database}
    (hq : ∀ r, q d = some r → d.put (row r) = d)
    (h : (selectForUpdate row q).run d = (.ok r, d')) : q d = r ∧ d' = d := by
  have ⟨_, hr, hd⟩ := run_stmt_eq_ok.mp h
  refine ⟨Except.ok.inj hr, hd.symm.trans ?_⟩
  cases hr : q d
  case none   => rfl
  case some r => exact hq r hr

-- Inside of a block the new version of the row is kept until the end of the block.
theorem advance_save_closed {table : Database → Table R} {row : R → Row} [IsTable table row] {k : Key}
    {g : R → R} {r : R} (s : Unit → Service α) (h : (table <| Store.applyAll d f).lookup k = some r)
    (hf : (row <| g r).fits) (he : Entity.entries (g r) ⊆ Entity.entries r) :
    Session.advance ⟨(save table row k g >>= s).program.closed, [f]⟩ d =
      (d, ⟨(s ()).program.closed, [f ++ [⟨some <| row r, row <| g r⟩]]⟩) := by
  have ha : assign table row k g (Store.applyAll d f) = some ⟨some <| row r, row <| g r⟩ := by
    rw [assign, h]
    rfl
  have hc : Store.check (Store.applyAll d f) (assign table row k g (Store.applyAll d f)).toList = none := by
    rw [ha, Option.toList_some, Store.check_singleton, violation_replace hf he]
  have hq : (if ((table <| Store.applyAll d f).lookup k).isSome then
    (.ok () : Except Exn Unit) else .error .databaseError) = .ok () := by rw [h]; rfl
  rw [save, Session.advance_stmt_closed s hc hq, ha]
  rfl

end Run

namespace Issues

variable {N : Write → Prop}

theorem ofExcept (r : Except Exn α) : (ofExcept r).Issues N :=
  match r with
  | .ok a    => Issues.pure a
  | .error e => Issues.raise e

theorem create {r : Row} (h : N ⟨none, r⟩) : (create r).Issues N :=
  Issues.execute (honest_insert r) fun _ => List.forall_mem_singleton.mpr h

variable {table : Database → Table R} {row : R → Row} [IsTable table row] {k : Key} {g : R → R}

omit [IsTable table row] in
theorem assign_mem (h : ∀ r, N ⟨some <| row r, row <| g r⟩) (d : Database) :
    ∀ w ∈ (assign table row k g d).toList, N w := by
  intro w hw
  have ⟨r, _, _, hw⟩ := assign_eq_some.mp <| Option.mem_toList.mp hw
  exact hw ▸ h r

theorem update (hg : ∀ r, Entity.key (g r) = Entity.key r)
    (h : ∀ r, N ⟨some <| row r, row <| g r⟩) : (update table row k g).Issues N :=
  Issues.execute (honest_assign hg) <| assign_mem h

theorem save (hg : ∀ r, Entity.key (g r) = Entity.key r)
    (h : ∀ r, N ⟨some <| row r, row <| g r⟩) : (save table row k g).Issues N :=
  Issues.stmt (honest_assign hg) <| assign_mem h

end Issues

namespace Maintains

variable {I : Database → Database → Prop} [Std.Refl I]

theorem ofExcept (r : Except Exn α) : (ofExcept r).Maintains I :=
  match r with
  | .ok a    => Maintains.pure a
  | .error e => Maintains.raise e

theorem create {r : Row} (h : ∀ d, Accepts d ⟨none, r⟩ → I d (d.put r)) : (create r).Maintains I :=
  Maintains.execute fun d hc => h d (honest_insert r d hc).left

variable {table : Database → Table R} {row : R → Row} [IsTable table row] {k : Key} {g : R → R}

theorem assign_related (hg : ∀ r, Entity.key (g r) = Entity.key r)
    (h : ∀ d r, Accepts d ⟨some <| row r, row <| g r⟩ → I d (d.put <| row <| g r)) (d : Database)
    (hc : Store.check d (assign table row k g d).toList = none) :
    I d (Store.applyAll d (assign table row k g d).toList) := by
  have hv : Valid d (assign table row k g d).toList := honest_assign hg d hc
  cases ha : assign table row k g d
  case none   => exact Std.Refl.refl d
  case some w =>
    have ⟨r, _, _, hw⟩ := assign_eq_some.mp ha
    rw [ha, hw] at hv
    rw [hw]
    exact h d r hv.left

theorem update (hg : ∀ r, Entity.key (g r) = Entity.key r)
    (h : ∀ d r, Accepts d ⟨some <| row r, row <| g r⟩ → I d (d.put <| row <| g r)) :
    (update table row k g).Maintains I :=
  Maintains.execute <| assign_related hg h

theorem save (hg : ∀ r, Entity.key (g r) = Entity.key r)
    (h : ∀ d r, Accepts d ⟨some <| row r, row <| g r⟩ → I d (d.put <| row <| g r)) :
    (save table row k g).Maintains I :=
  Maintains.stmt <| assign_related hg h

theorem selectForUpdate {q : Database → Option R} (hq : ∀ d r, q d = some r → r ∈ table d)
    (h : ∀ d r, Accepts d ⟨some <| row r, row r⟩ → I d (d.put <| row r)) :
    (selectForUpdate row q).Maintains I := by
  apply Maintains.stmt
  intro d hc
  have hv : Valid d ((q d).map fun r => (⟨some <| row r, row r⟩ : Write)).toList :=
    honest_selectForUpdate hq d hc
  cases hr : q d
  case none   => exact Std.Refl.refl d
  case some r =>
    rw [hr] at hv
    exact h d r hv.left

end Maintains
end SaasBackend.Service
