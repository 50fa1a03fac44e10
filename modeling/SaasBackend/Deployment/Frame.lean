import SaasBackend.Deployment.Finality

open Calendar ReadCommitted ReadCommitted.Service

namespace SaasBackend

open Service

section Versions

variable {S : Uuid → String → Prop} {us : TableName → Prop} {r r' : Row}

theorem Row.Precedes.table_eq (h : r.Precedes S r') : r'.table = r.table := by
  have ho := h.origin
  cases r <;> cases r' <;> first | rfl | simp only [Row.origin, reduceCtorEq] at ho

-- A later version of a row, which is the same unless its table is among those that are updated.
structure Row.PrecedesWithin (S : Uuid → String → Prop) (us : TableName → Prop) (r r' : Row) : Prop where
  later : r.Precedes S r'
  same  : ¬us r.table → r' = r

instance : Std.Refl (Row.PrecedesWithin S us) where
  refl r := ⟨Std.Refl.refl r, fun _ => rfl⟩

instance : IsTrans Row (Row.PrecedesWithin S us) where
  trans _ _ _ h₁ h₂ := {
    later   := Trans.trans h₁.later h₂.later
    same hn := (h₂.same <| h₁.later.table_eq ▸ hn).trans <| h₁.same hn
  }

end Versions

section Runs

variable {ι : Type} [Fintype ι] [DecidableEq ι]

-- Rows only change in tables which some operation updates, and only appear in those which some
-- operation inserts into.
theorem footprints_respected (p : Platform) (d : Database) (os : ι → Operation) (as bs : List (Action ι Exn))
    (t : TableName) :
    let d₁ := ((operating p d os).run as).db
    let d₂ := ((operating p d os).run (as ++ bs)).db
    ((∀ i, t ∉ (os i).footprint.updates) → ∀ r ∈ d₁.rows, r.table = t → r ∈ d₂.rows) ∧
    ((∀ i, t ∉ (os i).footprint.inserts) → ∀ r' ∈ d₂.rows, r'.table = t →
      ∃ r ∈ d₁.rows, r.key = r'.key ∧ r.Precedes (fun _ => IsStrong p) r') ∧
    ((∀ i, t ∉ (os i).footprint.inserts ∧ t ∉ (os i).footprint.updates) →
      ∀ r, r.table = t → (r ∈ d₂.rows ↔ r ∈ d₁.rows)) := by
  intro d₁ d₂
  let is (t : TableName) : Prop := ∃ i, t ∈ (os i).footprint.inserts
  let us (t : TableName) : Prop := ∃ i, t ∈ (os i).footprint.updates
  have h : Evolves (fun r : Row => is r.table) (Row.PrecedesWithin (fun _ => IsStrong p) us) d₁ d₂ := by
    let N (w : Write) : Prop := ∃ i, Advances (fun _ => IsStrong p) (os i).footprint w
    refine System.Issues.run_evolves (N := N) ?_ ?_ d as bs
    · rintro w ⟨i, hw⟩
      refine ⟨fun ho => ⟨i, hw.inserts ho⟩, fun o ho => ?_⟩
      have hl := hw.evolves.later o ho
      refine ⟨hl, fun hn => (hn ⟨i, ?_⟩).elim⟩
      exact hl.table_eq ▸ hw.updates (Option.ne_none_iff_exists'.mpr ⟨o, ho⟩)
    · exact fun i => ((os i).advances_strongly p).mono fun _ hw => ⟨i, hw⟩
  have hu : (∀ i, t ∉ (os i).footprint.updates) → ∀ r ∈ d₁.rows, r.table = t → r ∈ d₂.rows := by
    rintro hn r hr rfl
    have ⟨r', hr', _, hl⟩ := h.later r hr
    exact hl.same (fun ⟨i, hi⟩ => hn i hi) ▸ hr'
  have hi : (∀ i, t ∉ (os i).footprint.inserts) → ∀ r' ∈ d₂.rows, r'.table = t →
      ∃ r ∈ d₁.rows, r.key = r'.key ∧ r.Precedes (fun _ => IsStrong p) r' := by
    rintro hn r' hr' rfl
    have ⟨r, hr, hk, hl⟩ := h.former r' hr'
    cases hr
    case inl hr => exact ⟨r, hr, hk, hl.later⟩
    case inr hr =>
      obtain ⟨i, hi⟩ := hr
      exact (hn i <| hl.later.table_eq ▸ hi).elim
  refine ⟨hu, hi, fun hn r ht => ⟨fun hr => ?_, fun hr => hu (fun i => (hn i).right) r hr ht⟩⟩
  have ⟨r₀, hr₀, hk, hl⟩ := hi (fun i => (hn i).left) r hr ht
  have hr₀' := hu (fun i => (hn i).right) r₀ hr₀ <| hl.table_eq ▸ ht
  exact Database.eq_of_key hr₀' hr hk ▸ hr₀

end Runs
end SaasBackend
