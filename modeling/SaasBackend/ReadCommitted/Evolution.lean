import SaasBackend.ReadCommitted.Issues

open Function (update)

namespace ReadCommitted

open Entity Relational Session Store

variable {ι D R K E α : Type} [Entity R K] [Relational D R K E] [DecidableEq K] {N : Put R → Prop}
  {F : R → Prop} {L : R → R → Prop} {d d' : D} {w : Put R}

-- A row is inserted as `F` says, or replaced by a version which `L` relates it to.
structure Put.Evolves (F : R → Prop) (L : R → R → Prop) (w : Put R) : Prop where
  fresh : w.old = none → F w.new
  later : ∀ o, w.old = some o → L o w.new

-- No row is removed, the versions of a row are related by `L`, and rows that are added are as `F` says
-- at first.
structure Evolves (F : R → Prop) (L : R → R → Prop) (d d' : D) : Prop where
  later  : ∀ r ∈ rows d, ∃ r' ∈ rows d', key r' = key r ∧ L r r'
  former : ∀ r' ∈ rows d', ∃ r, (r ∈ rows d ∨ F r) ∧ key r = key r' ∧ L r r'

omit [DecidableEq K] in
theorem Evolves.mono {F' : R → Prop} {L' : R → R → Prop} (h : Evolves F L d d') (hf : ∀ r, F r → F' r)
    (hl : ∀ r r', L r r' → L' r r') : Evolves F' L' d d' where
  later r hr    :=
    have ⟨r', hr', hk, h⟩ := h.later r hr
    ⟨r', hr', hk, hl r r' h⟩
  former r' hr' :=
    have ⟨r, hr, hk, h⟩ := h.former r' hr'
    ⟨r, hr.imp_right (hf r), hk, hl r r' h⟩

-- No two rows have an entry in common.
def Indexed (d : D) : Prop :=
  ∀ r₁ ∈ rows d, ∀ r₂ ∈ rows d, ∀ k ∈ entries r₁, k ∈ entries r₂ → r₁ = r₂

omit [DecidableEq K] in
theorem Indexed.of_nodup (h : ((rows d).flatMap entries).Nodup) : Indexed d := by
  intro r₁ h₁ r₂ h₂ k hk₁ hk₂
  have hp := (List.nodup_flatMap.mp h).right
  have : Std.Symm (Function.onFun List.Disjoint (entries : R → List K)) := ⟨fun _ _ h => List.Disjoint.symm h⟩
  by_contra hr
  exact hp.forall h₁ h₂ hr hk₁ hk₂

instance [Std.Refl L] : Std.Refl (Evolves F L : D → D → Prop) where
  refl _ := ⟨fun r hr => ⟨r, hr, rfl, Std.Refl.refl r⟩, fun r hr => ⟨r, .inl hr, rfl, Std.Refl.refl r⟩⟩

instance [IsTrans R L] : IsTrans D (Evolves F L) where
  trans _ _ _ h₁ h₂ := {
    later r hr :=
      have ⟨r₁, hr₁, hk₁, hl₁⟩ := h₁.later r hr
      have ⟨r₂, hr₂, hk₂, hl₂⟩ := h₂.later r₁ hr₁
      ⟨r₂, hr₂, hk₂.trans hk₁, Trans.trans hl₁ hl₂⟩
    former r hr := by
      have ⟨r₁, hr₁, hk₁, hl₁⟩ := h₂.former r hr
      cases hr₁
      case inr hf => exact ⟨r₁, .inr hf, hk₁, hl₁⟩
      case inl hm =>
        have ⟨r₂, hr₂, hk₂, hl₂⟩ := h₁.former r₁ hm
        exact ⟨r₂, hr₂, hk₂.trans hk₁, Trans.trans hl₂ hl₁⟩
  }

theorem Evolves.put [Std.Refl L] (hw : w.Evolves F L) (ha : Accepts d w) : Evolves F L d (put d w.new) where
  later r hr := by
    by_cases hk : key r = key w.new
    case neg => exact ⟨r, mem_put.mpr <| .inr ⟨hr, hk⟩, rfl, Std.Refl.refl r⟩
    case pos =>
      refine ⟨w.new, mem_put.mpr <| .inl rfl, hk.symm, ?_⟩
      cases ho : w.old
      case none   => exact (ha.new ho r hr hk).elim
      case some o =>
        have ⟨hm, hk'⟩ := ha.old o ho
        exact eq_of_key hr hm (hk.trans hk'.symm) ▸ hw.later o ho
  former r hr := by
    cases mem_put.mp hr
    case inr hm => exact ⟨r, .inl hm.left, rfl, Std.Refl.refl r⟩
    case inl he =>
      subst he
      cases ho : w.old
      case none   => exact ⟨w.new, .inr <| hw.fresh ho, rfl, Std.Refl.refl _⟩
      case some o =>
        have ⟨hm, hk⟩ := ha.old o ho
        exact ⟨o, .inl hm, hk, hw.later o ho⟩

-- An entry that a write does not add is the one of the row which it replaces.
theorem Indexed.put (h : Indexed d) (ha : Accepts d w) : Indexed (put d w.new) := by
  have hn : ∀ r ∈ rows d, key r ≠ key w.new → ∀ k ∈ entries w.new, k ∉ entries r := by
    intro r hr hk k h₁ h₂
    by_cases hw : k ∈ w.added
    case pos => exact ha.fresh r hr hk k hw h₂
    case neg =>
      have ⟨o, ho, h₃⟩ : ∃ o, w.old = some o ∧ k ∈ entries o := by simpa [Put.mem_added, h₁] using hw
      have ⟨hm, hk'⟩ := ha.old o ho
      exact hk <| h r hr o hm k h₂ h₃ ▸ hk'
  intro r₁ hr₁ r₂ hr₂ k h₁ h₂
  cases mem_put.mp hr₁
  case inl he₁ =>
    subst he₁
    cases mem_put.mp hr₂
    case inl he₂ => exact he₂.symm
    case inr hm₂ => exact (hn r₂ hm₂.left hm₂.right k h₁ h₂).elim
  case inr hm₁ =>
    cases mem_put.mp hr₂
    case inl he₂ => subst he₂; exact (hn r₁ hm₁.left hm₁.right k h₂ h₁).elim
    case inr hm₂ => exact h r₁ hm₁.left r₂ hm₂.left k h₁ h₂

-- Several rows of the store are replaced at once, and keep their keys and entries.
theorem Valid.map {f : R → R} (hk : ∀ r, key (f r) = key r) (he : ∀ r, entries (f r) ⊆ entries r)
    {rs : List R} (hd : rs.Pairwise (key · ≠ key ·)) (hr : ∀ r ∈ rs, r ∈ rows d) :
    Valid d (rs.map fun r => (⟨some r, f r⟩ : Put R)) := by
  induction rs generalizing d
  case nil          => trivial
  case cons r rs hi =>
    have ⟨hn, hd⟩ := List.pairwise_cons.mp hd
    have ⟨hm, hr⟩ := List.forall_mem_cons.mp hr
    have ha : Accepts d (⟨some r, f r⟩ : Put R) := {
      old o ho          := Option.some.inj ho ▸ ⟨hm, (hk r).symm⟩
      new               := nofun
      fresh _ _ _ k hk' := by rw [Put.added_replace (he r)] at hk'; cases hk'
    }
    refine ⟨ha, hi hd fun r' hr' => mem_put.mpr <| .inr ⟨hr r' hr', ?_⟩⟩
    exact hk r ▸ (hn r' hr').symm

namespace System

-- All sessions issue writes of the kind `N` only, and no two of them hold the same key.
structure Issues (N : Put R → Prop) (σ : System ι D (Put R) E α) : Prop where
  session   : ∀ i, (σ.session i).Issues N σ.db
  exclusive : σ.Exclusive

namespace Issues

theorem initial {calls : ι → Service D (Put R) E α} (h : ∀ i, (calls i).Issues N) (db : D) :
    (start db calls).Issues N where
  session i := .start (h i) db
  exclusive := start_exclusive db calls

variable [Fintype ι] [DecidableEq ι] {σ : System ι D (Put R) E α}

-- A step commits at most a sequence of valid writes of the kind `N`.
theorem step (h : σ.Issues N) (a : Action ι E) :
    (σ.step a).Issues N ∧ ((σ.step a).db = σ.db ∨
      ∃ ps, (σ.step a).db = applyAll σ.db ps ∧ Valid σ.db ps ∧ ∀ w ∈ ps, N w) := by
  have he := h.exclusive.step a
  rcases step_cases (σ := σ) a with hs | ⟨i, -, hb, hs⟩ | ⟨i, e, -, hs⟩
  · exact ⟨hs.symm ▸ h, .inl <| by rw [hs]⟩
  · have ⟨hi, hd⟩ := (h.session i).advance
    refine ⟨⟨fun j => ?_, he⟩, ?_⟩
    · rw [hs]
      by_cases hj : j = i
      case pos => subst hj; simpa using hi
      case neg =>
        simp only [hj, ne_eq, not_false_eq_true, Function.update_of_ne]
        rcases hd with hd | ⟨ps, hd, hv, -, hk⟩
        · rw [hd]; exact h.session j
        · rw [hd]
          refine (h.session j).stable hv fun k h₁ h₂ => ?_
          cases hk k h₂
          case inl h₂ => exact h.exclusive j i hj k h₁ h₂
          case inr h₂ => exact hb ⟨j, hj, k, h₂, h₁⟩
    · rw [hs]
      exact hd.imp_right fun ⟨ps, hd, hv, hn, _⟩ => ⟨ps, hd, hv, hn⟩
  · refine ⟨⟨fun j => ?_, he⟩, .inl <| by rw [hs]⟩
    rw [hs]
    by_cases hj : j = i
    case pos => subst hj; simpa using (h.session j).fails e
    case neg => simpa [hj] using h.session j

-- What every single write of the kind `N` maintains is maintained by a whole interleaving.
theorem run {I : D → D → Prop} [Std.Refl I] [IsTrans D I]
    (hi : ∀ d w, N w → Accepts d w → I d (put d w.new)) (h : σ.Issues N) (as : List (Action ι E)) :
    (σ.run as).Issues N ∧ I σ.db (σ.run as).db := by
  induction as generalizing σ
  case nil          => exact ⟨h, Std.Refl.refl σ.db⟩
  case cons a as ih =>
    have ⟨h', hd⟩ := h.step a
    have ⟨hr, ht⟩ := ih h'
    refine ⟨hr, ?_⟩
    rcases hd with hd | ⟨ps, hd, hv, hn⟩
    · exact hd ▸ ht
    · have hp : I σ.db (σ.step a).db := hd ▸ hv.related hi hn
      exact Trans.trans hp ht

variable {calls : ι → Service D (Put R) E α}

theorem run_evolves [Std.Refl L] [IsTrans R L] (hn : ∀ w, N w → w.Evolves F L)
    (h : ∀ i, (calls i).Issues N) (db : D) (as bs : List (Action ι E)) :
    Evolves F L ((start db calls).run as).db ((start db calls).run (as ++ bs)).db := by
  have hp : ∀ (d : D) (w : Put R), N w → Accepts d w → Evolves F L d (put d w.new) :=
    fun d w hw ha => .put (hn w hw) ha
  rw [run_append]
  exact (((initial h db).run hp as).left.run hp bs).right

theorem run_indexed (h : ∀ i, (calls i).Issues N) (as : List (Action ι E)) (hd : Indexed d) :
    Indexed ((start d calls).run as).db :=
  ((initial h d).run (I := Service.Kept Indexed) (fun _ _ _ ha hi => hi.put ha) as).right hd

end Issues
end System
end ReadCommitted
