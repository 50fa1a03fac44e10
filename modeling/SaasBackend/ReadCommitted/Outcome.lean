import SaasBackend.ReadCommitted.Commit

open Function (update)

namespace ReadCommitted.System

open Session Store Relation

section Ensures

variable {ι D W K E α : Type} [Store D W K E]

-- All sessions are safe, and the values that they return are as `Q` says.
structure Ensures (G : D → List K → D → Prop) (Q : ι → α → D → Prop) (σ : System ι D W E α) : Prop where
  safe      : ∀ i, (σ.session i).program.Safe G (fun a _ d => Q i a d) (fun _ _ _ => True)
                (σ.session i).frames σ.db
  exclusive : σ.Exclusive

variable {G : D → List K → D → Prop} {Q : ι → α → D → Prop} [Fintype ι] [DecidableEq ι] [DecidableEq K]
  {σ : System ι D W E α}

omit [Fintype ι] [DecidableEq ι] [DecidableEq K] in
theorem Ensures.returned (h : σ.Ensures G Q) {i : ι} {a : α} (hr : σ.Returned i a) : Q i a σ.db := by
  have h := h.safe i
  rw [hr] at h
  cases hf : (σ.session i).frames <;> rw [hf] at h <;> exact h

-- What a session has returned remains right while other sessions commit.
theorem Ensures.step (h : σ.Ensures G Q) (hq : ∀ i a d ks d', G d ks d' → Q i a d → Q i a d')
    (a : Action ι E) : (σ.step a).Ensures G Q := by
  have he := h.exclusive.step a
  rcases step_cases (σ := σ) a with hs | ⟨i, -, hb, hs⟩ | ⟨i, e, -, hs⟩
  · rwa [hs]
  · have ⟨ha, hd⟩ := (h.safe i).advance
    refine ⟨fun j => ?_, he⟩
    rw [hs]
    by_cases hj : j = i
    case pos => subst hj; simpa using ha
    case neg =>
      simp only [hj, ne_eq, not_false_eq_true, Function.update_of_ne]
      rcases hd with hd | ⟨ks, hg, hk⟩
      · rw [hd]; exact h.safe j
      · have hi : Interference G (heldBy (D := D) (σ.session j).frames) σ.db
            ((σ.session i).advance σ.db).1 := by
          refine .single ⟨ks, fun k h₁ h₂ => ?_, hg⟩
          cases hk k h₂
          case inl h₂ => exact h.exclusive j i hj k h₁ h₂
          case inr h₂ => exact hb ⟨j, hj, k, h₂, h₁⟩
        refine (h.safe j).stable (fun a _ d d' hi hqa => ?_) (fun _ _ _ _ _ _ => trivial) hi
        exact hi.preserves hqa fun d ks d' _ => hq j a d ks d'
  · refine ⟨fun j => ?_, he⟩
    rw [hs]
    by_cases hj : j = i
    case pos => subst hj; simpa using (h.safe j).fails e
    case neg => simpa [hj] using h.safe j

theorem Ensures.run (h : σ.Ensures G Q) (hq : ∀ i a d ks d', G d ks d' → Q i a d → Q i a d')
    (as : List (Action ι E)) : (σ.run as).Ensures G Q := by
  induction as generalizing σ
  case nil      => exact h
  case cons hi  => exact hi <| h.step hq _

end Ensures

section Keeps

variable {ι D R K E α : Type} [Entity R K] [Relational D R K E] [DecidableEq K] [Fintype ι]
  [DecidableEq ι] {P : D → D → Prop} [Std.Refl P] [IsTrans D P] {Q : ι → α → D → Prop}

-- What is ensured by a call that has returned still holds after any further steps.
theorem run_returned {db : D} {calls : ι → Service D (Put R) E α}
    (h : ∀ i, (calls i).Keeps P db (fun a _ d => Q i a d) [] db)
    (hq : ∀ i a d d', P d d' → Q i a d → Q i a d') (as bs : List (Action ι E)) {i : ι} {a : α}
    (hr : ((start db calls).run as).Returned i a) : Q i a ((start db calls).run (as ++ bs)).db := by
  have hs : (start db calls).Ensures (Commit P) Q := {
    safe i    := ((h i).safe (Std.Refl.refl db) trivial).mono (fun _ _ _ h => h.right.right)
                   (fun _ _ _ _ => trivial)
    exclusive := start_exclusive db calls
  }
  have hp : P ((start db calls).run as).db ((start db calls).run (as ++ bs)).db :=
    run_related (fun i => (h i).mono fun _ _ _ _ _ => trivial) as bs
  apply hq i a _ _ hp
  refine (hs.run ?_ as).returned hr
  rintro i a d ks d' ⟨_, _, _, _, hp⟩
  exact hq i a d d' hp

end Keeps
end ReadCommitted.System
