import SaasBackend.ReadCommitted.Relational

open Function (update)

namespace ReadCommitted

open Session Relational Store

variable {ι D R K E α : Type} [Entity R K] [Relational D R K E] [DecidableEq K]

namespace Session

-- If the next command is a statement, then its writes are valid when it is executed successfully.
structure IsHonest (s : Session D (Put R) E α) : Prop where
  honest : ∀ ws k h, s.program = .stmt ws k h → Honest ws

theorem IsHonest.stmt {β : Type} {ws : D → List (Put R)} {q : D → Except E β} (h : Honest ws)
    (f : β → Service D (Put R) E α) (fs : List (List (Put R))) :
    IsHonest ⟨(Service.stmt ws q >>= f).program, fs⟩ := by
  constructor
  intro ws' k h' hp
  cases hp
  exact h

theorem IsHonest.select {β : Type} (q : D → β) (f : β → Service D (Put R) E α)
    (fs : List (List (Put R))) : IsHonest ⟨(Service.select q >>= f).program, fs⟩ := by
  constructor
  intro ws k h hp
  cases hp
  exact fun _ _ => trivial

theorem IsHonest.closed {p : Program D (Put R) E α} {fs : List (List (Put R))}
    (h : IsHonest ⟨p, fs⟩) : IsHonest ⟨p.closed, fs⟩ := by
  constructor
  intro ws k f hp
  cases p
  case stmt => cases hp; exact h.honest _ _ _ rfl
  all_goals cases hp

-- The uncommitted writes of a session remain valid while it advances, and so are those it commits.
theorem advance_valid {s : Session D (Put R) E α} {d : D} (hv : Valid d s.pending) (hw : s.IsHonest) :
    Valid (s.advance d).1 (s.advance d).2.pending ∧
    ((s.advance d).1 = d ∨ ∃ ps, (s.advance d).1 = applyAll d ps ∧ Valid d ps ∧
      ps ⊆ s.pending ++ s.next d) := by
  obtain ⟨p, fs⟩ := s
  simp only [pending] at hv
  cases p
  case stmt ws k h =>
    have hs := hw.honest ws k h rfl (applyAll d (uncommitted fs))
    cases hc : check (applyAll d (uncommitted fs)) (ws (applyAll d (uncommitted fs)))
    case some e =>
      have ha : advance ⟨.stmt ws k h, fs⟩ d = (d, ⟨h e, fs⟩) := by
        simp only [advance, view, pending, hc]
      rw [ha]
      exact ⟨hv, .inl rfl⟩
    case none =>
      cases fs
      case nil =>
        have ha : advance ⟨.stmt ws k h, []⟩ d = (applyAll d (ws d), ⟨k d, []⟩) := by
          simp_all [advance, view, pending]
        rw [ha]
        exact ⟨trivial, .inr ⟨_, rfl, hs hc, List.subset_append_right ..⟩⟩
      case cons f fs =>
        have hs := Valid.append.mpr ⟨hv, hs hc⟩
        simp only [advance, view, pending, hc]
        exact ⟨by simpa using hs, .inl trivial⟩
  case leave =>
    rcases fs with _ | ⟨f, _ | ⟨g, fs⟩⟩
    · exact ⟨hv, .inl rfl⟩
    · simp only [uncommitted_cons, uncommitted_nil, List.nil_append] at hv
      exact ⟨trivial, .inr ⟨f, rfl, hv, List.subset_append_left ..⟩⟩
    · exact ⟨by simpa [advance, pending] using hv, .inl rfl⟩
  case undo =>
    cases fs
    case nil  => exact ⟨hv, .inl rfl⟩
    case cons => exact ⟨(Valid.append.mp hv).left, .inl rfl⟩
  case enter => exact ⟨by simpa [advance, pending] using hv, .inl rfl⟩
  all_goals exact ⟨hv, .inl rfl⟩

-- The keys under which a session commits are held by it, or about to be written.
theorem mem_keys_of_subset {s : Session D (Put R) E α} {d : D} {ps : List (Put R)}
    (h : ps ⊆ s.pending ++ s.next d) {k : K} (hk : k ∈ ps.flatMap Put.keys) :
    k ∈ s.held ∨ k ∈ (s.next d).flatMap (Store.keys D) := by
  have ⟨w, hw, hk⟩ := List.mem_flatMap.mp hk
  cases List.mem_append.mp <| h hw
  case inl hw => exact .inl <| List.mem_flatMap.mpr ⟨w, hw, hk⟩
  case inr hw => exact .inr <| List.mem_flatMap.mpr ⟨w, hw, hk⟩

theorem fails_valid {s : Session D (Put R) E α} {d : D} (hv : Valid d s.pending) (e : E) :
    Valid d (s.fails e).pending := by
  obtain ⟨p, fs⟩ := s
  cases p
  case leave =>
    cases fs
    case nil  => exact hv
    case cons => exact (Valid.append.mp hv).left
  all_goals exact hv

end Session

namespace System

-- The uncommitted writes of all sessions are valid, and no two sessions hold the same key.
structure Consistent (σ : System ι D (Put R) E α) : Prop where
  valid     : ∀ i, Valid σ.db (σ.session i).pending
  exclusive : σ.Exclusive

theorem Consistent.start (db : D) (calls : ι → Service D (Put R) E α) :
    (start db calls).Consistent where
  valid _   := trivial
  exclusive := start_exclusive db calls

variable [Fintype ι] [DecidableEq ι]

theorem Consistent.step {σ : System ι D (Put R) E α} (h : σ.Consistent)
    (hw : ∀ i, (σ.session i).IsHonest) (a : Action ι E) : (σ.step a).Consistent where
  exclusive := h.exclusive.step a
  valid j   := by
    rcases step_cases (σ := σ) a with hs | ⟨i, -, hb, hs⟩ | ⟨i, e, -, hs⟩
    · exact hs.symm ▸ h.valid j
    · have ⟨hv, hd⟩ := advance_valid (h.valid i) (hw i)
      rw [hs]
      by_cases hj : j = i
      case pos => subst hj; simpa using hv
      case neg =>
        simp only [ne_eq, hj, not_false_eq_true, Function.update_of_ne]
        rcases hd with hd | ⟨ps, hd, hp, hk⟩
        · rw [hd]
          exact h.valid j
        · rw [hd]
          -- What `i` commits has been locked by `i`, and not by `j`.
          refine (h.valid j).stable hp fun k h₁ h₂ => ?_
          cases mem_keys_of_subset hk h₂
          case inl h₂ => exact h.exclusive j i hj k h₁ h₂
          case inr h₂ => exact hb ⟨j, hj, k, h₂, h₁⟩
    · rw [hs]
      by_cases hj : j = i
      case pos => subst hj; simpa using fails_valid (h.valid j) e
      case neg => simpa [hj] using h.valid j

end System
end ReadCommitted
