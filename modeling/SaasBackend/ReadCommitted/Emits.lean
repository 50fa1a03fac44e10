import SaasBackend.ReadCommitted.Relational

open Function (update)

namespace ReadCommitted

open Store

section Sessions

variable {D W K E α β : Type} {N : D → List W → Prop}

namespace Program

-- Whatever a statement of the program sees, what it writes is as `N` says.
@[simp]
def Emits (N : D → List W → Prop) : Program D W E α → Prop
  | ret _       => True
  | raise _     => True
  | stmt ws k h => (∀ d, N d (ws d)) ∧ (∀ d, (k d).Emits N) ∧ ∀ e, (h e).Emits N
  | enter k     => k.Emits N
  | leave k h   => k.Emits N ∧ ∀ e, (h e).Emits N
  | undo k      => k.Emits N

namespace Emits

variable {p : Program D W E α}

theorem bind {f : α → Program D W E β} (h : p.Emits N) (hf : ∀ a, (f a).Emits N) :
    (p.bind f).Emits N := by
  induction p <;> simp_all

theorem handle {f : E → Program D W E α} (h : p.Emits N) (hf : ∀ e, (f e).Emits N) :
    (p.handle f).Emits N := by
  induction p <;> simp_all

theorem closed (h : p.Emits N) : p.closed.Emits N := by
  induction p <;> simp_all

end Emits
end Program

namespace Service

structure Emits (N : D → List W → Prop) (s : Service D W E α) : Prop where
  program : s.program.Emits N

namespace Emits

theorem pure (a : α) : (pure a : Service D W E α).Emits N :=
  ⟨trivial⟩

theorem raise (e : E) : (raise e : Service D W E α).Emits N :=
  ⟨trivial⟩

theorem stmt {ws : D → List W} {q : D → Except E α} (h : ∀ d, N d (ws d)) :
    (stmt ws q).Emits N := by
  refine ⟨⟨h, fun d => ?_, fun _ => trivial⟩⟩
  dsimp only
  cases q d <;> trivial

theorem select (h : ∀ d, N d []) (q : D → α) : (select q : Service D W E α).Emits N :=
  ⟨⟨h, fun _ => trivial, fun _ => trivial⟩⟩

theorem execute {ws : D → List W} (h : ∀ d, N d (ws d)) :
    (execute ws : Service D W E Unit).Emits N :=
  ⟨⟨h, fun _ => trivial, fun _ => trivial⟩⟩

theorem bind {s : Service D W E α} {f : α → Service D W E β} (h : s.Emits N)
    (hf : ∀ a, (f a).Emits N) : (s >>= f).Emits N :=
  ⟨h.program.bind fun a => (hf a).program⟩

theorem handle {s : Service D W E α} {f : E → Service D W E α} (h : s.Emits N)
    (hf : ∀ e, (f e).Emits N) : (s.handle f).Emits N :=
  ⟨h.program.handle fun e => (hf e).program⟩

theorem atomic {s : Service D W E α} (h : s.Emits N) : s.atomic.Emits N :=
  ⟨h.program.closed⟩

end Emits
end Service

namespace Session

variable [Store D W K E] {s : Session D W E α}

theorem emits_advance (h : s.program.Emits N) (d : D) : (s.advance d).2.program.Emits N := by
  obtain ⟨p, fs⟩ := s
  cases p
  case stmt =>
    simp only [Session.advance]
    split
    · exact h.right.right _
    all_goals exact h.right.left _
  case leave => rcases fs with _ | ⟨_, _ | _⟩ <;> exact h.left
  all_goals exact h

theorem emits_fails (h : s.program.Emits N) (e : E) : (s.fails e).program.Emits N := by
  obtain ⟨p, fs⟩ := s
  cases p
  case stmt   => exact h.right.right e
  case leave  => exact h.right e
  all_goals exact h

theorem emits_next (h : s.program.Emits N) (hn : ∀ d, N d []) (d : D) : N (s.view d) (s.next d) := by
  obtain ⟨p, fs⟩ := s
  cases p
  case stmt => exact h.left _
  all_goals exact hn _

end Session
end Sessions

section Rows

variable {ι D R K E α : Type} [Entity R K] [Relational D R K E] [DecidableEq K]

open Relational

theorem rows_applyAll {ps : List (Put R)} {d : D} {r : R} (h : r ∈ rows (applyAll d ps)) :
    r ∈ rows d ∨ ∃ p ∈ ps, p.new = r := by
  induction ps generalizing d
  case nil => exact .inl h
  case cons p ps hi =>
    rcases hi h with h | ⟨q, hq, hr⟩
    · cases mem_put.mp h
      case inl he => exact .inr ⟨p, List.mem_cons_self, he.symm⟩
      case inr hm => exact .inl hm.left
    · exact .inr ⟨q, List.mem_cons_of_mem _ hq, hr⟩

namespace System

-- The row is committed, or it has been written by a session which has not committed yet.
def Holds (σ : System ι D (Put R) E α) (r : R) : Prop :=
  r ∈ rows σ.db ∨ ∃ i, ∃ p ∈ (σ.session i).pending, p.new = r

theorem holds_of_view {σ : System ι D (Put R) E α} {i : ι} {r : R}
    (h : r ∈ rows ((σ.session i).view σ.db)) : σ.Holds r :=
  (rows_applyAll h).imp_right fun h => ⟨i, h⟩

variable [Fintype ι] [DecidableEq ι]

-- What there is after a step was there before, or has just been written.
theorem holds_step {σ : System ι D (Put R) E α} {a : Action ι E} {r : R} (h : (σ.step a).Holds r) :
    σ.Holds r ∨ ∃ p ∈ σ.writes a, p.new = r := by
  rcases step_cases (σ := σ) a with hs | ⟨i, rfl, -, hs⟩ | ⟨i, e, -, hs⟩
  · exact .inl <| hs ▸ h
  · rw [hs] at h
    have hw : ∀ p ∈ (σ.session i).pending ++ (σ.session i).next σ.db, p.new = r →
        σ.Holds r ∨ ∃ p ∈ σ.writes (.go i), p.new = r := by
      intro p hp hr
      cases List.mem_append.mp hp
      case inl hp => exact .inl <| .inr ⟨i, p, hp, hr⟩
      case inr hp => exact .inr ⟨p, hp, hr⟩
    rcases h with h | ⟨j, p, hp, hr⟩
    · rcases (σ.session i).advance_fst σ.db with hd | ⟨ps, hps, hd⟩
      · exact .inl <| .inl <| hd ▸ h
      · rw [hd] at h
        rcases rows_applyAll h with h | ⟨p, hp, hr⟩
        · exact .inl <| .inl h
        · exact hw p (hps hp) hr
    · by_cases hj : j = i
      case pos =>
        subst hj
        exact hw p (Session.advance_pending_subset _ _ <| by simpa using hp) hr
      case neg => exact .inl <| .inr ⟨j, p, by simpa [hj] using hp, hr⟩
  · rw [hs] at h
    rcases h with h | ⟨j, p, hp, hr⟩
    · exact .inl <| .inl h
    · by_cases hj : j = i
      case pos =>
        subst hj
        exact .inl <| .inr ⟨j, p, Session.fails_pending_subset _ e <| by simpa using hp, hr⟩
      case neg => exact .inl <| .inr ⟨j, p, by simpa [hj] using hp, hr⟩

theorem emits_step {N : D → List (Put R) → Prop} {σ : System ι D (Put R) E α}
    (h : ∀ i, (σ.session i).program.Emits N) (a : Action ι E) (i : ι) :
    ((σ.step a).session i).program.Emits N := by
  rcases step_cases (σ := σ) a with hs | ⟨j, -, -, hs⟩ | ⟨j, e, -, hs⟩
  · rw [hs]
    exact h i
  · rw [hs]
    by_cases hi : i = j
    case pos => subst hi; simpa using Session.emits_advance (h i) σ.db
    case neg => simpa [hi] using h i
  · rw [hs]
    by_cases hi : i = j
    case pos => subst hi; simpa using Session.emits_fails (h i) e
    case neg => simpa [hi] using h i

end System
end Rows
end ReadCommitted
