import SaasBackend.ReadCommitted.System

open Function (update)

namespace ReadCommitted

open Store

variable {D W K E α β : Type}

namespace Program

-- The program neither writes nor opens a block.
@[simp]
def Reads : Program D W E α → Prop
  | ret _       => True
  | raise _     => True
  | stmt ws k h => (∀ d, ws d = []) ∧ (∀ d, (k d).Reads) ∧ ∀ e, (h e).Reads
  | enter _     => False
  | leave _ _   => False
  | undo _      => False

-- Inside of `n` blocks, the program has not committed anything. It commits at most once, and all it does
-- after that is to return.
@[simp]
def Unitary : Nat → Program D W E α → Prop
  | _,     ret _       => True
  | _,     raise _     => True
  | 0,     stmt ws k h => (∀ d, ws d = [] ∧ (k d).Unitary 0 ∨ ∃ a, k d = ret a) ∧ ∀ e, (h e).Unitary 0
  | n + 1, stmt _ k h  => (∀ d, (k d).Unitary (n + 1)) ∧ ∀ e, (h e).Unitary (n + 1)
  | n,     enter k     => k.Unitary (n + 1)
  | 0,     leave k h   => k.Unitary 0 ∧ ∀ e, (h e).Unitary 0
  | 1,     leave k h   => (∃ a, k = ret a) ∧ ∀ e, (h e).Unitary 0
  | n + 2, leave k h   => k.Unitary (n + 1) ∧ ∀ e, (h e).Unitary (n + 1)
  | n,     undo k      => k.Unitary (n - 1)

variable {p : Program D W E α} {n : Nat}

-- A transaction commits at its end.
theorem Nested.unitary_closed (h : p.Nested n) : p.closed.Unitary (n + 1) := by
  induction p generalizing n
  case ret a          => cases h; exact ⟨⟨a, rfl⟩, fun _ => trivial⟩
  case raise          => trivial
  case stmt ih₁ ih₂   => exact ⟨fun d => ih₁ d (h.left d), fun e => ih₂ e (h.right e)⟩
  case enter ih       => exact ih h
  case leave ih₁ ih₂  =>
    cases n
    case zero => exact h.elim
    case succ => exact ⟨ih₁ h.left, fun e => ih₂ e (h.right e)⟩
  case undo ih        =>
    cases n
    case zero => exact h.elim
    case succ => exact ih h

theorem Unitary.map {f : α → β} (h : p.Unitary n) : (p.bind fun a => ret (f a)).Unitary n := by
  induction p generalizing n
  case ret | raise    => trivial
  case stmt ih₁ ih₂   =>
    cases n
    case succ => exact ⟨fun d => ih₁ d (h.left d), fun e => ih₂ e (h.right e)⟩
    case zero =>
      refine ⟨fun d => (h.left d).imp (And.imp_right <| ih₁ d) ?_, fun e => ih₂ e (h.right e)⟩
      rintro ⟨a, ha⟩
      exact ⟨f a, by simp [ha]⟩
  case enter ih       => exact ih h
  case undo ih        => exact ih h
  case leave ih₁ ih₂  =>
    rcases n with _ | _ | n
    · exact ⟨ih₁ h.left, fun e => ih₂ e (h.right e)⟩
    · obtain ⟨⟨a, rfl⟩, he⟩ := h
      exact ⟨⟨f a, rfl⟩, fun e => ih₂ e (he e)⟩
    · exact ⟨ih₁ h.left, fun e => ih₂ e (h.right e)⟩

theorem Reads.unitary_bind {f : α → Program D W E β} (h : p.Reads) (hf : ∀ a, (f a).Unitary 0) :
    (p.bind f).Unitary 0 := by
  induction p
  case ret a                => exact hf a
  case raise                => trivial
  case stmt ih₁ ih₂         =>
    exact ⟨fun d => .inl ⟨h.left d, ih₁ d (h.right.left d)⟩, fun e => ih₂ e (h.right.right e)⟩
  case enter | leave | undo => exact h.elim

-- An exception is only raised, and caught, as long as nothing is committed.
theorem Unitary.handle {f : E → Program D W E α} (h : p.Unitary n) (hn : p.Nested n)
    (hf : ∀ e, (f e).Unitary 0) : (p.handle f).Unitary n := by
  induction p generalizing n
  case ret            => trivial
  case raise e        => cases hn; exact hf e
  case stmt ih₁ ih₂   =>
    cases n
    case succ => exact ⟨fun d => ih₁ d (h.left d) (hn.left d), fun e => ih₂ e (h.right e) (hn.right e)⟩
    case zero =>
      refine ⟨fun d => (h.left d).imp (And.imp_right fun h => ih₁ d h (hn.left d)) ?_,
        fun e => ih₂ e (h.right e) (hn.right e)⟩
      rintro ⟨a, ha⟩
      exact ⟨a, by simp [ha]⟩
  case enter ih       => exact ih h hn
  case undo ih        =>
    cases n
    case zero => exact hn.elim
    case succ => exact ih h hn
  case leave ih₁ ih₂  =>
    rcases n with _ | _ | n
    · exact hn.elim
    · obtain ⟨⟨a, rfl⟩, he⟩ := h
      exact ⟨⟨a, rfl⟩, fun e => ih₂ e (he e) (hn.right e)⟩
    · exact ⟨ih₁ h.left hn.left, fun e => ih₂ e (h.right e) (hn.right e)⟩

end Program

namespace Service

-- The service commits at most once, and only in order to return.
structure Unitary (s : Service D W E α) : Prop where
  program : s.program.Unitary 0

structure Reads (s : Service D W E α) : Prop where
  program : s.program.Reads

namespace Reads

theorem select (q : D → α) : (select q : Service D W E α).Reads :=
  ⟨fun _ => rfl, fun _ => trivial, fun _ => trivial⟩

end Reads

namespace Unitary

variable {s : Service D W E α}

theorem pure (a : α) : (pure a : Service D W E α).Unitary :=
  ⟨trivial⟩

theorem raise (e : E) : (raise e : Service D W E α).Unitary :=
  ⟨trivial⟩

theorem stmt {ws : D → List W} {q : D → Except E α} (h : ∀ d, ws d = [] ∨ ∃ a, q d = .ok a) :
    (stmt ws q).Unitary := by
  refine ⟨fun d => ?_, fun _ => trivial⟩
  cases h d
  case inl hw =>
    refine .inl ⟨hw, ?_⟩
    cases hq : q d <;> simp [hq, Program.ofExcept]
  case inr ha =>
    obtain ⟨a, ha⟩ := ha
    exact .inr ⟨a, by simp [ha, Program.ofExcept]⟩

theorem execute (ws : D → List W) : (execute ws : Service D W E Unit).Unitary :=
  ⟨fun _ => .inr ⟨(), rfl⟩, fun _ => trivial⟩

theorem atomic (s : Service D W E α) : s.atomic.Unitary :=
  ⟨s.nested.unitary_closed⟩

theorem map (h : s.Unitary) (f : α → β) : (s >>= fun a => Pure.pure (f a)).Unitary :=
  ⟨h.program.map⟩

theorem handle {f : E → Service D W E α} (h : s.Unitary) (hf : ∀ e, (f e).Unitary) : (s.handle f).Unitary :=
  ⟨h.program.handle s.nested fun e => (hf e).program⟩

end Unitary

theorem Reads.unitary_bind {s : Service D W E β} {f : β → Service D W E α} (h : s.Reads)
    (hf : ∀ b, (f b).Unitary) : (s >>= f).Unitary :=
  ⟨h.program.unitary_bind fun b => (hf b).program⟩

end Service

variable [Store D W K E]

namespace Session

variable {s : Session D W E α}

-- The rest of the session commits at most once, and only in order to return.
def Unitary (s : Session D W E α) : Prop :=
  s.program.Unitary s.frames.length

theorem Unitary.advance (h : s.Unitary) (d : D) :
    (s.advance d).2.Unitary ∧ ((s.advance d).1 = d ∨ ∃ a, (s.advance d).2.program = .ret a) := by
  obtain ⟨p, fs⟩ := s
  cases p
  case ret | raise    => exact ⟨trivial, .inl rfl⟩
  case enter          => exact ⟨h, .inl rfl⟩
  case undo           => exact ⟨by simpa [Unitary, Session.advance] using h, .inl rfl⟩
  case leave k f      =>
    rcases fs with _ | ⟨f₁, _ | ⟨f₂, fs⟩⟩
    · exact ⟨h.left, .inl rfl⟩
    · obtain ⟨⟨a, rfl⟩, _⟩ := h
      exact ⟨trivial, .inr ⟨a, rfl⟩⟩
    · exact ⟨h.left, .inl rfl⟩
  case stmt ws k f    =>
    cases fs
    case cons f₁ fs =>
      simp only [Session.advance]
      split
      case h_1        => exact ⟨h.right _, .inl rfl⟩
      case h_2 hf     => cases hf
      case h_3 hf     => cases hf; exact ⟨h.left _, .inl rfl⟩
    case nil        =>
      simp only [Session.advance]
      split
      case h_1        => exact ⟨h.right _, .inl rfl⟩
      case h_3 hf     => cases hf
      case h_2        =>
        rcases h.left (Session.view ⟨.stmt ws k f, []⟩ d) with ⟨hw, hk⟩ | ⟨a, ha⟩
        · exact ⟨hk, .inl <| by rw [hw]; rfl⟩
        · rw [ha]
          exact ⟨trivial, .inr ⟨a, rfl⟩⟩

theorem Unitary.fails (h : s.Unitary) (e : E) : (s.fails e).Unitary := by
  obtain ⟨p, fs⟩ := s
  cases p
  case stmt   => cases fs <;> exact h.right e
  case leave  => rcases fs with _ | ⟨_, _ | _⟩ <;> exact h.right e
  all_goals exact h

end Session

namespace System

variable {ι : Type} [Fintype ι] [DecidableEq ι] [DecidableEq K] {σ : System ι D W E α} {i : ι}

theorem step_unitary (h : (σ.session i).Unitary) (a : Action ι E) : ((σ.step a).session i).Unitary := by
  rcases step_cases (σ := σ) a with hs | ⟨j, -, -, hs⟩ | ⟨j, e, -, hs⟩
  · rwa [hs]
  · rw [hs]
    by_cases hi : i = j
    case pos => subst hi; simpa using (h.advance σ.db).left
    case neg => simpa [hi] using h
  · rw [hs]
    by_cases hi : i = j
    case pos => subst hi; simpa using h.fails e
    case neg => simpa [hi] using h

theorem run_unitary (h : (σ.session i).Unitary) (as : List (Action ι E)) : ((σ.run as).session i).Unitary := by
  induction as generalizing σ
  case nil      => exact h
  case cons hi  => exact hi <| step_unitary h _

-- A session that has returned is done.
theorem Returned.step {a : α} (h : σ.Returned i a) (b : Action ι E) : (σ.step b).Returned i a := by
  unfold Returned at *
  rcases step_cases (σ := σ) b with hs | ⟨j, -, -, hs⟩ | ⟨j, e, -, hs⟩
  · rwa [hs]
  · rw [hs]
    by_cases hi : i = j
    case pos => subst hi; simp [Session.advance, h]
    case neg => simpa [hi] using h
  · rw [hs]
    by_cases hi : i = j
    case pos => subst hi; simp [Session.fails, h]
    case neg => simpa [hi] using h

theorem Returned.run {a : α} (h : σ.Returned i a) (as : List (Action ι E)) : (σ.run as).Returned i a := by
  induction as generalizing σ
  case nil      => exact h
  case cons hi  => exact hi <| h.step _

-- The tables are only changed by a session which returns, with the same step.
theorem returned_of_unitary (h : (σ.session i).Unitary) (hd : (σ.step (.go i)).db ≠ σ.db) :
    ∃ a, (σ.step (.go i)).Returned i a := by
  by_cases hb : σ.Blocked i
  case pos => exact (hd <| congrArg System.db <| if_pos hb).elim
  case neg =>
    rw [step_go_of_not_blocked hb] at hd ⊢
    cases (h.advance σ.db).right
    case inl he => exact (hd he).elim
    case inr ha =>
      obtain ⟨a, ha⟩ := ha
      exact ⟨a, by simpa [Returned] using ha⟩

theorem Returned.step_db {a : α} (h : σ.Returned i a) : (σ.step (.go i)).db = σ.db := by
  unfold Returned at h
  by_cases hb : σ.Blocked i
  case pos => exact congrArg System.db <| if_pos hb
  case neg => rw [step_go_of_not_blocked hb]; simp [Session.advance, h]

end System
end ReadCommitted
