import SaasBackend.ReadCommitted.Phases

namespace ReadCommitted

variable {D W K E α β : Type} [Store D W K E]

open Store

namespace Program

-- The program ends with an exception.
def Fails (p : Program D W E α) : Prop :=
  ∀ saved d, ∃ e, (p.exec saved d).1 = .error e

-- No exception is caught: the program fails once a statement is refused or a block is rolled back.
inductive Unhandled : Program D W E α → Prop
  | ret a                                                                 : Unhandled (ret a)
  | raise e                                                               : Unhandled (raise e)
  | stmt {ws k h} (hk : ∀ d, Unhandled (k d)) (hf : ∀ e, (h e).Fails)     : Unhandled (stmt ws k h)
  | enter {k} (hk : Unhandled k)                                          : Unhandled (enter k)
  | leave {k h} (hk : Unhandled k)                                        : Unhandled (leave k h)
  | undo {k} (hf : k.Fails)                                               : Unhandled (undo k)

theorem Fails.raise (e : E) : (raise e : Program D W E α).Fails :=
  fun _ _ => ⟨e, rfl⟩

theorem Fails.bind {p : Program D W E β} (h : p.Fails) (f : β → Program D W E α) : (p.bind f).Fails := by
  intro saved d
  obtain ⟨e, he⟩ := h saved d
  rw [exec_bind]
  cases hr : p.exec saved d
  case mk r x =>
    rw [hr] at he
    cases he
    exact ⟨e, rfl⟩

theorem Fails.closed {p : Program D W E α} (h : p.Fails) : p.closed.Fails := by
  intro saved d
  obtain ⟨e, he⟩ := h saved d
  rw [exec_closed]
  rcases hr : p.exec saved d with ⟨r, _ | _, d'⟩
  all_goals
    rw [hr] at he
    cases he
    exact ⟨e, rfl⟩

theorem Unhandled.bind {p : Program D W E β} {f : β → Program D W E α} (h : p.Unhandled)
    (hf : ∀ b, (f b).Unhandled) : (p.bind f).Unhandled := by
  induction h
  case ret b        => exact hf b
  case raise e      => exact .raise e
  case stmt he hi   => exact .stmt hi fun e => (he e).bind f
  case enter hi     => exact .enter hi
  case leave hi     => exact .leave hi
  case undo he      => exact .undo <| he.bind f

theorem Unhandled.closed {p : Program D W E α} (h : p.Unhandled) : p.closed.Unhandled := by
  induction h
  case ret a        => exact .leave <| .ret a
  case raise e      => exact .undo <| .raise e
  case stmt he hi   => exact .stmt hi fun e => (he e).closed
  case enter hi     => exact .enter hi
  case leave hi     => exact .leave hi
  case undo he      => exact .undo he.closed

end Program

-- The service does not catch exceptions.
structure Service.Unhandled (s : Service D W E α) : Prop where
  program : s.program.Unhandled

namespace Service.Unhandled

theorem pure (a : α) : (pure a : Service D W E α).Unhandled :=
  ⟨.ret a⟩

theorem raise (e : E) : (raise e : Service D W E α).Unhandled :=
  ⟨.raise e⟩

theorem select (q : D → α) : (select q : Service D W E α).Unhandled :=
  ⟨.stmt (fun d => .ret (q d)) Program.Fails.raise⟩

theorem execute (ws : D → List W) : (execute ws : Service D W E Unit).Unhandled :=
  ⟨.stmt (fun _ => .ret ()) Program.Fails.raise⟩

theorem bind {s : Service D W E β} {f : β → Service D W E α} (h : s.Unhandled) (hf : ∀ b, (f b).Unhandled) :
    (s >>= f).Unhandled :=
  ⟨h.program.bind fun b => (hf b).program⟩

theorem atomic {s : Service D W E α} (h : s.Unhandled) : s.atomic.Unhandled :=
  ⟨.enter h.program.closed⟩

end Service.Unhandled

-- A session which catches no exception, and which would succeed if nobody interfered, only adds to its
-- writes until it has ended.
theorem Session.Leads.advance_unhandled {s : Session D W E α} {d : D} {r : Except E α × List D × D} {a : α}
    (h : s.Leads d r) (hr : r.1 = .ok a) (hu : s.program.Unhandled) :
    (s.advance d).2.program.Unhandled ∧ (s.advance d).2.pending = s.pending ++ s.next d := by
  obtain ⟨⟨n, hl, hn⟩, he⟩ := h
  obtain ⟨p, fs⟩ := s
  obtain ⟨f, fs, rfl⟩ := List.exists_cons_of_length_eq_add_one hl
  cases hu
  case ret a    => exact ⟨.ret a, (List.append_nil _).symm⟩
  case raise e  => exact ⟨.raise e, (List.append_nil _).symm⟩
  case stmt ws k g hk hf =>
    simp only [Session.advance, Session.next, Session.pending]
    simp only [Program.exec] at he
    split
    case h_1 e hc =>
      obtain ⟨x, hx⟩ := hf e (System.savedViews d (f :: fs)) (Session.view ⟨.stmt ws k g, f :: fs⟩ d)
      rw [hc] at he
      dsimp only at he
      rw [he, hr] at hx
      cases hx
    case h_2 hc hf => cases hf
    case h_3 hc hf =>
      cases hf
      exact ⟨hk _, by simp⟩
  case enter k hk => exact ⟨hk, by simp [Session.advance, Session.next, Session.pending]⟩
  case leave k g hk =>
    cases n
    case zero   => exact hn.elim
    case succ n =>
      obtain ⟨f', fs, rfl⟩ := List.exists_cons_of_length_eq_add_one (Nat.succ.inj hl)
      exact ⟨hk, by simp [Session.advance, Session.next, Session.pending]⟩
  case undo k hf =>
    obtain ⟨x, hx⟩ := hf (System.savedViews d fs) (Store.applyAll d <| Session.uncommitted fs)
    have he : k.exec (System.savedViews d fs) (Store.applyAll d <| Session.uncommitted fs) = r := he
    rw [he, hr] at hx
    cases hx

end ReadCommitted
