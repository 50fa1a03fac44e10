import SaasBackend.ReadCommitted.System

open Function (update)
open scoped Finset

namespace ReadCommitted

variable {ι D W K E α β Φ : Type} [Store D W K E]

open Store

-- The program has not ended.
def Program.IsCommand : Program D W E α → Prop
  | .ret _ | .raise _ => False
  | _                 => True

-- How a session advances through the statements of a service.
namespace Session

variable {d : D} {g : List W} {ws : D → List W}

theorem advance_select (q : D → β) (f : β → Service D W E α) (d : D) :
    advance ⟨(Service.select q >>= f).program, []⟩ d = (d, ⟨(f (q d)).program, []⟩) :=
  rfl

-- A single statement outside of all blocks advances to its result.
theorem advance_execute (ws : D → List W) (d : D) :
    advance ⟨(Service.execute ws).program, []⟩ d =
      (((Service.execute ws).run d).2, ⟨.ofExcept ((Service.execute ws).run d).1, []⟩) := by
  rw [Service.run_execute]
  simp only [advance, Service.execute, view, pending, uncommitted_nil, applyAll_nil]
  cases check d (ws d) <;> rfl

theorem advance_stmt (ws : D → List W) (q : D → Except E β) (f : β → Service D W E α) (d : D) :
    advance ⟨(Service.stmt ws q >>= f).program, []⟩ d =
      match check d (ws d), q d with
      | some e, _        => (d, ⟨.raise e, []⟩)
      | none,   .ok a    => (applyAll d (ws d), ⟨(f a).program, []⟩)
      | none,   .error e => (applyAll d (ws d), ⟨.raise e, []⟩) := by
  simp only [advance, Service.stmt, view, pending, uncommitted_nil, applyAll_nil, Service.bind_program,
    Program.bind]
  cases check d (ws d)
  case some => rfl
  case none => cases q d <;> rfl

-- Inside of blocks a statement sees, and adds to, the writes of its session.
theorem advance_select_block (q : D → β) (f : β → Service D W E α) (g : List W)
    (gs : List (List W)) (d : D) :
    advance ⟨(Service.select q >>= f).program.closed, g :: gs⟩ d =
      (d, ⟨(f (q (applyAll d (uncommitted (g :: gs))))).program.closed, g :: gs⟩) := by
  change (d, (⟨_, (g ++ []) :: gs⟩ : Session D W E α)) = _
  rw [List.append_nil]
  rfl

theorem advance_stmt_block (ws : D → List W) (q : D → Except E β) (f : β → Service D W E α)
    (g : List W) (gs : List (List W)) (d : D) :
    let v := applyAll d (uncommitted (g :: gs))
    advance ⟨(Service.stmt ws q >>= f).program.closed, g :: gs⟩ d =
      match check v (ws v), q v with
      | some e, _        => (d, ⟨(Service.raise e : Service D W E α).program.closed, g :: gs⟩)
      | none,   .ok a    => (d, ⟨(f a).program.closed, (g ++ ws v) :: gs⟩)
      | none,   .error e =>
        (d, ⟨(Service.raise e : Service D W E α).program.closed, (g ++ ws v) :: gs⟩) := by
  simp only [advance, Service.stmt, view, pending, Service.bind_program, Program.bind,
    Program.closed, Service.raise]
  cases check (applyAll d (uncommitted (g :: gs))) (ws (applyAll d (uncommitted (g :: gs))))
  case some => rfl
  case none => cases q (applyAll d (uncommitted (g :: gs))) <;> rfl

theorem advance_execute_block (ws : D → List W) (f : Unit → Service D W E α) (g : List W)
    (gs : List (List W)) (d : D) :
    let v := applyAll d (uncommitted (g :: gs))
    advance ⟨(Service.execute ws >>= f).program.closed, g :: gs⟩ d =
      match check v (ws v) with
      | none   => (d, ⟨(f ()).program.closed, (g ++ ws v) :: gs⟩)
      | some e => (d, ⟨(Service.raise e : Service D W E α).program.closed, g :: gs⟩) := by
  refine (advance_stmt_block ws (fun _ => .ok ()) f g gs d).trans ?_
  cases check (applyAll d (uncommitted (g :: gs))) (ws (applyAll d (uncommitted (g :: gs)))) <;> rfl

theorem advance_select_closed (q : D → β) (f : β → Service D W E α) (g : List W) (d : D) :
    advance ⟨(Service.select q >>= f).program.closed, [g]⟩ d =
      (d, ⟨(f (q (applyAll d g))).program.closed, [g]⟩) :=
  advance_select_block q f g [] d

-- Besides its end, the commands of a block are those of its body.
theorem advance_closed {p : Program D W E α} (h : p.IsCommand) (fs : List (List W)) (d : D) :
    advance ⟨p.closed, fs⟩ d =
      ((advance ⟨p, fs⟩ d).1, ⟨(advance ⟨p, fs⟩ d).2.program.closed, (advance ⟨p, fs⟩ d).2.frames⟩) := by
  cases p
  case ret | raise  => exact h.elim
  case stmt ws k f  =>
    simp only [Program.closed, advance, view, pending]
    split
    all_goals simp [*]
  case leave        => rcases fs with _ | ⟨_, _ | _⟩ <;> rfl
  all_goals rfl

theorem fails_closed {p : Program D W E α} (h : p.IsCommand) (fs : List (List W)) (e : E) :
    fails ⟨p.closed, fs⟩ e = ⟨(fails ⟨p, fs⟩ e).program.closed, (fails ⟨p, fs⟩ e).frames⟩ := by
  cases p
  case ret | raise  => exact h.elim
  all_goals rfl

-- Besides its end, the commands of a program are not affected by what follows it.
theorem advance_bind {p : Program D W E β} (h : p.IsCommand) (f : β → Program D W E α)
    (fs : List (List W)) (d : D) :
    advance ⟨p.bind f, fs⟩ d =
      ((advance ⟨p, fs⟩ d).1, ⟨(advance ⟨p, fs⟩ d).2.program.bind f, (advance ⟨p, fs⟩ d).2.frames⟩) := by
  cases p
  case ret | raise  => exact h.elim
  case stmt ws k f  =>
    simp only [Program.bind, advance, view, pending]
    split
    all_goals simp [*]
  case leave        => rcases fs with _ | ⟨_, _ | _⟩ <;> rfl
  all_goals rfl

theorem next_bind {p : Program D W E β} (h : p.IsCommand) (f : β → Program D W E α)
    (fs : List (List W)) (d : D) : next ⟨p.bind f, fs⟩ d = next ⟨p, fs⟩ d := by
  cases p
  case ret | raise  => exact h.elim
  all_goals rfl

theorem fails_bind {p : Program D W E β} (h : p.IsCommand) (f : β → Program D W E α)
    (fs : List (List W)) (e : E) :
    fails ⟨p.bind f, fs⟩ e = ⟨(fails ⟨p, fs⟩ e).program.bind f, (fails ⟨p, fs⟩ e).frames⟩ := by
  cases p
  case ret | raise  => exact h.elim
  all_goals rfl

-- A session whose result is passed on in another form.
def map (f : β → α) (s : Session D W E β) : Session D W E α where
  program := s.program.bind fun b => .ret (f b)
  frames  := s.frames

theorem advance_map (f : β → α) (s : Session D W E β) (d : D) :
    (s.map f).advance d = ((s.advance d).1, (s.advance d).2.map f) := by
  obtain ⟨p, fs⟩ := s
  cases p
  case ret | raise  => rfl
  all_goals
    refine advance_bind ?_ _ fs d
    trivial

theorem next_map (f : β → α) (s : Session D W E β) (d : D) : (s.map f).next d = s.next d := by
  obtain ⟨p, fs⟩ := s
  cases p
  case ret | raise  => rfl
  all_goals
    refine next_bind ?_ _ fs d
    trivial

omit [Store D W K E] in
theorem map_eq_ret {f : β → α} {s : Session D W E β} {a : α} (h : (s.map f).program = .ret a) :
    ∃ b, s.program = .ret b := by
  obtain ⟨p, fs⟩ := s
  cases p
  case ret b  => exact ⟨b, rfl⟩
  all_goals cases h

omit [Store D W K E] in
theorem map_eq_raise {f : β → α} {s : Session D W E β} {e : E} (h : (s.map f).program = .raise e) :
    s.program = .raise e := by
  obtain ⟨p, fs⟩ := s
  cases p
  case raise e' => cases h; rfl
  all_goals cases h

theorem advance_stmt_closed {q : D → Except E β} {a : β} (f : β → Service D W E α)
    (hc : check (applyAll d g) (ws (applyAll d g)) = none) (hq : q (applyAll d g) = .ok a) :
    advance ⟨(Service.stmt ws q >>= f).program.closed, [g]⟩ d =
      (d, ⟨(f a).program.closed, [g ++ ws (applyAll d g)]⟩) :=
  (advance_stmt_block ws q f g [] d).trans <| by simp [hc, hq]

section Leads

variable {s : Session D W E α} {r : Except E α × List D × D}

-- What a transaction leads to if nobody interferes. The tables do not notice its statements.
structure Leads (s : Session D W E α) (d : D) (r : Except E α × List D × D) : Prop where
  nested : ∃ n, s.frames.length = n + 1 ∧ s.program.Nested n
  exec   : s.program.exec (System.savedViews d s.frames) (s.view d) = r

theorem Leads.start (s : Service D W E α) (d : D) :
    Leads (⟨s.program, [[]]⟩ : Session D W E α) d ((s.run d).1, [d], (s.run d).2) :=
  ⟨⟨0, rfl, s.nested⟩, s.exec_eq_run [d] d⟩

theorem Leads.ended {a : α} (h : s.Leads d r)
    (hs : s.program = .ret a) : r.1 = .ok a ∧ r.2.2 = s.view d := by
  have he := h.exec
  rw [hs] at he
  exact ⟨he ▸ rfl, he ▸ rfl⟩

-- Inside of the block, a session advances without committing anything.
theorem Leads.advance (h : s.Leads d r) :
    (s.advance d).1 = d ∧ (s.advance d).2.Leads d r := by
  obtain ⟨⟨n, hl, hn⟩, he⟩ := h
  obtain ⟨p, fs⟩ := s
  obtain ⟨f, fs, rfl⟩ := List.exists_cons_of_length_eq_add_one hl
  cases p
  case ret | raise => exact ⟨rfl, ⟨n, hl, hn⟩, he⟩
  case stmt ws k g =>
    rw [Session.advance]
    dsimp only
    simp only [Program.exec] at he
    split
    case h_1 x hc =>
      rw [hc] at he
      exact ⟨rfl, ⟨n, hl, hn.right x⟩, he⟩
    case h_2 hc hf => cases hf
    case h_3 hc hf =>
      cases hf
      rw [hc] at he
      refine ⟨rfl, ⟨n, hl, hn.left _⟩, ?_⟩
      rw [←he]
      simp [System.savedViews, Session.view, Session.pending, Store.applyAll_append]
  case enter k =>
    refine ⟨rfl, ⟨n + 1, congrArg _ hl, hn⟩, ?_⟩
    rw [←he]
    simp [System.savedViews, Session.view, Session.pending, Program.exec, Session.advance]
  case leave k g =>
    cases n
    case zero   => exact hn.elim
    case succ n =>
      obtain ⟨f', fs, rfl⟩ := List.exists_cons_of_length_eq_add_one (Nat.succ.inj hl)
      refine ⟨rfl, ⟨n, Nat.succ.inj hl, hn.left⟩, ?_⟩
      rw [←he]
      simp [System.savedViews, Session.view, Session.pending, Program.exec, Session.advance]
  case undo k =>
    cases n
    case zero   => exact hn.elim
    case succ n =>
      refine ⟨rfl, ⟨n, Nat.succ.inj hl, hn⟩, ?_⟩
      rw [←he]
      simp [System.savedViews, Session.view, Session.pending, Program.exec, Session.advance]

end Leads
end Session

namespace System

variable [Fintype ι] [DecidableEq ι]

-- Each session is in a phase of its call.
def InPhase (R : ι → Session D W E α → Φ → Prop) (σ : System ι D W E α) (phase : ι → Φ) : Prop :=
  ∀ i, R i (σ.session i) (phase i)

variable {R : ι → Session D W E α → Φ → Prop} {σ : System ι D W E α} {phase : ι → Φ}

omit [Store D W K E] [Fintype ι] in
theorem InPhase.update (h : σ.InPhase R phase) {i : ι} {s : Session D W E α} {x : Φ} {d : D}
    (hx : R i s x) : InPhase R ⟨d, update σ.session i s⟩ (update phase i x) := by
  intro j
  by_cases hj : j = i
  case pos => subst hj; simpa using hx
  case neg => simpa [hj] using h j

-- How many sessions are in the phase `x`.
def count [DecidableEq Φ] (phase : ι → Φ) (x : Φ) : Nat :=
  #{i | phase i = x}

theorem count_update [DecidableEq Φ] (phase : ι → Φ) (i : ι) (x y : Φ) :
    count (update phase i y) x + (if phase i = x then 1 else 0) =
      count phase x + (if y = x then 1 else 0) := by
  simp only [count, Finset.card_filter]
  have h₁ := Finset.add_sum_erase Finset.univ (fun j => if update phase i y j = x then 1 else 0)
    (Finset.mem_univ i)
  have h₂ := Finset.add_sum_erase Finset.univ (fun j => if phase j = x then 1 else 0)
    (Finset.mem_univ i)
  have h₃ : ∑ j ∈ Finset.univ.erase i, (if update phase i y j = x then 1 else 0) =
      ∑ j ∈ Finset.univ.erase i, (if phase j = x then 1 else 0) :=
    Finset.sum_congr rfl fun j hj => by rw [Function.update_of_ne (Finset.ne_of_mem_erase hj)]
  simp only [Function.update_self] at h₁
  omega

end System
end ReadCommitted
