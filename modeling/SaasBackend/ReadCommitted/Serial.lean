import SaasBackend.ReadCommitted.Program

namespace ReadCommitted

variable {D W K E α β : Type} [Store D W K E]

namespace Store

def applyAll (d : D) (ws : List W) : D :=
  ws.foldl apply d

-- The first constraint that is violated when `ws` are written one after another.
def check (d : D) : List W → Option E
  | []      => none
  | w :: ws => violation d w <|> check (apply d w) ws

@[simp]
theorem applyAll_nil (d : D) : applyAll d [] = d :=
  rfl

@[simp]
theorem applyAll_cons (d : D) (w : W) (ws : List W) :
    applyAll d (w :: ws) = applyAll (apply d w) ws :=
  rfl

theorem applyAll_append (d : D) (ws₁ ws₂ : List W) :
    applyAll d (ws₁ ++ ws₂) = applyAll (applyAll d ws₁) ws₂ :=
  List.foldl_append

@[simp]
theorem check_nil (d : D) : check d [] = none :=
  rfl

theorem check_cons_eq_none {d : D} {w : W} {ws : List W} :
    check d (w :: ws) = none ↔ violation d w = none ∧ check (apply d w) ws = none := by
  simp [check]

theorem applyAll_related {I : D → D → Prop} [Std.Refl I] [IsTrans D I] {ws : List W}
    (h : ∀ w ∈ ws, ∀ d : D, I d (apply d w)) (d : D) : I d (applyAll d ws) := by
  induction ws generalizing d
  case nil          => exact Std.Refl.refl d
  case cons w ws hi =>
    have hi := hi fun w hw => h w <| List.mem_cons_of_mem _ hw
    exact Trans.trans (h w List.mem_cons_self d) (hi _)

-- Writes that never violate a constraint can be performed one after another.
theorem check_eq_none {ws : List W} (h : ∀ w ∈ ws, ∀ d : D, violation d w = none) (d : D) :
    check d ws = none := by
  induction ws generalizing d
  case nil          => rfl
  case cons w ws hi =>
    have hi := hi fun w hw => h w <| List.mem_cons_of_mem _ hw
    exact check_cons_eq_none.mpr ⟨h w List.mem_cons_self d, hi _⟩

@[simp]
theorem check_singleton (d : D) (w : W) : check d [w] = violation d w := by
  simp [check]

end Store

open Store

namespace Program

-- Executes a program while no other session is active. The list holds the tables as they were when
-- the currently open blocks were entered.
@[simp]
def exec : Program D W E α → List D → D → Except E α × List D × D
  | ret a,       saved,      d => (.ok a, saved, d)
  | raise e,     saved,      d => (.error e, saved, d)
  | stmt ws k h, saved,      d =>
    match check d (ws d) with
    | none   => (k d).exec saved (applyAll d (ws d))
    | some e => (h e).exec saved d
  | enter k,     saved,      d => k.exec (d :: saved) d
  | leave k _,   saved,      d => k.exec saved.tail d
  | undo k,      [],         d => k.exec [] d
  | undo k,      s :: saved, _ => k.exec saved s

theorem exec_bind (p : Program D W E α) (f : α → Program D W E β) (saved : List D) (d : D) :
    (p.bind f).exec saved d =
      match p.exec saved d with
      | (.ok a, saved', d')    => (f a).exec saved' d'
      | (.error e, saved', d') => (.error e, saved', d') := by
  induction p generalizing saved d
  case ret | raise      => rfl
  case stmt ih₁ ih₂     =>
    simp only [bind, exec]
    split
    · exact ih₁ ..
    · exact ih₂ ..
  case enter ih         => exact ih ..
  case leave ih _       => exact ih ..
  case undo ih          => cases saved <;> exact ih ..

theorem exec_handle (p : Program D W E α) (f : E → Program D W E α) (saved : List D) (d : D) :
    (p.handle f).exec saved d =
      match p.exec saved d with
      | (.ok a, saved', d')    => (.ok a, saved', d')
      | (.error e, saved', d') => (f e).exec saved' d' := by
  induction p generalizing saved d
  case ret | raise      => rfl
  case stmt ih₁ ih₂     =>
    simp only [handle, exec]
    split
    · exact ih₁ ..
    · exact ih₂ ..
  case enter ih         => exact ih ..
  case leave ih _       => exact ih ..
  case undo ih          => cases saved <;> exact ih ..

theorem exec_closed (p : Program D W E α) (saved : List D) (d : D) :
    p.closed.exec saved d =
      match p.exec saved d with
      | (.ok a, saved', d')         => (.ok a, saved'.tail, d')
      | (.error e, [], d')          => (.error e, [], d')
      | (.error e, s :: saved', _)  => (.error e, saved', s) := by
  induction p generalizing saved d
  case ret              => rfl
  case raise            => cases saved <;> rfl
  case stmt ih₁ ih₂     =>
    simp only [closed, exec]
    split
    · exact ih₁ ..
    · exact ih₂ ..
  case enter ih         => exact ih ..
  case leave ih _       => exact ih ..
  case undo ih          => cases saved <;> exact ih ..

-- A properly nested program neither reads nor changes what was saved by the blocks around it.
theorem exec_append {p : Program D W E α} {o saved : List D} {d : D}
    (h : p.Nested o.length) :
    p.exec (o ++ saved) d = ((p.exec o d).1, saved, (p.exec o d).2.2) := by
  induction p generalizing o d
  case ret | raise      => simp [exec, List.length_eq_zero_iff.mp h]
  case stmt ws k f ih₁ ih₂ =>
    simp only [exec]
    split
    · exact ih₁ _ <| h.left _
    · exact ih₂ _ <| h.right _
  case enter ih         => exact ih (o := d :: o) h
  case leave ih _       =>
    cases o
    case nil  => exact h.elim
    case cons => exact ih h.left
  case undo ih          =>
    cases o
    case nil  => exact h.elim
    case cons => exact ih h

end Program

namespace Service

-- The result and the final tables of a call that no other call overlaps with.
def run (s : Service D W E α) (d : D) : Except E α × D :=
  ((s.program.exec [] d).1, (s.program.exec [] d).2.2)

theorem exec_eq_run (s : Service D W E α) (saved : List D) (d : D) :
    s.program.exec saved d = ((s.run d).1, saved, (s.run d).2) :=
  Program.exec_append (o := []) s.nested

@[simp]
theorem run_pure (a : α) (d : D) : (pure a : Service D W E α).run d = (.ok a, d) :=
  rfl

@[simp]
theorem run_raise (e : E) (d : D) : (raise e : Service D W E α).run d = (.error e, d) :=
  rfl

@[simp]
theorem run_select (q : D → α) (d : D) : (select q : Service D W E α).run d = (.ok (q d), d) :=
  rfl

theorem run_select_eq_ok {q : D → α} {a : α} {d d' : D} :
    (select q : Service D W E α).run d = (.ok a, d') ↔ q d = a ∧ d = d' := by
  simp

theorem run_execute (ws : D → List W) (d : D) :
    (execute ws : Service D W E Unit).run d =
      match check d (ws d) with
      | none   => (.ok (), applyAll d (ws d))
      | some e => (.error e, d) := by
  simp only [run, execute, Program.exec]
  split <;> rfl

theorem run_stmt (ws : D → List W) (q : D → Except E α) (d : D) :
    (stmt ws q).run d =
      match check d (ws d) with
      | none   => (q d, applyAll d (ws d))
      | some e => (.error e, d) := by
  simp only [run, stmt, Program.exec]
  split
  · cases q d <;> rfl
  · rfl

theorem run_bind (s : Service D W E α) (f : α → Service D W E β) (d : D) :
    (s >>= f).run d =
      match s.run d with
      | (.ok a, d')    => (f a).run d'
      | (.error e, d') => (.error e, d') := by
  have h := Program.exec_bind s.program (fun a => (f a).program) [] d
  rw [exec_eq_run] at h
  rw [run, bind_program, h]
  cases s.run d
  case mk r _ => cases r <;> rfl

theorem run_bind_of_ok {s : Service D W E α} {f : α → Service D W E β} {a : α} {d d₁ : D}
    (h : s.run d = (.ok a, d₁)) : (s >>= f).run d = (f a).run d₁ := by
  rw [run_bind, h]

theorem run_bind_of_error {s : Service D W E α} (f : α → Service D W E β) {e : E} {d d₁ : D}
    (h : s.run d = (.error e, d₁)) : (s >>= f).run d = (.error e, d₁) := by
  rw [run_bind, h]

theorem run_handle (s : Service D W E α) (f : E → Service D W E α) (d : D) :
    (s.handle f).run d =
      match s.run d with
      | (.ok a, d')    => (.ok a, d')
      | (.error e, d') => (f e).run d' := by
  have h := Program.exec_handle s.program (fun e => (f e).program) [] d
  rw [exec_eq_run] at h
  rw [run, handle, h]
  cases s.run d
  case mk r _ => cases r <;> rfl

-- A transaction either commits all of its writes or none.
theorem run_atomic (s : Service D W E α) (d : D) :
    s.atomic.run d =
      match s.run d with
      | (.ok a, d')   => (.ok a, d')
      | (.error e, _) => (.error e, d) := by
  have h := Program.exec_closed s.program [d] d
  rw [exec_eq_run] at h
  rw [run, atomic, Program.exec, h]
  cases s.run d
  case mk r _ => cases r <;> rfl

theorem run_eq_ok {s : Service D W E α} {a : α} {d : D} (h : (s.run d).fst.toOption = some a) :
    s.run d = (.ok a, (s.run d).snd) := by
  cases hr : s.run d
  case mk r d' =>
    rw [hr] at h
    cases r
    case error  => cases h
    case ok     => rw [Option.some.inj h]

theorem run_bind_eq_ok {s : Service D W E α} {f : α → Service D W E β} {b : β} {d d' : D} :
    (s >>= f).run d = (.ok b, d') ↔
      ∃ a d₁, s.run d = (.ok a, d₁) ∧ (f a).run d₁ = (.ok b, d') := by
  rw [run_bind]
  constructor
  case mp =>
    intro hr
    split at hr
    case h_1 a d₁ h => exact ⟨a, d₁, h, hr⟩
    case h_2        => cases hr
  case mpr =>
    intro ⟨a, d₁, h, hr⟩
    rw [h, ←hr]

theorem run_bind_eq_error {s : Service D W E α} {f : α → Service D W E β} {e : E} {d d' : D} :
    (s >>= f).run d = (.error e, d') ↔
      s.run d = (.error e, d') ∨ ∃ a d₁, s.run d = (.ok a, d₁) ∧ (f a).run d₁ = (.error e, d') := by
  rw [run_bind]
  cases s.run d
  case mk r d₁ => cases r <;> simp

theorem run_atomic_eq_ok {s : Service D W E α} {a : α} {d d' : D} :
    s.atomic.run d = (.ok a, d') ↔ s.run d = (.ok a, d') := by
  rw [run_atomic]
  split
  case h_1 h => rw [h]
  case h_2 h => simp [h]

theorem run_atomic_eq_error {s : Service D W E α} {e : E} {d d' : D}
    (h : s.atomic.run d = (.error e, d')) : d' = d := by
  rw [run_atomic] at h
  split at h
  case h_1 => cases h
  case h_2 => exact (congrArg Prod.snd h).symm

theorem run_stmt_eq_ok {ws : D → List W} {q : D → Except E α} {a : α} {d d' : D} :
    (stmt ws q).run d = (.ok a, d') ↔
      check d (ws d) = none ∧ q d = .ok a ∧ applyAll d (ws d) = d' := by
  rw [run_stmt]
  split
  case h_1 h => simp [h]
  case h_2 h => simp [h]

-- Every serial run of `s` relates the tables before and after it by `I`.
structure Maintains (I : D → D → Prop) (s : Service D W E α) : Prop where
  related : ∀ d, I d (s.run d).2

namespace Maintains

variable {I : D → D → Prop}

theorem of_run_eq {s : Service D W E α} {r : Except E α} {d d' : D} (h : s.Maintains I)
    (hr : s.run d = (r, d')) : I d d' := by
  have hd := h.related d
  rwa [hr] at hd

variable [Std.Refl I]

theorem pure (a : α) : (pure a : Service D W E α).Maintains I :=
  ⟨fun _ => Std.Refl.refl _⟩

theorem raise (e : E) : (raise e : Service D W E α).Maintains I :=
  ⟨fun _ => Std.Refl.refl _⟩

theorem select (q : D → α) : (select q : Service D W E α).Maintains I :=
  ⟨fun _ => Std.Refl.refl _⟩

theorem stmt {ws : D → List W} {q : D → Except E α}
    (h : ∀ d, check d (ws d) = none → I d (applyAll d (ws d))) : (stmt ws q).Maintains I := by
  constructor
  intro d
  rw [run_stmt]
  split
  case h_1 hc => exact h d hc
  case h_2    => exact Std.Refl.refl d

theorem execute {ws : D → List W} (h : ∀ d, check d (ws d) = none → I d (applyAll d (ws d))) :
    (execute ws : Service D W E Unit).Maintains I :=
  Maintains.stmt (q := fun _ => .ok ()) h

-- What a transaction does is undone when it fails.
theorem atomic {s : Service D W E α} (h : s.Maintains I) : s.atomic.Maintains I := by
  constructor
  intro d
  rw [run_atomic]
  split
  case h_1 hr => exact h.of_run_eq hr
  case h_2    => exact Std.Refl.refl d

variable [IsTrans D I]

omit [Std.Refl I] in
theorem bind {s : Service D W E α} {f : α → Service D W E β} (h : s.Maintains I)
    (hf : ∀ a, (f a).Maintains I) : (s >>= f).Maintains I := by
  constructor
  intro d
  rw [run_bind]
  split
  case h_1 a _ hr => exact Trans.trans (h.of_run_eq hr) <| (hf a).related _
  case h_2 hr     => exact h.of_run_eq hr

omit [Std.Refl I] in
theorem handle {s : Service D W E α} {f : E → Service D W E α} (h : s.Maintains I)
    (hf : ∀ e, (f e).Maintains I) : (s.handle f).Maintains I := by
  constructor
  intro d
  rw [run_handle]
  split
  case h_1 hr   => exact h.of_run_eq hr
  case h_2 e _ hr => exact Trans.trans (h.of_run_eq hr) <| (hf e).related _

end Maintains

-- The tables agree on what `g` yields.
def Preserved {γ : Type} (g : D → γ) (d d' : D) : Prop :=
  g d' = g d

instance {γ : Type} (g : D → γ) : Std.Refl (Preserved g) where
  refl _ := rfl

instance {γ : Type} (g : D → γ) : IsTrans D (Preserved g) where
  trans _ _ _ h₁ h₂ := h₂.trans h₁

-- A property of the tables which held before holds afterwards.
def Kept (P : D → Prop) (d d' : D) : Prop :=
  P d → P d'

instance (P : D → Prop) : Std.Refl (Kept P) where
  refl _ := id

instance (P : D → Prop) : IsTrans D (Kept P) where
  trans _ _ _ h₁ h₂ := h₂ ∘ h₁

end Service
end ReadCommitted
