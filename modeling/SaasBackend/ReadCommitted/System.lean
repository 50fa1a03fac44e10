import SaasBackend.ReadCommitted.Serial

open Function (update)

namespace ReadCommitted

variable {ι D W K E α : Type} [Store D W K E]

open Store

-- A database session: what remains to be executed, and the uncommitted writes of the blocks it is
-- inside of, innermost block first. Outside of any block each statement commits on its own.
structure Session (D W E α : Type) where
  program : Program D W E α
  frames  : List (List W)

namespace Session

def uncommitted : List (List W) → List W
  | []      => []
  | f :: fs => uncommitted fs ++ f

def pending (s : Session D W E α) : List W :=
  uncommitted s.frames

def held (s : Session D W E α) : List K :=
  s.pending.flatMap (keys D)

-- READ COMMITTED: a statement sees what is committed when it runs, and its own session's writes.
def view (s : Session D W E α) (d : D) : D :=
  applyAll d s.pending

-- The rows written by the next command.
def next (s : Session D W E α) (d : D) : List W :=
  match s.program with
  | .stmt ws _ _ => ws (s.view d)
  | _            => []

-- Executes the next command, yielding the committed tables and the remaining session.
def advance (s : Session D W E α) (d : D) : D × Session D W E α :=
  match s.program, s.frames with
  | .ret _,       _            => (d, s)
  | .raise _,     _            => (d, s)
  | .stmt ws k h, fs           =>
    let v := s.view d
    match check v (ws v), fs with
    | some e, _       => (d, ⟨h e, fs⟩)
    | none,   []      => (applyAll d (ws v), ⟨k v, []⟩)
    | none,   f :: fs => (d, ⟨k v, (f ++ ws v) :: fs⟩)
  | .enter k,     fs           => (d, ⟨k, [] :: fs⟩)
  | .leave k _,   []           => (d, ⟨k, []⟩)
  | .leave k _,   [f]          => (applyAll d f, ⟨k, []⟩)
  | .leave k _,   f :: g :: fs => (d, ⟨k, (g ++ f) :: fs⟩)
  | .undo k,      fs           => (d, ⟨k, fs.tail⟩)

-- The next command fails for a reason of the database's own, such as a deadlock. A failing COMMIT
-- rolls back.
def fails (s : Session D W E α) (e : E) : Session D W E α :=
  match s.program with
  | .stmt _ _ h => ⟨h e, s.frames⟩
  | .leave _ h  => ⟨h e, s.frames.tail⟩
  | _           => s

@[simp]
theorem uncommitted_nil : uncommitted ([] : List (List W)) = [] :=
  rfl

@[simp]
theorem uncommitted_cons (f : List W) (fs : List (List W)) :
    uncommitted (f :: fs) = uncommitted fs ++ f :=
  rfl

theorem uncommitted_tail_subset : (fs : List (List W)) → uncommitted fs.tail ⊆ uncommitted fs
  | []      => List.Subset.refl _
  | _ :: fs => List.subset_append_left (uncommitted fs) _

theorem fails_pending_subset (s : Session D W E α) (e : E) : (s.fails e).pending ⊆ s.pending := by
  simp only [fails, pending]
  split
  case h_2 => exact uncommitted_tail_subset _
  all_goals exact List.Subset.refl _

-- A session's uncommitted writes are those it had before and those of the command it executed.
theorem advance_pending_subset (s : Session D W E α) (d : D) :
    (s.advance d).2.pending ⊆ s.pending ++ s.next d := by
  obtain ⟨p, fs⟩ := s
  cases p
  case stmt ws k h =>
    simp only [advance, next, pending]
    split
    · exact List.subset_append_left ..
    · exact List.nil_subset _
    · simp
  case leave =>
    cases fs
    case nil => exact List.nil_subset _
    case cons f fs =>
      cases fs
      case nil => exact List.nil_subset _
      case cons => simp [advance, next, pending]
  case undo => simpa [advance, next, pending] using uncommitted_tail_subset fs
  all_goals simp [advance, next, pending]

-- A session commits no other writes than those it has made, and those of the command it executes.
theorem advance_fst (s : Session D W E α) (d : D) :
    (s.advance d).1 = d ∨ ∃ ws ⊆ s.pending ++ s.next d, (s.advance d).1 = applyAll d ws := by
  obtain ⟨p, fs⟩ := s
  cases p
  case stmt ws k h =>
    simp only [advance, next, pending]
    split
    · exact .inl rfl
    · exact .inr ⟨_, List.subset_append_right .., rfl⟩
    · exact .inl rfl
  case leave =>
    rcases fs with _ | ⟨f, _ | ⟨g, fs⟩⟩
    · exact .inl rfl
    · exact .inr ⟨f, by simp [pending], rfl⟩
    · exact .inl rfl
  all_goals exact .inl rfl

end Session

-- The committed tables, and the sessions that work on them concurrently.
structure System (ι D W E α : Type) where
  db      : D
  session : ι → Session D W E α

inductive Action (ι E : Type)
  | go   (i : ι)
  | fail (i : ι) (e : E)

-- Whether the action is not a failure.
def Action.isGo : Action ι E → Bool
  | go _      => true
  | fail _ _  => false

namespace System

def start (db : D) (calls : ι → Service D W E α) : System ι D W E α where
  db        := db
  session i := ⟨(calls i).program, []⟩

-- A session has to wait while its next command writes a key that another session has locked.
def Blocked (σ : System ι D W E α) (i : ι) : Prop :=
  ∃ j, j ≠ i ∧ ∃ k ∈ ((σ.session i).next σ.db).flatMap (keys D), k ∈ (σ.session j).held

-- A session is engaged once it has decided to write, until it has committed or rolled back.
def Engaged (σ : System ι D W E α) (i : ι) : Prop :=
  (σ.session i).next σ.db ≠ [] ∨ (σ.session i).pending ≠ []

-- The writes of the command which an action executes.
def writes (σ : System ι D W E α) : Action ι E → List W
  | .go i     => (σ.session i).next σ.db
  | .fail _ _ => []

def Returned (σ : System ι D W E α) (i : ι) (a : α) : Prop :=
  (σ.session i).program = .ret a

def Raised (σ : System ι D W E α) (i : ι) (e : E) : Prop :=
  (σ.session i).program = .raise e

instance (σ : System ι D W E α) (i : ι) : Decidable (σ.Engaged i) :=
  inferInstanceAs <| Decidable (_ ∨ _)

instance [DecidableEq α] (σ : System ι D W E α) (i : ι) (a : α) : Decidable (σ.Returned i a) :=
  match h : (σ.session i).program with
  | .ret b                                                    =>
    decidable_of_iff (b = a) <| by simp [Returned, h]
  | .raise _ | .stmt _ _ _ | .enter _ | .leave _ _ | .undo _  =>
    isFalse <| by simp [Returned, h]

variable [Fintype ι] [DecidableEq ι] [DecidableEq K]

instance (σ : System ι D W E α) (i : ι) : Decidable (σ.Blocked i) :=
  inferInstanceAs <| Decidable (∃ j, j ≠ i ∧ ∃ k ∈ _, k ∈ (σ.session j).held)

def step (σ : System ι D W E α) : Action ι E → System ι D W E α
  | .go i =>
    if σ.Blocked i then σ
    else
      let (db, s) := (σ.session i).advance σ.db
      { db := db, session := update σ.session i s }
  | .fail i e => { σ with session := update σ.session i ((σ.session i).fails e) }

-- Any list of actions is a possible interleaving: an action of a session which is blocked or which
-- has ended has no effect.
def run (σ : System ι D W E α) (as : List (Action ι E)) : System ι D W E α :=
  as.foldl step σ

@[simp]
theorem run_nil (σ : System ι D W E α) : σ.run [] = σ :=
  rfl

@[simp]
theorem run_cons (σ : System ι D W E α) (a : Action ι E) (as : List (Action ι E)) :
    σ.run (a :: as) = (σ.step a).run as :=
  rfl

theorem run_append (σ : System ι D W E α) (as bs : List (Action ι E)) :
    σ.run (as ++ bs) = (σ.run as).run bs :=
  List.foldl_append

theorem step_go_of_not_blocked {σ : System ι D W E α} {i : ι} (h : ¬σ.Blocked i) :
    σ.step (.go i) =
      ⟨((σ.session i).advance σ.db).1, update σ.session i ((σ.session i).advance σ.db).2⟩ :=
  if_neg h

-- What a single step can do: nothing, or exactly one session executes or fails its next command.
theorem step_cases {σ : System ι D W E α} (a : Action ι E) :
    (σ.step a = σ) ∨
    (∃ i, a = .go i ∧ ¬σ.Blocked i ∧ σ.step a =
      ⟨((σ.session i).advance σ.db).1, update σ.session i ((σ.session i).advance σ.db).2⟩) ∨
    (∃ i e, a = .fail i e ∧ σ.step a =
      ⟨σ.db, update σ.session i ((σ.session i).fails e)⟩) := by
  cases a
  case go i =>
    by_cases h : σ.Blocked i
    case pos => exact .inl <| if_pos h
    case neg => exact .inr <| .inl ⟨i, rfl, h, step_go_of_not_blocked h⟩
  case fail i e => exact .inr <| .inr ⟨i, e, rfl, rfl⟩

-- The steps of an interleaving all satisfy `C`.
def Along (C : System ι D W E α → Action ι E → Prop) :
    System ι D W E α → List (Action ι E) → Prop
  | _, []      => True
  | σ, a :: as => C σ a ∧ Along C (σ.step a) as

instance instDecidableAlong (C : System ι D W E α → Action ι E → Prop) [h : ∀ σ a, Decidable (C σ a)] :
    (σ : System ι D W E α) → (as : List (Action ι E)) → Decidable (Along C σ as)
  | _, []       => isTrue trivial
  | σ, a :: as  =>
    have := instDecidableAlong C (σ.step a) as
    inferInstanceAs <| Decidable (C σ a ∧ _)

theorem along_append {C : System ι D W E α → Action ι E → Prop} {σ : System ι D W E α}
    {as bs : List (Action ι E)} : Along C σ (as ++ bs) ↔ Along C σ as ∧ Along C (σ.run as) bs := by
  induction as generalizing σ
  case nil          => simp [Along]
  case cons a as hi => simp [Along, hi, and_assoc]

theorem run_induction_along {C : System ι D W E α → Action ι E → Prop}
    {P : System ι D W E α → Prop} {σ : System ι D W E α} {as : List (Action ι E)}
    (hc : Along C σ as) (h : P σ) (hs : ∀ σ a, C σ a → P σ → P (σ.step a)) : P (σ.run as) := by
  induction as generalizing σ
  case nil         => exact h
  case cons a _ hi => exact hi hc.right <| hs _ a hc.left h

-- What is preserved by all writes which are made in a run holds for the tables it leads to.
theorem run_writes {N : W → Prop} {P : D → Prop} {σ : System ι D W E α} {as : List (Action ι E)}
    (hc : Along (fun σ a => ∀ w ∈ σ.writes a, N w) σ as)
    (hn : ∀ d w, N w → P d → P (apply d w)) (hp : ∀ i, ∀ w ∈ (σ.session i).pending, N w)
    (h : P σ.db) : P (σ.run as).db := by
  have ha : ∀ (ws : List W) d, (∀ w ∈ ws, N w) → P d → P (applyAll d ws) := by
    intro ws
    induction ws
    case nil          => exact fun _ _ => id
    case cons w _ hi  =>
      exact fun d hw h => hi _ (fun w hm => hw w <| List.mem_cons_of_mem _ hm) <| hn d w (hw w List.mem_cons_self) h
  suffices P (σ.run as).db ∧ ∀ i, ∀ w ∈ ((σ.run as).session i).pending, N w from this.left
  refine run_induction_along (P := fun σ => P σ.db ∧ ∀ i, ∀ w ∈ (σ.session i).pending, N w) hc ⟨h, hp⟩ ?_
  intro σ a hc ⟨h, hp⟩
  rcases step_cases (σ := σ) a with hs | ⟨i, rfl, -, hs⟩ | ⟨i, e, -, hs⟩
  · rw [hs]
    exact ⟨h, hp⟩
  · rw [hs]
    have hw : ∀ w ∈ (σ.session i).pending ++ (σ.session i).next σ.db, N w :=
      List.forall_mem_append.mpr ⟨hp i, hc⟩
    constructor
    case left =>
      rcases (σ.session i).advance_fst σ.db with hd | ⟨ws, hm, hd⟩
      · rwa [hd]
      · rw [hd]
        exact ha ws _ (fun w hws => hw w <| hm hws) h
    case right =>
      intro j w hj
      by_cases hji : j = i
      case pos => subst hji; exact hw w <| Session.advance_pending_subset _ _ <| by simpa using hj
      case neg => exact hp j w <| by simpa [hji] using hj
  · rw [hs]
    refine ⟨h, fun j w hj => ?_⟩
    by_cases hji : j = i
    case pos => subst hji; exact hp j w <| Session.fails_pending_subset _ e <| by simpa using hj
    case neg => exact hp j w <| by simpa [hji] using hj

-- No two sessions hold the same key.
def Exclusive (σ : System ι D W E α) : Prop :=
  ∀ i j, i ≠ j → ∀ k ∈ (σ.session i).held, k ∉ (σ.session j).held

omit [Fintype ι] [DecidableEq ι] [DecidableEq K] in
theorem start_exclusive (db : D) (calls : ι → Service D W E α) : (start db calls).Exclusive := by
  intro i j _ k h
  simp [start, Session.held, Session.pending] at h

omit [Fintype ι] [DecidableEq K] in
-- Replacing the session `i` keeps exclusiveness if the keys it adds are not held by others.
theorem Exclusive.update {σ : System ι D W E α} (he : σ.Exclusive) {i : ι} {s : Session D W E α}
    {d : D} (h : ∀ k ∈ s.held, k ∈ (σ.session i).held ∨ ∀ j, j ≠ i → k ∉ (σ.session j).held) :
    Exclusive ⟨d, update σ.session i s⟩ := by
  intro j₁ j₂ hj k hk₁ hk₂
  by_cases h₁ : j₁ = i
  case pos =>
    have h₂ : j₂ ≠ i := fun h₂ => hj <| h₁.trans h₂.symm
    simp [h₁, h₂] at hk₁ hk₂
    cases h k hk₁
    case inl h => exact he i j₂ h₂.symm k h hk₂
    case inr h => exact h j₂ h₂ hk₂
  case neg =>
    simp [h₁] at hk₁
    by_cases h₂ : j₂ = i
    case neg => simp [h₂] at hk₂; exact he j₁ j₂ hj k hk₁ hk₂
    case pos =>
      simp [h₂] at hk₂
      cases h k hk₂
      case inl h => exact he j₁ i h₁ k hk₁ h
      case inr h => exact h j₁ h₁ hk₁

theorem Exclusive.step {σ : System ι D W E α} (he : σ.Exclusive) (a : Action ι E) :
    (σ.step a).Exclusive := by
  cases step_cases (σ := σ) a
  case inl h => rwa [h]
  case inr h =>
    cases h
    case inl h =>
      obtain ⟨i, -, hb, h⟩ := h
      rw [h]
      apply he.update
      intro k hk
      obtain ⟨w, hw, hk⟩ := List.mem_flatMap.mp hk
      cases List.mem_append.mp <| Session.advance_pending_subset _ _ hw
      case inl hw => exact .inl <| List.mem_flatMap.mpr ⟨w, hw, hk⟩
      case inr hw =>
        refine .inr fun j hj hc => hb ⟨j, hj, k, ?_, hc⟩
        exact List.mem_flatMap.mpr ⟨w, hw, hk⟩
    case inr h =>
      obtain ⟨i, e, -, h⟩ := h
      rw [h]
      refine he.update fun k hk => .inl ?_
      obtain ⟨w, hw, hk⟩ := List.mem_flatMap.mp hk
      exact List.mem_flatMap.mpr ⟨w, Session.fails_pending_subset _ e hw, hk⟩

section Alone

-- The tables as they were when the currently open blocks were entered.
def savedViews (d : D) : List (List W) → List D
  | []      => []
  | _ :: fs => applyAll d (Session.uncommitted fs) :: savedViews d fs

-- No session but `i` holds any uncommitted writes.
def Alone (σ : System ι D W E α) (i : ι) : Prop :=
  ∀ j, j ≠ i → (σ.session j).held = []

omit [Fintype ι] [DecidableEq ι] [DecidableEq K] in
theorem Alone.not_blocked {σ : System ι D W E α} {i : ι} (h : σ.Alone i) : ¬σ.Blocked i :=
  fun ⟨j, hj, k, _, hk⟩ => by simp [h j hj] at hk

-- If the run of `i` ends with the result `r` after its next command, then so it does before it.
theorem Alone.run_step {σ : System ι D W E α} {i : ι} {s s' : Session D W E α} {d : D}
    {r : Except E α × List D × D} (h : σ.Alone i) (hs : σ.session i = s)
    (ha : s.advance σ.db = (d, s'))
    (hi : ∀ σ' : System ι D W E α, σ'.Alone i → σ'.session i = s' → σ'.db = d →
      ∃ n, σ'.run (.replicate n (.go i)) =
        ⟨r.2.2, update σ'.session i ⟨.ofExcept r.1, []⟩⟩) :
    ∃ n, σ.run (.replicate n (.go i)) = ⟨r.2.2, update σ.session i ⟨.ofExcept r.1, []⟩⟩ := by
  have ⟨n, hn⟩ := hi ⟨d, update σ.session i s'⟩
    (fun j hj => by simpa [hj] using h j hj) (by simp) rfl
  exists n + 1
  rw [List.replicate_succ, run_cons, step_go_of_not_blocked h.not_blocked, hs, ha, hn]
  simp

-- The core lemma for `run_service`.
theorem Alone.run_exec {σ : System ι D W E α} {i : ι} {p : Program D W E α} {fs : List (List W)}
    (h : σ.Alone i) (hs : σ.session i = ⟨p, fs⟩) (hn : p.Nested fs.length) :
    ∃ n, σ.run (.replicate n (.go i)) =
      let r := p.exec (savedViews σ.db fs) (applyAll σ.db (Session.uncommitted fs))
      ⟨r.2.2, update σ.session i ⟨.ofExcept r.1, []⟩⟩ := by
  induction p generalizing σ fs
  case ret | raise =>
    cases List.length_eq_zero_iff.mp hn
    exists 0
    simp [Program.exec, Program.ofExcept, ←hs]
  case stmt ws k f ih₁ ih₂ =>
    simp only [Program.exec]
    split
    case h_1 hc =>
      cases fs
      case nil =>
        have ha : Session.advance ⟨.stmt ws k f, []⟩ σ.db =
            (applyAll σ.db (ws σ.db), ⟨k σ.db, []⟩) := by
          simp_all [Session.advance, Session.view, Session.pending]
        exact h.run_step hs ha fun σ' h hs hd => hd ▸ ih₁ _ h hs (hn.left _)
      case cons g fs =>
        let v := applyAll σ.db (Session.uncommitted (g :: fs))
        have ha : Session.advance ⟨.stmt ws k f, g :: fs⟩ σ.db =
            (σ.db, ⟨k v, (g ++ ws v) :: fs⟩) := by
          simp only [Session.advance, Session.view, Session.pending, hc]; rfl
        refine h.run_step hs ha fun σ' h hs hd => ?_
        simpa [v, savedViews, applyAll_append, hd] using ih₁ _ h hs (hn.left v)
    case h_2 e hc =>
      have ha : Session.advance ⟨.stmt ws k f, fs⟩ σ.db = (σ.db, ⟨f e, fs⟩) := by
        simp only [Session.advance, Session.view, Session.pending, hc]
      exact h.run_step hs ha fun σ' h hs hd => hd ▸ ih₂ _ h hs (hn.right _)
  case enter ih =>
    refine h.run_step hs rfl fun σ' h hs hd => ?_
    simpa [savedViews, Program.exec, hd] using ih h hs hn
  case leave ih _ =>
    cases fs
    case nil => exact hn.elim
    case cons f fs =>
      cases fs
      case nil => exact h.run_step hs rfl fun σ' h hs hd => hd ▸ ih h hs hn.left
      case cons =>
        refine h.run_step hs rfl fun σ' h hs hd => ?_
        simpa [savedViews, Program.exec, hd] using ih h hs hn.left
  case undo ih =>
    cases fs
    case nil => exact hn.elim
    case cons => exact h.run_step hs rfl fun σ' h hs hd => hd ▸ ih h hs hn

-- A call that no other session interferes with behaves as in a serial execution.
theorem Alone.run_service {σ : System ι D W E α} {i : ι} {s : Service D W E α}
    (h : σ.Alone i) (hs : σ.session i = ⟨s.program, []⟩) :
    ∃ n, σ.run (.replicate n (.go i)) =
      ⟨(s.run σ.db).2, update σ.session i ⟨.ofExcept (s.run σ.db).1, []⟩⟩ :=
  h.run_exec hs s.nested

end Alone
end System
end ReadCommitted
