import SaasBackend.ReadCommitted.System

open Function (update)

namespace ReadCommitted

variable {ι D W K E α β : Type} [Store D W K E]

open Store Session Relation

def heldBy (fs : List (List W)) : List K :=
  (uncommitted fs).flatMap (keys D)

-- What other sessions may do to the committed tables while the keys `ks` are held, when `G d ks' d'`
-- says how a commit which holds the keys `ks'` may change the tables.
def Interference (G : D → List K → D → Prop) (ks : List K) : D → D → Prop :=
  ReflTransGen fun d d' => ∃ ks', ks.Disjoint ks' ∧ G d ks' d'

namespace Interference

variable {G : D → List K → D → Prop} {ks ks₁ ks₂ : List K} {d d' : D}

omit [Store D W K E] in
theorem mono (hi : Interference G ks₂ d d') (h : ks₁ ⊆ ks₂) : Interference G ks₁ d d' := by
  induction hi
  case refl       => exact .refl
  case tail hg hi => obtain ⟨ks', hd, hg⟩ := hg; exact hi.tail ⟨ks', fun _ hk => hd <| h hk, hg⟩

-- A relation that is preserved by every commit without the keys `ks` is preserved altogether.
omit [Store D W K E] in
theorem preserves {P : D → Prop} (h : Interference G ks d d') (hp : P d)
    (hs : ∀ d ks' d', ks.Disjoint ks' → G d ks' d' → P d → P d') : P d' := by
  induction h
  case refl         => exact hp
  case tail hg hi   => obtain ⟨ks', hd, hg⟩ := hg; exact hs _ ks' _ hd hg hi

end Interference

namespace Program

variable (G : D → List K → D → Prop)

-- `p.Safe G Q X fs d`: executed from the committed tables `d` with the uncommitted writes `fs`, and
-- no matter how other sessions interfere, all commits of `p` are permitted by `G`. When `p` returns
-- `Q` holds, and when it raises `X` holds.
def Safe (Q : α → List (List W) → D → Prop) (X : E → List (List W) → D → Prop) :
    Program D W E α → List (List W) → D → Prop
  | ret a,       fs,           d => Q a fs d
  | raise e,     fs,           d => X e fs d
  | stmt ws k h, [],           d => ∀ d', Interference G [] d d' →
    (∀ e, (h e).Safe Q X [] d') ∧
    (check d' (ws d') = none → G d' ((ws d').flatMap (keys D)) (applyAll d' (ws d')) ∧
      (k d').Safe Q X [] (applyAll d' (ws d')))
  | stmt ws k h, f :: fs,      d => ∀ d', Interference G (heldBy (D := D) (f :: fs)) d d' →
    (∀ e, (h e).Safe Q X (f :: fs) d') ∧
    let v := applyAll d' (uncommitted (f :: fs))
    (check v (ws v) = none → (k v).Safe Q X ((f ++ ws v) :: fs) d')
  | enter k,     fs,           d => k.Safe Q X ([] :: fs) d
  | leave k h,   [],           d => k.Safe Q X [] d ∧ ∀ e, (h e).Safe Q X [] d
  | leave k h,   [f],          d => ∀ d', Interference G (heldBy (D := D) [f]) d d' →
    G d' (f.flatMap (keys D)) (applyAll d' f) ∧ k.Safe Q X [] (applyAll d' f) ∧
    (∀ e, (h e).Safe Q X [] d')
  | leave k h,   f :: g :: fs, d => k.Safe Q X ((g ++ f) :: fs) d ∧ ∀ e, (h e).Safe Q X (g :: fs) d
  | undo k,      fs,           d => k.Safe Q X fs.tail d

variable {G} {Q : α → List (List W) → D → Prop} {X : E → List (List W) → D → Prop}

theorem safe_bind (p : Program D W E β) (f : β → Program D W E α) (fs : List (List W)) (d : D) :
    (p.bind f).Safe G Q X fs d ↔ p.Safe G (fun b fs d => (f b).Safe G Q X fs d) X fs d := by
  induction p generalizing fs d
  case ret | raise    => simp only [bind, Safe]
  case stmt ih₁ ih₂   => cases fs <;> simp only [bind, Safe, ih₁, ih₂]
  case enter ih       => simp only [bind, Safe, ih]
  case undo ih        => simp only [bind, Safe, ih]
  case leave ih₁ ih₂  => rcases fs with _ | ⟨_, _ | _⟩ <;> simp only [bind, Safe, ih₁, ih₂]

theorem safe_handle (p : Program D W E α) (f : E → Program D W E α) (fs : List (List W)) (d : D) :
    (p.handle f).Safe G Q X fs d ↔ p.Safe G Q (fun e fs d => (f e).Safe G Q X fs d) fs d := by
  induction p generalizing fs d
  case ret | raise    => simp only [handle, Safe]
  case stmt ih₁ ih₂   => cases fs <;> simp only [handle, Safe, ih₁, ih₂]
  case enter ih       => simp only [handle, Safe, ih]
  case undo ih        => simp only [handle, Safe, ih]
  case leave ih₁ ih₂  => rcases fs with _ | ⟨_, _ | _⟩ <;> simp only [handle, Safe, ih₁, ih₂]

theorem safe_closed (p : Program D W E α) (fs : List (List W)) (d : D) :
    p.closed.Safe G Q X fs d ↔
      p.Safe G (fun a fs d => (leave (ret a) raise).Safe G Q X fs d)
        (fun e fs d => X e fs.tail d) fs d := by
  induction p generalizing fs d
  case ret | raise    => simp only [closed, Safe]
  case stmt ih₁ ih₂   => cases fs <;> simp only [closed, Safe, ih₁, ih₂]
  case enter ih       => simp only [closed, Safe, ih]
  case undo ih        => simp only [closed, Safe, ih]
  case leave ih₁ ih₂  => rcases fs with _ | ⟨_, _ | _⟩ <;> simp only [closed, Safe, ih₁, ih₂]

theorem Safe.mono {Q' : α → List (List W) → D → Prop} {X' : E → List (List W) → D → Prop}
    {p : Program D W E α} {fs : List (List W)} {d : D} (h : p.Safe G Q X fs d)
    (hq : ∀ a fs d, Q a fs d → Q' a fs d) (hx : ∀ e fs d, X e fs d → X' e fs d) :
    p.Safe G Q' X' fs d := by
  induction p generalizing fs d
  case ret            => exact hq _ _ _ h
  case raise          => exact hx _ _ _ h
  case stmt ih₁ ih₂   =>
    cases fs
    case nil  =>
      intro d' hi
      exact ⟨fun e => ih₂ e <| (h d' hi).left e, fun hc => ((h d' hi).right hc).imp_right <| ih₁ _⟩
    case cons =>
      intro d' hi
      exact ⟨fun e => ih₂ e <| (h d' hi).left e, fun hc => ih₁ _ <| (h d' hi).right hc⟩
  case enter ih       => exact ih h
  case undo ih        => exact ih h
  case leave ih₁ ih₂  =>
    rcases fs with _ | ⟨_, _ | _⟩
    · exact ⟨ih₁ h.left, fun e => ih₂ e <| h.right e⟩
    · intro d' hi
      obtain ⟨hg, hk, he⟩ := h d' hi
      exact ⟨hg, ih₁ hk, fun e => ih₂ e <| he e⟩
    · exact ⟨ih₁ h.left, fun e => ih₂ e <| h.right e⟩

-- A properly nested program ends inside of as many blocks as it was started in.
theorem Safe.of_nested {p : Program D W E α} {fs : List (List W)} {d : D} {n m : Nat}
    (h : p.Safe G (fun a fs d => fs.length = m → Q a fs d) (fun e fs d => fs.length = m → X e fs d)
      fs d) (hn : p.Nested n) (hl : fs.length = n + m) : p.Safe G Q X fs d := by
  induction p generalizing fs d n
  case ret            => exact h <| by simp_all [Nested]
  case raise          => exact h <| by simp_all [Nested]
  case stmt ih₁ ih₂   =>
    cases fs
    case nil  =>
      refine fun d' hi => ⟨fun e => ih₂ e ((h d' hi).left e) (hn.right e) hl, fun hc => ?_⟩
      exact ((h d' hi).right hc).imp_right fun h => ih₁ _ h (hn.left _) hl
    case cons =>
      refine fun d' hi => ⟨fun e => ih₂ e ((h d' hi).left e) (hn.right e) hl, fun hc => ?_⟩
      exact ih₁ _ ((h d' hi).right hc) (hn.left _) hl
  case enter ih       => exact ih h hn <| by simp [hl]; omega
  case undo ih        =>
    cases n
    case zero => exact hn.elim
    case succ => exact ih h hn <| by simp [hl, Nat.add_right_comm]
  case leave ih₁ ih₂  =>
    cases n
    case zero => exact hn.elim
    case succ n =>
      rcases fs with _ | ⟨f, _ | ⟨g, fs⟩⟩
      · simp at hl; omega
      · intro d' hi
        obtain ⟨hg, hk, he⟩ := h d' hi
        have hl' : ([] : List (List W)).length = n + m := by simp at hl ⊢; omega
        exact ⟨hg, ih₁ hk hn.left hl', fun e => ih₂ e (he e) (hn.right e) hl'⟩
      · have hl' : fs.length + 1 = n + m := by simp at hl; omega
        exact ⟨ih₁ h.left hn.left hl', fun e => ih₂ e (h.right e) (hn.right e) hl'⟩

-- What is safe now remains safe under interference.
theorem Safe.stable {p : Program D W E α} {fs : List (List W)} {d d' : D} (h : p.Safe G Q X fs d)
    (hq : ∀ a fs d d', Interference G (heldBy (D := D) fs) d d' → Q a fs d → Q a fs d')
    (hx : ∀ e fs d d', Interference G (heldBy (D := D) fs) d d' → X e fs d → X e fs d')
    (hi : Interference G (heldBy (D := D) fs) d d') : p.Safe G Q X fs d' := by
  induction p generalizing fs
  case ret            => exact hq _ _ _ _ hi h
  case raise          => exact hx _ _ _ _ hi h
  case stmt           => cases fs <;> exact fun d'' hi' => h d'' <| hi.trans hi'
  case enter ih       => exact ih h <| by simpa [heldBy] using hi
  case undo ih        =>
    apply ih h
    apply hi.mono
    intro k hk
    obtain ⟨w, hw, hk⟩ := List.mem_flatMap.mp hk
    exact List.mem_flatMap.mpr ⟨w, uncommitted_tail_subset fs hw, hk⟩
  case leave ih₁ ih₂  =>
    rcases fs with _ | ⟨f, _ | ⟨g, fs⟩⟩
    · exact ⟨ih₁ h.left hi, fun e => ih₂ e (h.right e) hi⟩
    · exact fun d'' hi' => h d'' <| hi.trans hi'
    · refine ⟨ih₁ h.left <| by simpa [heldBy] using hi, fun e => ih₂ e (h.right e) <| hi.mono ?_⟩
      simp [heldBy]

-- A safe program remains safe when its next command fails.
theorem Safe.fails {s : Session D W E α} {d : D} (h : s.program.Safe G Q X s.frames d) (e : E) :
    (s.fails e).program.Safe G Q X (s.fails e).frames d := by
  obtain ⟨p, fs⟩ := s
  cases p
  case stmt   => cases fs <;> exact (h d .refl).left e
  case leave  =>
    rcases fs with _ | ⟨f, _ | ⟨g, fs⟩⟩
    · exact h.right e
    · exact (h d .refl).right.right e
    · exact h.right e
  all_goals exact h

-- Executing a command of a safe session changes the tables only as permitted, and only under keys
-- which the session holds or which the command is about to write.
theorem Safe.advance {s : Session D W E α} {d : D} (h : s.program.Safe G Q X s.frames d) :
    (s.advance d).2.program.Safe G Q X (s.advance d).2.frames (s.advance d).1 ∧
    ((s.advance d).1 = d ∨
      ∃ ks, G d ks (s.advance d).1 ∧ ∀ k ∈ ks, k ∈ s.held ∨ k ∈ (s.next d).flatMap (keys D)) := by
  obtain ⟨p, fs⟩ := s
  cases p
  case stmt ws k f =>
    cases fs
    case nil =>
      obtain ⟨hf, hk⟩ := h d .refl
      simp only [Session.advance, Session.next, Session.view, Session.pending, uncommitted_nil,
        applyAll_nil]
      cases hc : check d (ws d)
      case none   => exact ⟨(hk hc).right, .inr ⟨_, (hk hc).left, fun _ => .inr⟩⟩
      case some e => exact ⟨hf e, .inl rfl⟩
    case cons g fs =>
      obtain ⟨hf, hk⟩ := h d .refl
      simp only [Session.advance, Session.view, Session.pending]
      cases hc : check (applyAll d (uncommitted (g :: fs))) (ws _)
      case none   => exact ⟨hk hc, .inl rfl⟩
      case some e => exact ⟨hf e, .inl rfl⟩
  case leave =>
    rcases fs with _ | ⟨f, _ | ⟨g, fs⟩⟩
    · exact ⟨h.left, .inl rfl⟩
    · obtain ⟨hg, hk, -⟩ := h d .refl
      exact ⟨hk, .inr ⟨_, hg, fun _ hm => .inl <| by simpa [held, Session.pending] using hm⟩⟩
    · exact ⟨h.left, .inl rfl⟩
  all_goals exact ⟨h, .inl rfl⟩

end Program

namespace Session

variable {G : D → List K → D → Prop}

def Safe (G : D → List K → D → Prop) (s : Session D W E α) (d : D) : Prop :=
  s.program.Safe G (fun _ _ _ => True) (fun _ _ _ => True) s.frames d

theorem Safe.stable {s : Session D W E α} {d d' : D} (h : s.Safe G d)
    (hi : Interference G s.held d d') : s.Safe G d' :=
  Program.Safe.stable h (fun _ _ _ _ _ _ => trivial) (fun _ _ _ _ _ _ => trivial) hi

theorem Safe.fails {s : Session D W E α} {d : D} (h : s.Safe G d) (e : E) :
    (s.fails e).Safe G d :=
  Program.Safe.fails (s := s) h e

theorem Safe.advance {s : Session D W E α} {d : D} (h : s.Safe G d) :
    (s.advance d).2.Safe G (s.advance d).1 ∧
    ((s.advance d).1 = d ∨
      ∃ ks, G d ks (s.advance d).1 ∧ ∀ k ∈ ks, k ∈ s.held ∨ k ∈ (s.next d).flatMap (keys D)) :=
  Program.Safe.advance (s := s) h

end Session

namespace System

-- All sessions are safe and no two of them hold the same key.
structure Safe (G : D → List K → D → Prop) (σ : System ι D W E α) : Prop where
  safe      : ∀ i, (σ.session i).Safe G σ.db
  exclusive : σ.Exclusive

variable {G : D → List K → D → Prop}

theorem start_safe {db : D} {calls : ι → Service D W E α}
    (h : ∀ i, (calls i).program.Safe G (fun _ _ _ => True) (fun _ _ _ => True) [] db) :
    (start db calls).Safe G where
  safe      := h
  exclusive := start_exclusive db calls

variable [Fintype ι] [DecidableEq ι] [DecidableEq K]

-- One step of a safe system changes the committed tables at most by one permitted commit.
theorem Safe.step {σ : System ι D W E α} (hs : σ.Safe G) (a : Action ι E) :
    (σ.step a).Safe G ∧ ((σ.step a).db = σ.db ∨ ∃ ks, G σ.db ks (σ.step a).db) := by
  have he := hs.exclusive.step a
  rcases step_cases (σ := σ) a with h | ⟨i, -, hb, h⟩ | ⟨i, e, -, h⟩
  · exact ⟨by rwa [h], .inl <| by rw [h]⟩
  · have ⟨ha, hd⟩ := (hs.safe i).advance
    refine ⟨⟨fun j => ?_, he⟩, ?_⟩
    · rw [h]
      by_cases hj : j = i
      case pos => subst hj; simpa using ha
      case neg =>
        simp only [hj, ne_eq, not_false_eq_true, Function.update_of_ne]
        rcases hd with hd | ⟨ks, hg, hk⟩
        · rw [hd]; exact hs.safe j
        · refine (hs.safe j).stable <| .single ⟨ks, fun k h₁ h₂ => ?_, hg⟩
          rcases hk k h₂ with h₂ | h₂
          · exact hs.exclusive j i hj k h₁ h₂
          · exact hb ⟨j, hj, k, h₂, h₁⟩
    · rw [h]
      exact hd.imp_right fun ⟨ks, hg, _⟩ => ⟨ks, hg⟩
  · refine ⟨⟨fun j => ?_, he⟩, .inl <| by rw [h]⟩
    rw [h]
    by_cases hj : j = i
    case pos => subst hj; simpa using (hs.safe j).fails e
    case neg => simpa [hj] using hs.safe j

-- In a safe system the committed tables evolve by permitted commits only.
theorem Safe.run {σ : System ι D W E α} (hs : σ.Safe G) (as : List (Action ι E)) :
    (σ.run as).Safe G ∧ ReflTransGen (fun d d' => ∃ ks, G d ks d') σ.db (σ.run as).db := by
  induction as generalizing σ
  case nil => exact ⟨hs, .refl⟩
  case cons a as hi =>
    have ⟨hs', hd⟩ := hs.step a
    have ⟨hr, ht⟩ := hi hs'
    refine ⟨hr, ?_⟩
    rcases hd with hd | hd
    · exact hd ▸ ht
    · exact .head hd ht

end System
end ReadCommitted
