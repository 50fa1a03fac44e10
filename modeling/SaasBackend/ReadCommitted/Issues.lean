import SaasBackend.ReadCommitted.Pending
import SaasBackend.ReadCommitted.Phases

namespace ReadCommitted

open Session Relational Store

variable {D R K E α β : Type} [Entity R K] [Relational D R K E] [DecidableEq K] {N N' : Put R → Prop}

theorem Valid.related {I : D → D → Prop} [Std.Refl I] [IsTrans D I] {ps : List (Put R)}
    (h : ∀ d w, N w → Accepts d w → I d (put d w.new)) (hn : ∀ w ∈ ps, N w) {d : D} (hv : Valid d ps) :
    I d (applyAll d ps) := by
  induction ps generalizing d
  case nil          => exact Std.Refl.refl d
  case cons w ps hi =>
    have hi := hi (fun w hw => hn w <| List.mem_cons_of_mem _ hw) hv.right
    exact Trans.trans (h d w (hn w List.mem_cons_self) hv.left) hi

namespace Program

-- The statements of the program are honest, and only issue writes of the kind `N`.
@[simp]
def Issues (N : Put R → Prop) : Program D (Put R) E α → Prop
  | ret _       => True
  | raise _     => True
  | stmt ws k h => (Honest ws ∧ ∀ d, ∀ w ∈ ws d, N w) ∧ (∀ d, (k d).Issues N) ∧ ∀ e, (h e).Issues N
  | enter k     => k.Issues N
  | leave k h   => k.Issues N ∧ ∀ e, (h e).Issues N
  | undo k      => k.Issues N

namespace Issues

variable {p : Program D (Put R) E α}

theorem mono (h : p.Issues N) (hn : ∀ w, N w → N' w) : p.Issues N' := by
  induction p <;> simp_all
  exact fun d w hw => hn w <| h.left.right d w hw

theorem bind {f : α → Program D (Put R) E β} (h : p.Issues N) (hf : ∀ a, (f a).Issues N) :
    (p.bind f).Issues N := by
  induction p <;> simp_all
  exact h.left.right

theorem handle {f : E → Program D (Put R) E α} (h : p.Issues N) (hf : ∀ e, (f e).Issues N) :
    (p.handle f).Issues N := by
  induction p <;> simp_all
  exact h.left.right

theorem closed (h : p.Issues N) : p.closed.Issues N := by
  induction p <;> simp_all
  exact h.left.right

-- Whatever is rolled back, the tables remain related to those which the program was started with.
theorem exec_related {I : D → D → Prop} [Std.Refl I] [IsTrans D I] (hp : p.Issues N)
    (h : ∀ d w, N w → Accepts d w → I d (put d w.new)) {d₀ d : D} {saved : List D} (hd : I d₀ d)
    (hs : ∀ s ∈ saved, I d₀ s) : I d₀ (p.exec saved d).2.2 := by
  induction p generalizing saved d
  case ret | raise        => exact hd
  case stmt ws k f ih₁ ih₂ =>
    simp only [exec]
    split
    case h_1 hc =>
      have hw : I d (applyAll d (ws d)) := (hp.left.left d hc).related h <| hp.left.right d
      exact ih₁ d (hp.right.left d) (Trans.trans hd hw) hs
    case h_2 e _ => exact ih₂ e (hp.right.right e) hd hs
  case enter ih           => exact ih hp hd <| List.forall_mem_cons.mpr ⟨hd, hs⟩
  case leave ih _         => exact ih hp.left hd fun s hm => hs s <| List.mem_of_mem_tail hm
  case undo ih            =>
    cases saved
    case nil  => exact ih hp hd hs
    case cons => exact ih hp (hs _ List.mem_cons_self) fun s hm => hs s <| List.mem_cons_of_mem _ hm

end Issues
end Program

namespace Service

structure Issues (N : Put R → Prop) (s : Service D (Put R) E α) : Prop where
  program : s.program.Issues N

namespace Issues

theorem mono {s : Service D (Put R) E α} (h : s.Issues N) (hn : ∀ w, N w → N' w) : s.Issues N' :=
  ⟨h.program.mono hn⟩

theorem pure (a : α) : (pure a : Service D (Put R) E α).Issues N :=
  ⟨trivial⟩

theorem raise (e : E) : (raise e : Service D (Put R) E α).Issues N :=
  ⟨trivial⟩

theorem stmt {ws : D → List (Put R)} {q : D → Except E α} (hw : Honest ws)
    (h : ∀ d, ∀ w ∈ ws d, N w) : (stmt ws q).Issues N := by
  refine ⟨⟨hw, h⟩, fun d => ?_, fun _ => trivial⟩
  dsimp only
  cases q d <;> trivial

theorem select (q : D → α) : (select q : Service D (Put R) E α).Issues N :=
  ⟨⟨fun _ _ => trivial, fun _ => List.forall_mem_nil _⟩, fun _ => trivial, fun _ => trivial⟩

theorem execute {ws : D → List (Put R)} (hw : Honest ws) (h : ∀ d, ∀ w ∈ ws d, N w) :
    (execute ws : Service D (Put R) E Unit).Issues N :=
  ⟨⟨hw, h⟩, fun _ => trivial, fun _ => trivial⟩

theorem bind {s : Service D (Put R) E α} {f : α → Service D (Put R) E β} (h : s.Issues N)
    (hf : ∀ a, (f a).Issues N) : (s >>= f).Issues N :=
  ⟨h.program.bind fun a => (hf a).program⟩

theorem handle {s : Service D (Put R) E α} {f : E → Service D (Put R) E α} (h : s.Issues N)
    (hf : ∀ e, (f e).Issues N) : (s.handle f).Issues N :=
  ⟨h.program.handle fun e => (hf e).program⟩

theorem atomic {s : Service D (Put R) E α} (h : s.Issues N) : s.atomic.Issues N :=
  ⟨h.program.closed⟩

-- What is maintained by all writes is maintained by a serial run.
theorem maintains {I : D → D → Prop} [Std.Refl I] [IsTrans D I] {s : Service D (Put R) E α}
    (hs : s.Issues N) (h : ∀ d w, N w → Accepts d w → I d (put d w.new)) : s.Maintains I :=
  ⟨fun d => hs.program.exec_related h (Std.Refl.refl d) <| List.forall_mem_nil _⟩

end Issues
end Service

namespace Session

-- The program of the session and its uncommitted writes are of the kind `N`.
structure Issues (N : Put R → Prop) (s : Session D (Put R) E α) (d : D) : Prop where
  program : s.program.Issues N
  pending : ∀ w ∈ s.pending, N w
  valid   : Valid d s.pending

namespace Issues

variable {s : Session D (Put R) E α} {d : D}

theorem start {s : Service D (Put R) E α} (h : s.Issues N) (d : D) : Issues N ⟨s.program, []⟩ d where
  program := h.program
  pending := List.forall_mem_nil _
  valid   := trivial

theorem isHonest (h : s.Issues N d) : s.IsHonest where
  honest ws k f hp := by
    have h := h.program
    rw [hp] at h
    exact h.left.left

theorem next (h : s.Issues N d) : ∀ w ∈ s.next d, N w := by
  obtain ⟨p, fs⟩ := s
  cases p
  case stmt => exact h.program.left.right _
  all_goals exact List.forall_mem_nil _

-- A session commits valid writes, under keys which it holds or which it is about to write.
theorem advance (h : s.Issues N d) :
    (s.advance d).2.Issues N (s.advance d).1 ∧
    ((s.advance d).1 = d ∨ ∃ ps, (s.advance d).1 = applyAll d ps ∧ Valid d ps ∧ (∀ w ∈ ps, N w) ∧
      ∀ k ∈ ps.flatMap Put.keys, k ∈ s.held ∨ k ∈ (s.next d).flatMap (Store.keys D)) := by
  obtain ⟨hv, hd⟩ := advance_valid h.valid h.isHonest
  have hn : ∀ w ∈ s.pending ++ s.next d, N w := List.forall_mem_append.mpr ⟨h.pending, h.next⟩
  refine ⟨⟨?_, fun w hw => hn w <| s.advance_pending_subset d hw, hv⟩, hd.imp_right ?_⟩
  · have hp := h.program
    obtain ⟨p, fs⟩ := s
    cases p
    case stmt =>
      simp only [Session.advance]
      split
      · exact hp.right.right _
      all_goals exact hp.right.left _
    case leave => rcases fs with _ | ⟨_, _ | _⟩ <;> exact hp.left
    all_goals exact hp
  · rintro ⟨ps, hd, hv, hs⟩
    exact ⟨ps, hd, hv, fun w hw => hn w <| hs hw, fun k hk => mem_keys_of_subset hs hk⟩

theorem fails (h : s.Issues N d) (e : E) : (s.fails e).Issues N d := by
  refine ⟨?_, fun w hw => h.pending w <| s.fails_pending_subset e hw, fails_valid h.valid e⟩
  have hp := h.program
  obtain ⟨p, fs⟩ := s
  cases p
  case stmt   => exact hp.right.right e
  case leave  => exact hp.right e
  all_goals exact hp

-- Writes of other sessions do not interfere with those of the session.
theorem stable (h : s.Issues N d) {ps : List (Put R)} (hv : Valid d ps)
    (hd : s.held.Disjoint (ps.flatMap Put.keys)) : s.Issues N (applyAll d ps) :=
  ⟨h.program, h.pending, h.valid.stable hv hd⟩

end Issues
end Session
end ReadCommitted
