import SaasBackend.ReadCommitted.Relational

namespace ReadCommitted

open Session Relation Relational Store

variable {D R K E α β : Type} [Entity R K] [Relational D R K E] [DecidableEq K]

-- A commit of valid writes, which relates the tables before and after it by `P`.
def Commit (P : D → D → Prop) (d : D) (ks : List K) (d' : D) : Prop :=
  ∃ ps, ks = ps.flatMap Put.keys ∧ d' = applyAll d ps ∧ Valid d ps ∧ P d d'

variable {P : D → D → Prop}

namespace Interference

-- The uncommitted writes of a session remain valid, whatever is committed by other sessions.
theorem valid {d d' : D} {fs : List (List (Put R))} (hv : Valid d (uncommitted fs))
    (hi : Interference (Commit P) (heldBy (D := D) fs) d d') : Valid d' (uncommitted fs) := by
  apply hi.preserves (P := (Valid · (uncommitted fs))) hv
  intro d ks d' hd hc hv
  have ⟨ps, hk, hp, hv', _⟩ := hc
  rw [hp]
  exact hv.stable hv' <| hk ▸ hd

theorem related [Std.Refl P] [IsTrans D P] {d d' : D} {ks : List K}
    (hi : Interference (Commit P) ks d d') : P d d' :=
  hi.preserves (Std.Refl.refl d) fun _ _ _ _ ⟨_, _, _, _, hp⟩ h => Trans.trans h hp

end Interference

namespace Service

-- `s.Keeps P d₀ Q fs d`: executed from the committed tables `d` with the uncommitted writes `fs`,
-- `s` only performs commits that are related by `P`, and if it returns `Q` holds. All of this is
-- relative to a state `d₀` that the tables have developed from.
structure Keeps (P : D → D → Prop) (d₀ : D) (Q : α → List (List (Put R)) → D → Prop)
    (s : Service D (Put R) E α) (fs : List (List (Put R))) (d : D) : Prop where
  safe : P d₀ d → Valid d (uncommitted fs) →
    s.program.Safe (Commit P) (fun a fs' d' => P d₀ d' ∧ Valid d' (uncommitted fs') ∧ Q a fs' d')
      (fun _ _ d' => P d₀ d') fs d

namespace Keeps

variable {Q Q' : α → List (List (Put R)) → D → Prop} {fs : List (List (Put R))} {d₀ d : D}

theorem pure {a : α} (h : Q a fs d) : (pure a : Service D (Put R) E α).Keeps P d₀ Q fs d :=
  ⟨fun hp hv => ⟨hp, hv, h⟩⟩

theorem raise {e : E} : (raise e : Service D (Put R) E α).Keeps P d₀ Q fs d :=
  ⟨fun hp _ => hp⟩

theorem bind {s : Service D (Put R) E β} {f : β → Service D (Put R) E α}
    (h : s.Keeps P d₀ (fun b fs d => (f b).Keeps P d₀ Q fs d) fs d) :
    (s >>= f).Keeps P d₀ Q fs d :=
  ⟨fun hp hv => (Program.safe_bind ..).mpr <|
    (h.safe hp hv).mono (fun _ _ _ ⟨hp, hv, h⟩ => h.safe hp hv) (fun _ _ _ => id)⟩

theorem mono {s : Service D (Put R) E α} (h : s.Keeps P d₀ Q fs d)
    (hq : ∀ a fs d, P d₀ d → Q a fs d → Q' a fs d) : s.Keeps P d₀ Q' fs d :=
  ⟨fun hp hv =>
    (h.safe hp hv).mono (fun _ _ _ ⟨hp, hv, h⟩ => ⟨hp, hv, hq _ _ _ hp h⟩) (fun _ _ _ => id)⟩

-- An exception is handled outside of all blocks.
theorem handle {s : Service D (Put R) E α} {f : E → Service D (Put R) E α}
    (h : s.Keeps P d₀ Q [] d) (hf : ∀ e d, (f e).Keeps P d₀ Q [] d) :
    (s.handle f).Keeps P d₀ Q [] d := by
  constructor
  intro hp hv
  refine (Program.safe_handle ..).mpr <| Program.Safe.of_nested (m := 0) ?_ s.nested rfl
  refine (h.safe hp hv).mono (fun _ _ _ h _ => h) fun e fs d hp hl => ?_
  cases List.length_eq_zero_iff.mp hl
  exact (hf e d).safe hp trivial

variable [Std.Refl P] [IsTrans D P]

theorem rebase {s : Service D (Put R) E α} (h : s.Keeps P d Q fs d) : s.Keeps P d₀ Q fs d :=
  ⟨fun hp hv => (h.safe (Std.Refl.refl d) hv).mono
    (fun _ _ _ ⟨hp', hv, h⟩ => ⟨Trans.trans hp hp', hv, h⟩) (fun _ _ _ => Trans.trans hp)⟩

theorem select {q : D → α}
    (h : ∀ d', P d d' → Valid d' (uncommitted fs) → Q (q (applyAll d' (uncommitted fs))) fs d') :
    (select q).Keeps P d₀ Q fs d := by
  constructor
  intro hp hv
  cases fs
  case nil  =>
    intro d' hi
    have hp' : P d d' := hi.related
    have hp : P d₀ d' := Trans.trans hp hp'
    refine ⟨fun _ => hp, fun _ => ⟨⟨[], rfl, rfl, trivial, Std.Refl.refl d'⟩, ?_⟩⟩
    exact ⟨hp, trivial, h d' hp' trivial⟩
  case cons =>
    intro d' hi
    have hp' : P d d' := hi.related
    have hv' := hi.valid hv
    have hp : P d₀ d' := Trans.trans hp hp'
    exact ⟨fun _ => hp, fun _ => ⟨hp, by simpa using hv', by simpa using h d' hp' hv'⟩⟩

-- A statement inside of a block adds its writes to those of the block.
theorem stmt {ws : D → List (Put R)} {q : D → Except E α} {f : List (Put R)} (hw : Honest ws)
    (h : ∀ d' a, P d d' →
      let v := applyAll d' (uncommitted (f :: fs))
      Valid d' (uncommitted (f :: fs) ++ ws v) → q v = .ok a → Q a ((f ++ ws v) :: fs) d') :
    (stmt ws q).Keeps P d₀ Q (f :: fs) d := by
  constructor
  intro hp hv d' hi
  have hp' : P d d' := hi.related
  have hp : P d₀ d' := Trans.trans hp hp'
  refine ⟨fun _ => hp, fun hc => ?_⟩
  have hv' := Valid.append.mpr ⟨hi.valid hv, hw _ hc⟩
  cases hq : q (applyAll d' (uncommitted (f :: fs)))
  case ok a    =>
    simp only [hq]
    exact ⟨hp, by simpa using hv', h d' a hp' hv' hq⟩
  case error e => simp only [hq]; exact hp

theorem execute {ws : D → List (Put R)} {Q : Unit → List (List (Put R)) → D → Prop}
    {f : List (Put R)} (hw : Honest ws)
    (h : ∀ d', P d d' →
      let v := applyAll d' (uncommitted (f :: fs))
      Valid d' (uncommitted (f :: fs) ++ ws v) → Q () ((f ++ ws v) :: fs) d') :
    (Service.execute ws).Keeps P d₀ Q (f :: fs) d :=
  Keeps.stmt (q := fun _ => .ok ()) hw fun d' _ hp hv _ => h d' hp hv

-- A statement outside of all blocks is a transaction of its own.
theorem execute_commit {ws : D → List (Put R)} {Q : Unit → List (List (Put R)) → D → Prop}
    (hw : Honest ws)
    (h : ∀ d', P d d' → Valid d' (ws d') →
      P d' (applyAll d' (ws d')) ∧ Q () [] (applyAll d' (ws d'))) :
    (Service.execute ws).Keeps P d₀ Q [] d := by
  constructor
  intro hp _ d' hi
  have hp' : P d d' := hi.related
  have hp : P d₀ d' := Trans.trans hp hp'
  refine ⟨fun _ => hp, fun hc => ?_⟩
  have ⟨h, hq⟩ := h d' hp' <| hw d' hc
  exact ⟨⟨ws d', rfl, rfl, hw d' hc, h⟩, Trans.trans hp h, trivial, hq⟩

-- The outermost block commits the writes that were collected inside of it.
theorem atomic {s : Service D (Put R) E α}
    (h : s.Keeps P d₀ (fun a fs d => ∀ f, fs = [f] → ∀ d', P d d' → Valid d' f →
      P d' (applyAll d' f) ∧ Q a [] (applyAll d' f)) [[]] d) :
    s.atomic.Keeps P d₀ Q [] d := by
  constructor
  intro hp hv
  refine (Program.safe_closed ..).mpr <| Program.Safe.of_nested (m := 1) ?_ s.nested rfl
  refine (h.safe hp hv).mono (fun a fs d ⟨hp, hv, hq⟩ hl => ?_) (fun _ _ _ hp _ => hp)
  have ⟨f, hf⟩ := List.length_eq_one_iff.mp hl
  rw [hf] at hv ⊢
  intro d' hi
  have hp' : P d d' := hi.related
  have hp : P d₀ d' := Trans.trans hp hp'
  have hv' : Valid d' f := hi.valid hv
  have ⟨hc, hq⟩ := hq f hf d' hp' hv'
  exact ⟨⟨f, rfl, rfl, hv', hc⟩, ⟨Trans.trans hp hc, trivial, hq⟩, fun _ => hp⟩

omit [Std.Refl P] [IsTrans D P] in
-- An inner block hands its writes on to the block around it.
theorem atomic_inner {s : Service D (Put R) E α} {f : List (Put R)}
    (h : s.Keeps P d₀ (fun a fs d => ∀ g f fs', fs = g :: f :: fs' → Q a ((f ++ g) :: fs') d)
      ([] :: f :: fs) d) :
    s.atomic.Keeps P d₀ Q (f :: fs) d := by
  constructor
  intro hp hv
  refine (Program.safe_closed ..).mpr <|
    Program.Safe.of_nested (m := fs.length + 2) ?_ s.nested (by simp)
  refine (h.safe hp <| by simpa using hv).mono ?_ (fun _ _ _ hp _ => hp)
  rintro a fs d ⟨hp, hv, hq⟩ hl
  cases fs
  case nil => cases hl
  case cons g fs =>
    cases fs
    case nil  => simp at hl
    case cons => exact ⟨⟨hp, by simpa using hv, hq _ _ _ rfl⟩, fun _ => hp⟩

end Keeps
end Service

namespace System

variable {ι : Type} [Fintype ι] [DecidableEq ι]

-- If all calls keep `P`, then so does every interleaving of them.
theorem run_related [Std.Refl P] [IsTrans D P] {db : D} {calls : ι → Service D (Put R) E α}
    (h : ∀ i, (calls i).Keeps P db (fun _ _ _ => True) [] db) (as bs : List (Action ι E)) :
    P ((start db calls).run as).db ((start db calls).run (as ++ bs)).db := by
  have hs : (start db calls).Safe (Commit P) :=
    start_safe fun i => ((h i).safe (Std.Refl.refl db) trivial).mono (fun _ _ _ _ => trivial)
      (fun _ _ _ _ => trivial)
  rw [run_append]
  refine ReflTransGen.trans_induction_on (motive := fun {d d'} _ => P d d')
    ((hs.run as).left.run bs).right (fun _ => Std.Refl.refl _) (fun ⟨_, _, _, _, _, hp⟩ => hp) ?_
  exact fun _ _ => Trans.trans

end System
end ReadCommitted
