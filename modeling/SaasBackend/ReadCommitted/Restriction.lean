import SaasBackend.ReadCommitted.Commit
import SaasBackend.ReadCommitted.Issues

namespace ReadCommitted

open Session Relation Relational Store

variable {D R K E α : Type} [Entity R K] [Relational D R K E] [DecidableEq K] {N : Put R → Prop}
  {P P' : D → D → Prop}

theorem Interference.weaken (h : ∀ d d', P' d d' → P d d') {ks : List K} {d d' : D}
    (hi : Interference (Commit P') ks d d') : Interference (Commit P) ks d d' := by
  refine ReflTransGen.mono (fun _ _ hc => ?_) _ _ hi
  obtain ⟨ks', hd, ps, hk, he, hv, hp⟩ := hc
  exact ⟨ks', hd, ps, hk, he, hv, h _ _ hp⟩

namespace Program

variable [Std.Refl P'] [IsTrans D P'] {p : Program D (Put R) E α} {fs : List (List (Put R))} {d₀ d : D}
  {Q : α → List (List (Put R)) → D → Prop} {X : E → List (List (Put R)) → D → Prop}

-- A program whose commits are related by `P` relates them by `P'` as well, if the writes of the kind
-- `N` do so whenever they are related by `P`. It may also rely on others to keep `P'`.
theorem Safe.restrict (h : p.Safe (Commit P) Q X fs d) (hp : p.Issues N)
    (hl : ∀ d d', P' d d' → P d d')
    (hi : ∀ d ps, Valid d ps → (∀ w ∈ ps, N w) → P d (applyAll d ps) → P' d (applyAll d ps))
    (hn : ∀ w ∈ uncommitted fs, N w) (hv : Valid d (uncommitted fs)) (hd : P' d₀ d) :
    p.Safe (Commit P') (fun a fs d => P' d₀ d ∧ Valid d (uncommitted fs) ∧ Q a fs d)
      (fun _ _ d => P' d₀ d) fs d := by
  induction p generalizing fs d
  case ret                  => exact ⟨hd, hv, h⟩
  case raise                => exact hd
  case enter ih             => exact ih h hp (by simpa using hn) (by simpa using hv) hd
  case undo ih              =>
    have hn' : ∀ w ∈ uncommitted fs.tail, N w := fun w hw => hn w <| uncommitted_tail_subset fs hw
    refine ih h hp hn' ?_ hd
    cases fs
    case nil  => exact hv
    case cons => exact (Valid.append.mp hv).left
  case stmt ws k f ih₁ ih₂  =>
    obtain ⟨⟨hw, hnw⟩, hk, hf⟩ := hp
    cases fs
    case nil =>
      intro d' hi'
      have hd' : P' d₀ d' := Trans.trans hd hi'.related
      obtain ⟨he, hc⟩ := h d' <| hi'.weaken hl
      refine ⟨fun e => ih₂ e (he e) (hf e) hn trivial hd', fun hc' => ?_⟩
      obtain ⟨⟨_, _, hap, _, hp⟩, hs⟩ := hc hc'
      have hp' : P' d' (applyAll d' (ws d')) := hi _ _ (hw d' hc') (hnw d') hp
      exact ⟨⟨ws d', rfl, rfl, hw d' hc', hp'⟩, ih₁ d' hs (hk d') hn trivial <| Trans.trans hd' hp'⟩
    case cons g fs =>
      intro d' hi'
      have hd' : P' d₀ d' := Trans.trans hd hi'.related
      have hv' := hi'.valid hv
      obtain ⟨he, hc⟩ := h d' <| hi'.weaken hl
      refine ⟨fun e => ih₂ e (he e) (hf e) hn hv' hd', fun hc' => ?_⟩
      refine ih₁ _ (hc hc') (hk _) ?_ ?_ hd'
      · rw [uncommitted_cons, ←List.append_assoc]
        exact List.forall_mem_append.mpr ⟨hn, hnw _⟩
      · rw [uncommitted_cons, ←List.append_assoc]
        exact Valid.append.mpr ⟨hv', hw _ hc'⟩
  case leave k f ih₁ ih₂    =>
    rcases fs with _ | ⟨f₁, _ | ⟨f₂, fs⟩⟩
    · exact ⟨ih₁ h.left hp.left hn hv hd, fun e => ih₂ e (h.right e) (hp.right e) hn hv hd⟩
    · intro d' hi'
      have hd' : P' d₀ d' := Trans.trans hd hi'.related
      have hv' : Valid d' f₁ := hi'.valid hv
      obtain ⟨⟨_, _, _, _, hp₁⟩, hs, he⟩ := h d' <| hi'.weaken hl
      have hp' : P' d' (applyAll d' f₁) := hi _ _ hv' hn hp₁
      refine ⟨⟨f₁, rfl, rfl, hv', hp'⟩, ?_, fun e => ?_⟩
      · exact ih₁ hs hp.left (List.forall_mem_nil _) trivial <| Trans.trans hd' hp'
      · exact ih₂ e (he e) (hp.right e) (List.forall_mem_nil _) trivial hd'
    · have hn' : ∀ w ∈ uncommitted ((f₂ ++ f₁) :: fs), N w := by simpa using hn
      have hv' : Valid d (uncommitted ((f₂ ++ f₁) :: fs)) := by simpa using hv
      refine ⟨ih₁ h.left hp.left hn' hv' hd, fun e => ?_⟩
      refine ih₂ e (h.right e) (hp.right e) (fun w hw => hn w <| List.mem_append_left _ hw) ?_ hd
      exact (Valid.append.mp hv).left

-- What holds of all valid writes is all that there is to rely on.
theorem Issues.safe (hp : p.Issues N) (hn : ∀ w ∈ uncommitted fs, N w) (hv : Valid d (uncommitted fs)) :
    p.Safe (Commit fun _ _ => True) (fun _ _ _ => True) (fun _ _ _ => True) fs d := by
  induction p generalizing fs d
  case ret | raise          => trivial
  case enter ih             => exact ih hp (by simpa using hn) (by simpa using hv)
  case undo ih              =>
    refine ih hp (fun w hw => hn w <| uncommitted_tail_subset fs hw) ?_
    cases fs
    case nil  => exact hv
    case cons => exact (Valid.append.mp hv).left
  case stmt ws k f ih₁ ih₂  =>
    obtain ⟨⟨hw, hnw⟩, hk, hf⟩ := hp
    cases fs
    case nil =>
      refine fun d' hi => ⟨fun e => ih₂ e (hf e) hn trivial, fun hc => ?_⟩
      exact ⟨⟨ws d', rfl, rfl, hw d' hc, trivial⟩, ih₁ d' (hk d') hn trivial⟩
    case cons g fs =>
      intro d' hi
      have hv' := hi.valid hv
      refine ⟨fun e => ih₂ e (hf e) hn hv', fun hc => ih₁ _ (hk _) ?_ ?_⟩
      · rw [uncommitted_cons, ←List.append_assoc]
        exact List.forall_mem_append.mpr ⟨hn, hnw _⟩
      · rw [uncommitted_cons, ←List.append_assoc]
        exact Valid.append.mpr ⟨hv', hw _ hc⟩
  case leave k f ih₁ ih₂    =>
    rcases fs with _ | ⟨f₁, _ | ⟨f₂, fs⟩⟩
    · exact ⟨ih₁ hp.left hn hv, fun e => ih₂ e (hp.right e) hn hv⟩
    · intro d' hi
      refine ⟨⟨f₁, rfl, rfl, hi.valid hv, trivial⟩, ?_, fun e => ?_⟩
      · exact ih₁ hp.left (List.forall_mem_nil _) trivial
      · exact ih₂ e (hp.right e) (List.forall_mem_nil _) trivial
    · have hn' : ∀ w ∈ uncommitted ((f₂ ++ f₁) :: fs), N w := by simpa using hn
      have hv' : Valid d (uncommitted ((f₂ ++ f₁) :: fs)) := by simpa using hv
      refine ⟨ih₁ hp.left hn' hv', fun e => ?_⟩
      refine ih₂ e (hp.right e) (fun w hw => hn w <| List.mem_append_left _ hw) ?_
      exact (Valid.append.mp hv).left

end Program

namespace Service

variable [Std.Refl P'] [IsTrans D P'] {s : Service D (Put R) E α} {d₀ d : D}
  {Q : α → List (List (Put R)) → D → Prop}

theorem Keeps.restrict [Std.Refl P] [IsTrans D P] (h : s.Keeps P d Q [] d) (hs : s.Issues N)
    (hl : ∀ d d', P' d d' → P d d')
    (hi : ∀ d ps, Valid d ps → (∀ w ∈ ps, N w) → P d (applyAll d ps) → P' d (applyAll d ps)) :
    s.Keeps P' d₀ Q [] d := by
  constructor
  intro hd hv
  refine ((h.safe (Std.Refl.refl d) hv).restrict hs.program hl hi (List.forall_mem_nil _) hv hd).mono ?_ ?_
  · exact fun _ _ _ h => ⟨h.left, h.right.left, h.right.right.right.right⟩
  · exact fun _ _ _ => id

-- What each of its writes keeps is kept by a service.
theorem Issues.keeps (hs : s.Issues N) (hi : ∀ d w, N w → Accepts d w → P' d (put d w.new)) :
    s.Keeps P' d₀ (fun _ _ _ => True) [] d := by
  constructor
  intro hd hv
  have h : s.program.Safe (Commit fun _ _ => True) (fun _ _ _ => True) (fun _ _ _ => True) [] d :=
    hs.program.safe (List.forall_mem_nil _) hv
  refine (h.restrict hs.program (fun _ _ _ => trivial) (fun d ps hv hn _ => ?_) (List.forall_mem_nil _)
    hv hd).mono ?_ ?_
  · exact hv.related hi hn
  · exact fun _ _ _ h => h
  · exact fun _ _ _ => id

end Service
end ReadCommitted
