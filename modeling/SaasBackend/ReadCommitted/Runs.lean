import Mathlib

-- Runs of events which are processed one after another.
namespace ReadCommitted

variable {S E : Type} {step : S → E → S} {C : S → E → Prop} {P : S → Prop}

-- Every event satisfies `C` in the state in which it is processed.
def Throughout (step : S → E → S) (C : S → E → Prop) : S → List E → Prop
  | _, []      => True
  | s, e :: es => C s e ∧ Throughout step C (step s e) es

instance Throughout.instDecidable [h : ∀ s e, Decidable (C s e)] :
    (s : S) → (es : List E) → Decidable (Throughout step C s es)
  | _, []       => isTrue trivial
  | s, e :: es  =>
    have := instDecidable (step s e) es
    inferInstanceAs <| Decidable (C s e ∧ _)

theorem Throughout.induction {s : S} {es : List E} (hc : Throughout step C s es) (h : P s)
    (hs : ∀ s e, C s e → P s → P (step s e)) : P (es.foldl step s) := by
  induction es generalizing s
  case nil          => exact h
  case cons e es hi => exact hi hc.right <| hs _ e hc.left h

-- The tables, and what is known about the calls so far, from the latest to the first.
structure History (D F : Type) where
  db  : D
  log : List F

namespace History

variable {D F X α : Type} {P : History D F → Prop} {σ : History D F}

def start (d : D) : History D F where
  db  := d
  log := []

-- A call that returns normally adds to the log.
def record (σ : History D F) (facts : α → List F) : Except X α × D → History D F
  | (.ok a, d)    => ⟨d, facts a ++ σ.log⟩
  | (.error _, d) => ⟨d, σ.log⟩

theorem record_cases {facts : α → List F} {r : Except X α × D}
    (he : ∀ x d, r = (.error x, d) → P ⟨d, σ.log⟩)
    (ho : ∀ a d, r = (.ok a, d) → P ⟨d, facts a ++ σ.log⟩) : P (σ.record facts r) := by
  obtain ⟨x, d⟩ := r
  cases x
  case error x  => exact he x d rfl
  case ok a     => exact ho a d rfl

end History
end ReadCommitted
