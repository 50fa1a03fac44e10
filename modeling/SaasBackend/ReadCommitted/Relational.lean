import SaasBackend.ReadCommitted.Guarantee
import SaasBackend.ReadCommitted.Table

namespace ReadCommitted

open Entity Session Relation

-- A store whose state consists of rows, and whose writes insert or replace a row. `refuses` are the
-- constraints on the row itself, and `duplicate` is the error of a violated unique constraint.
class Relational (D : Type) (R K E : outParam Type) [Entity R K] where
  rows      : D → List R
  put       : D → R → D
  refuses   : R → Option E
  duplicate : E
  mem_put   : ∀ {d n r}, r ∈ rows (put d n) ↔ r = n ∨ r ∈ rows d ∧ key r ≠ key n
  eq_of_key : ∀ {d r₁ r₂}, r₁ ∈ rows d → r₂ ∈ rows d → key r₁ = key r₂ → r₁ = r₂

open Relational

variable {D R K E α β : Type} [Entity R K] [Relational D R K E] [DecidableEq K]

-- A write conflicts with the rows of a store if its row is inserted under a primary key which is in
-- use, or if it adds an index entry which another row has.
def Conflict (rs : List R) (p : Put R) : Prop :=
  (p.old.isNone ∧ ∃ r ∈ rs, key r = key p.new) ∨
  (∃ r ∈ rs, key r ≠ key p.new ∧ ∃ k ∈ p.added, k ∈ entries r)

instance (rs : List R) (p : Put R) : Decidable (Conflict rs p) :=
  inferInstanceAs <| Decidable (_ ∨ _)

instance : Store D (Put R) K E where
  apply d p     := put d p.new
  keys          := Put.keys
  violation d p := refuses D p.new <|> if Conflict (rows d) p then some (duplicate D) else none

-- The write replaces the current version of its row, and is not in conflict with any other row.
structure Accepts (d : D) (p : Put R) : Prop where
  old   : ∀ o, p.old = some o → o ∈ rows d ∧ key o = key p.new
  new   : p.old = none → ∀ r ∈ rows d, key r ≠ key p.new
  fresh : ∀ r ∈ rows d, key r ≠ key p.new → ∀ k ∈ p.added, k ∉ entries r

-- The writes are accepted one after another.
def Valid : D → List (Put R) → Prop
  | _, []      => True
  | d, p :: ps => Accepts d p ∧ Valid (put d p.new) ps

namespace Accepts

variable {d d' : D} {p q : Put R}

theorem of_not_conflict (h : ¬Conflict (rows d) p)
    (ho : ∀ o, p.old = some o → o ∈ rows d ∧ key o = key p.new) : Accepts d p where
  old                   := ho
  new hp r hr hk        := h <| .inl ⟨by simp [hp], r, hr, hk⟩
  fresh r hr hk k h₁ h₂ := h <| .inr ⟨r, hr, hk, k, h₁, h₂⟩

theorem congr (h : Accepts d p) (hd : ∀ r, r ∈ rows d ↔ r ∈ rows d') : Accepts d' p where
  old   := fun o ho => (h.old o ho).imp_left (hd o).mp
  new   := fun hp r hr => h.new hp r <| (hd r).mpr hr
  fresh := fun r hr => h.fresh r <| (hd r).mpr hr

-- What is accepted remains acceptable when another write happens under different locks.
theorem stable (hp : Accepts d p) (hq : Accepts d q) (hd : p.keys.Disjoint q.keys) :
    Accepts (put d q.new) p := by
  have hk : key p.new ≠ key q.new :=
    fun h => hd p.key_mem_keys <| h ▸ q.key_mem_keys
  constructor
  case old =>
    intro o ho
    have ⟨hm, hn⟩ := hp.old o ho
    exact ⟨mem_put.mpr <| .inr ⟨hm, hn ▸ hk⟩, hn⟩
  case new =>
    intro ho r hr
    cases mem_put.mp hr
    case inl hr => exact hr ▸ hk.symm
    case inr hr => exact hp.new ho r hr.left
  case fresh =>
    intro r hr hn k h₁ h₂
    cases mem_put.mp hr
    case inr hr => exact hp.fresh r hr.left hn k h₁ h₂
    case inl hr =>
      rw [hr] at h₂
      -- As `q` does not lock the entry, the row that `q` replaces has it as well.
      have ha : k ∉ q.added := fun h => hd (Put.added_mem_keys h₁) (Put.added_mem_keys h)
      have ⟨o, ho, h₃⟩ : ∃ o, q.old = some o ∧ k ∈ entries o := by simpa [Put.mem_added, h₂] using ha
      have ⟨hm, hk'⟩ := hq.old o ho
      exact hp.fresh o hm (hk' ▸ hk.symm) k h₁ h₃

end Accepts

omit [DecidableEq K] in
theorem rows_put_comm {d : D} {a b r : R} (h : key a ≠ key b) :
    r ∈ rows (put (put d a) b) ↔ r ∈ rows (put (put d b) a) := by
  simp only [mem_put]
  grind

namespace Valid

variable {d d' : D} {p q : Put R} {ps qs : List (Put R)}

theorem congr (h : Valid d ps) (hd : ∀ r, r ∈ rows d ↔ r ∈ rows d') : Valid d' ps := by
  induction ps generalizing d d'
  case nil       => trivial
  case cons p _ hi =>
    refine ⟨h.left.congr hd, hi h.right fun r => ?_⟩
    rw [mem_put, mem_put, hd]

theorem singleton : Valid d [p] ↔ Accepts d p :=
  iff_of_eq <| and_true _

theorem append : Valid d (ps ++ qs) ↔ Valid d ps ∧ Valid (Store.applyAll d ps) qs := by
  induction ps generalizing d
  case nil       => exact (iff_of_eq <| true_and _).symm
  case cons p ps hi => simp only [List.cons_append, Valid, hi, and_assoc]; rfl

-- Writes remain valid when another one is performed under different locks, and vice versa.
theorem stable_single (hp : Valid d ps) (hq : Accepts d q)
    (hd : (ps.flatMap Put.keys).Disjoint q.keys) :
    Valid (put d q.new) ps ∧ Accepts (Store.applyAll d ps) q := by
  induction ps generalizing d
  case nil => exact ⟨trivial, hq⟩
  case cons p ps hi =>
    have hd₁ : p.keys.Disjoint q.keys := fun _ h => hd <| by simp [h]
    have hd₂ : (ps.flatMap Put.keys).Disjoint q.keys := fun _ h => hd <| by simp_all
    have hk : key p.new ≠ key q.new := fun h => hd₁ p.key_mem_keys <| h ▸ q.key_mem_keys
    have ⟨h₁, h₂⟩ := hi hp.right (hq.stable hp.left fun _ h₁ h₂ => hd₁ h₂ h₁) hd₂
    exact ⟨⟨hp.left.stable hq hd₁, h₁.congr fun _ => rows_put_comm hk⟩, h₂⟩

theorem stable (hp : Valid d ps) (hq : Valid d qs)
    (hd : (ps.flatMap Put.keys).Disjoint (qs.flatMap Put.keys)) :
    Valid (Store.applyAll d qs) ps := by
  induction qs generalizing d
  case nil => exact hp
  case cons q qs hi =>
    have hd₁ : (ps.flatMap Put.keys).Disjoint q.keys := fun _ h₁ h₂ => hd h₁ <| by simp [h₂]
    have hd₂ : (ps.flatMap Put.keys).Disjoint (qs.flatMap Put.keys) :=
      fun _ h₁ h₂ => hd h₁ <| by simp_all
    exact hi (hp.stable_single hq.left hd₁).left hq.right hd₂

end Valid

section Statements

-- The writes of a statement which is executed successfully are valid.
def Honest (ws : D → List (Put R)) : Prop :=
  ∀ d, Store.check d (ws d) = none → Valid d (ws d)

theorem violation_eq_none {d : D} {p : Put R} :
    Store.violation d p = none ↔ refuses D p.new = none ∧ ¬Conflict (rows d) p := by
  simp [Store.violation]

theorem honest_insert (n : R) : Honest (D := D) fun _ => [⟨none, n⟩] :=
  fun d h => Valid.singleton.mpr <| .of_not_conflict (violation_eq_none.mp (by simpa using h)).right nofun

-- A statement that replaces a row which it finds in the store.
theorem honest_replace {q : D → Option (Put R)}
    (h : ∀ d p, q d = some p → ∃ o ∈ rows d, p.old = some o ∧ key o = key p.new) :
    Honest fun d => (q d).toList := by
  intro d hc
  simp only at hc ⊢
  cases hq : q d
  case none   => trivial
  case some p =>
    have ⟨o, hm, ho, hk⟩ := h d p hq
    rw [hq] at hc
    refine Valid.singleton.mpr <| .of_not_conflict (violation_eq_none.mp (by simpa using hc)).right ?_
    intro o' ho'
    cases ho.symm.trans ho'
    exact ⟨hm, hk⟩

end Statements
end ReadCommitted
