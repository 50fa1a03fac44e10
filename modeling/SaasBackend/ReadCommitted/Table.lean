import Mathlib

namespace ReadCommitted

-- The primary key of a row, and the entries that the row has in the unique indexes of its table.
class Entity (R : Type) (K : outParam Type) where
  key     : R → K
  entries : R → List K

open Entity

-- The rows of a table, of which no two have the same primary key.
structure Table (R : Type) {K : Type} [Entity R K] where
  rows     : List R
  distinct : rows.Pairwise (key · ≠ key ·)

-- A row which is inserted, or the version of a row together with the version that replaces it.
structure Put (R : Type) where
  old : Option R
  new : R

variable {R K : Type} [Entity R K]

namespace Put

variable [DecidableEq K]

-- The index entries which a write adds to those of its row.
def added (p : Put R) : List K :=
  (entries p.new).filter (· ∉ p.old.elim [] entries)

-- The index entries which a write removes.
def removed (p : Put R) : List K :=
  (p.old.elim [] entries).filter (· ∉ entries p.new)

-- A write locks its row and those index entries which it adds or removes.
def keys (p : Put R) : List K :=
  key p.new :: (p.removed ++ p.added)

theorem key_mem_keys (p : Put R) : key p.new ∈ p.keys :=
  List.mem_cons_self

theorem added_mem_keys {p : Put R} {k : K} (h : k ∈ p.added) : k ∈ p.keys :=
  List.mem_cons_of_mem _ <| List.mem_append_right _ h

theorem mem_added {p : Put R} {k : K} :
    k ∈ p.added ↔ k ∈ entries p.new ∧ ∀ o, p.old = some o → k ∉ entries o := by
  cases h : p.old <;> simp [added, h]

theorem added_insert (n : R) : (⟨none, n⟩ : Put R).added = entries n := by
  simp [added]

theorem added_replace {o n : R} (h : entries n ⊆ entries o) : (⟨some o, n⟩ : Put R).added = [] :=
  List.filter_eq_nil_iff.mpr fun k hk => by simp [h hk]

end Put

namespace Table

theorem ext {t₁ t₂ : Table R} (h : t₁.rows = t₂.rows) : t₁ = t₂ := by
  cases t₁; cases t₂; cases h; rfl

instance : Membership R (Table R) where
  mem t r := r ∈ t.rows

theorem mem_rows {t : Table R} {r : R} : r ∈ t.rows ↔ r ∈ t :=
  .rfl

instance [DecidableEq R] (t : Table R) (r : R) : Decidable (r ∈ t) :=
  inferInstanceAs <| Decidable (r ∈ t.rows)

instance (t : Table R) (p : R → Prop) [DecidablePred p] : Decidable (∀ r ∈ t, p r) :=
  inferInstanceAs <| Decidable (∀ r ∈ t.rows, p r)

theorem eq_of_key {t : Table R} {r₁ r₂ : R} (h₁ : r₁ ∈ t) (h₂ : r₂ ∈ t) (h : key r₁ = key r₂) :
    r₁ = r₂ :=
  List.Pairwise.forall_of_forall_of_flip (R := fun r₁ r₂ => key r₁ = key r₂ → r₁ = r₂)
    (fun _ _ _ => rfl) (t.distinct.imp fun hn hk => (hn hk).elim)
    (t.distinct.imp fun hn hk => (hn hk.symm).elim) h₁ h₂ h

def empty : Table R where
  rows     := []
  distinct := .nil

@[simp]
theorem not_mem_empty (r : R) : r ∉ (empty : Table R) :=
  List.not_mem_nil

def filter (t : Table R) (p : R → Bool) : Table R where
  rows     := t.rows.filter p
  distinct := t.distinct.filter p

theorem mem_filter {t : Table R} {p : R → Bool} {r : R} : r ∈ t.filter p ↔ r ∈ t ∧ p r :=
  List.mem_filter

-- Changes the rows of a table, but not their primary keys.
def map (t : Table R) (f : R → R) (hf : ∀ r, key (f r) = key r) : Table R where
  rows     := t.rows.map f
  distinct := List.pairwise_map.mpr <| t.distinct.imp fun h => by simpa only [hf] using h

variable [DecidableEq K]

def lookup (t : Table R) (k : K) : Option R :=
  t.rows.find? (key · = k)

theorem lookup_eq_some {t : Table R} {k : K} {r : R} :
    t.lookup k = some r ↔ r ∈ t ∧ key r = k := by
  constructor
  case mp  =>
    intro h
    exact ⟨List.mem_of_find?_eq_some h, by simpa using List.find?_some h⟩
  case mpr =>
    intro ⟨hm, hk⟩
    cases h : t.lookup k
    case none    => simpa [hk] using List.find?_eq_none.mp h r hm
    case some r' =>
      have hk' : key r' = k := by simpa using List.find?_some h
      rw [eq_of_key (List.mem_of_find?_eq_some h) hm <| hk'.trans hk.symm]

section Put

def putRows (rs : List R) (n : R) : List R :=
  if ∃ r ∈ rs, key r = key n then rs.map (fun r => if key r = key n then n else r) else n :: rs

theorem mem_putRows {rs : List R} {n r : R} :
    r ∈ putRows rs n ↔ r = n ∨ r ∈ rs ∧ key r ≠ key n := by
  unfold putRows
  split
  case isTrue h  =>
    simp only [List.mem_map]
    constructor
    case mp  => rintro ⟨r', hr', rfl⟩; by_cases hk : key r' = key n <;> simp_all
    case mpr =>
      rintro (rfl | ⟨hr, hk⟩)
      · obtain ⟨r', hr', hk⟩ := h
        exact ⟨r', hr', if_pos hk⟩
      · exact ⟨r, hr, if_neg hk⟩
  case isFalse h =>
    have h' : ∀ r ∈ rs, key r ≠ key n := fun r hr hk => h ⟨r, hr, hk⟩
    rw [List.mem_cons]
    exact or_congr_right ⟨fun hr => ⟨hr, h' r hr⟩, And.left⟩

theorem putRows_distinct {rs : List R} (n : R) (h : rs.Pairwise (key · ≠ key ·)) :
    (putRows rs n).Pairwise (key · ≠ key ·) := by
  unfold putRows
  split
  case isTrue    =>
    have hk : ∀ r, key (if key r = key n then n else r) = key r :=
      fun r => by by_cases h : key r = key n <;> simp [h]
    exact List.pairwise_map.mpr <| h.imp fun hr => by simpa only [hk] using hr
  case isFalse hn =>
    exact List.pairwise_cons.mpr ⟨fun r hr hk => hn ⟨r, hr, hk.symm⟩, h⟩

-- Writes a row: replaces the row with the same primary key, or adds a row if there is none.
def put (t : Table R) (n : R) : Table R where
  rows     := putRows t.rows n
  distinct := putRows_distinct n t.distinct

theorem mem_put {t : Table R} {n r : R} : r ∈ t.put n ↔ r = n ∨ r ∈ t ∧ key r ≠ key n :=
  mem_putRows

theorem mem_put_self (t : Table R) (n : R) : n ∈ t.put n :=
  mem_put.mpr <| .inl rfl

theorem mem_put_of_ne {t : Table R} {n r : R} (hr : r ∈ t) (hk : key r ≠ key n) : r ∈ t.put n :=
  mem_put.mpr <| .inr ⟨hr, hk⟩

theorem rows_put_of_mem {t : Table R} {o n : R} (h : o ∈ t) (hk : key o = key n) :
    (t.put n).rows = t.rows.map (fun r => if key r = key n then n else r) :=
  if_pos ⟨o, h, hk⟩

theorem rows_put_of_not_mem {t : Table R} {n : R} (h : ∀ r ∈ t, key r ≠ key n) :
    (t.put n).rows = n :: t.rows :=
  if_neg fun ⟨r, hr, hk⟩ => h r hr hk

theorem put_of_mem {t : Table R} {r : R} (h : r ∈ t) : t.put r = t := by
  refine ext <| (rows_put_of_mem h rfl).trans ?_
  refine (List.map_congr_left fun r' hr' => ?_).trans <| List.map_id' _
  split
  case isTrue hk => exact (eq_of_key hr' h hk).symm
  case isFalse   => rfl

theorem put_put (t : Table R) {a b : R} (hk : key a = key b) : (t.put a).put b = t.put b := by
  have hb : ((t.put a).put b).rows = _ := rows_put_of_mem (mem_put_self t a) hk
  refine ext <| hb.trans ?_
  by_cases ha : ∃ r ∈ t, key r = key a
  case pos =>
    have ⟨r, hr, hr'⟩ := ha
    rw [rows_put_of_mem hr hr', rows_put_of_mem hr (hr'.trans hk), List.map_map]
    apply List.map_congr_left
    intro r _
    by_cases h : key r = key b <;> simp [hk, h]
  case neg =>
    have ha : ∀ r ∈ t, key r ≠ key a := fun r hr h => ha ⟨r, hr, h⟩
    have hb : ∀ r ∈ t, key r ≠ key b := fun r hr => hk ▸ ha r hr
    rw [rows_put_of_not_mem ha, rows_put_of_not_mem hb, List.map_cons, if_pos hk]
    refine congrArg _ <| (List.map_congr_left fun r hr => ?_).trans <| List.map_id' _
    exact if_neg <| hb r hr

theorem lookup_put_self (t : Table R) (n : R) : (t.put n).lookup (key n) = some n :=
  lookup_eq_some.mpr ⟨t.mem_put_self n, rfl⟩

theorem lookup_put_of_ne {t : Table R} {n : R} {k : K} (h : key n ≠ k) : (t.put n).lookup k = t.lookup k := by
  ext r
  rw [lookup_eq_some, lookup_eq_some, mem_put]
  constructor
  case mp   =>
    rintro ⟨rfl | ⟨hr, _⟩, hk⟩
    · exact (h hk).elim
    · exact ⟨hr, hk⟩
  case mpr  =>
    rintro ⟨hr, hk⟩
    exact ⟨.inr ⟨hr, fun he => h <| he.symm.trans hk⟩, hk⟩

omit [DecidableEq K] in
theorem rows_filter (t : Table R) (p : R → Bool) : (t.filter p).rows = t.rows.filter p :=
  rfl

-- The rows that are filtered, and those which are not, are written to separately.
theorem filter_put {t : Table R} {n : R} {p : R → Bool} (hn : p n) (h : ∀ r ∈ t, key r = key n → p r) : (t.put n).filter p = (t.filter p).put n := by
  refine ext ?_
  by_cases hk : ∃ r ∈ t, key r = key n
  case pos =>
    obtain ⟨r, hr, hk⟩ := hk
    have hr' : r ∈ t.filter p := mem_filter.mpr ⟨hr, h r hr hk⟩
    rw [rows_put_of_mem hr' hk, rows_filter, rows_put_of_mem hr hk, rows_filter, List.filter_map]
    refine congrArg _ <| List.filter_congr fun r hr => ?_
    by_cases hk : key r = key n
    case pos => simp [hk, hn, h r hr hk]
    case neg => simp [hk]
  case neg =>
    have hk : ∀ r ∈ t, key r ≠ key n := fun r hr he => hk ⟨r, hr, he⟩
    have hk' : ∀ r ∈ t.filter p, key r ≠ key n := fun r hr => hk r (mem_filter.mp hr).left
    rw [rows_put_of_not_mem hk', rows_filter, rows_put_of_not_mem hk, List.filter_cons_of_pos hn]
    rfl

theorem filter_put_of_not {t : Table R} {n : R} {p : R → Bool} (hn : ¬p n) (h : ∀ r ∈ t, key r = key n → ¬p r) : (t.put n).filter p = t.filter p := by
  refine ext ?_
  by_cases hk : ∃ r ∈ t, key r = key n
  case pos =>
    obtain ⟨r, hr, hk⟩ := hk
    rw [rows_filter, rows_put_of_mem hr hk, rows_filter, List.filter_map]
    have hf : t.rows.filter (p ∘ fun r => if key r = key n then n else r) = t.rows.filter p := by
      refine List.filter_congr fun r hr => ?_
      by_cases hk : key r = key n
      case pos => simp [hk, hn, h r hr hk]
      case neg => simp [hk]
    rw [hf]
    refine (List.map_congr_left fun r hr => ?_).trans <| List.map_id' _
    obtain ⟨hr, hp⟩ := List.mem_filter.mp hr
    exact if_neg fun hk => h r hr hk hp
  case neg =>
    have hk : ∀ r ∈ t, key r ≠ key n := fun r hr he => hk ⟨r, hr, he⟩
    rw [rows_filter, rows_put_of_not_mem hk, List.filter_cons_of_neg hn]
    rfl

omit [DecidableEq K] in
theorem filter_congr {t : Table R} {p q : R → Bool} (h : ∀ r ∈ t, p r = q r) : t.filter p = t.filter q :=
  ext <| List.filter_congr h

-- Several rows are replaced by new versions one after another.
theorem mem_foldl_put {t : Table R} {rs : List R} {f : R → R} {n : R}
    (hd : rs.Pairwise (key · ≠ key ·)) (hf : ∀ r, key (f r) = key r) :
    n ∈ (rs.map f).foldl put t ↔ n ∈ rs.map f ∨ n ∈ t ∧ ∀ r ∈ rs, key n ≠ key r := by
  induction rs generalizing t
  case nil          => simp
  case cons r rs hi =>
    have ⟨hr, hd⟩ := List.pairwise_cons.mp hd
    have hn : ∀ s ∈ rs, key (f r) ≠ key s := fun s hs => (hf r).symm ▸ hr s hs
    simp only [List.map_cons, List.foldl_cons, hi hd, mem_put, hf, List.mem_cons, forall_eq_or_imp]
    constructor
    case mp =>
      rintro (h | ⟨rfl | ⟨h, hk⟩, hs⟩)
      · exact .inl <| .inr h
      · exact .inl <| .inl rfl
      · exact .inr ⟨h, hk, hs⟩
    case mpr =>
      rintro ((rfl | h) | ⟨h, hk, hs⟩)
      · exact .inr ⟨.inl rfl, hn⟩
      · exact .inl h
      · exact .inr ⟨.inr ⟨h, hk⟩, hs⟩

-- Every row persists, at most under a new version of it.
theorem exists_mem_put {t : Table R} {r : R} (n : R) (h : r ∈ t) :
    ∃ r' ∈ t.put n, key r' = key r := by
  by_cases hk : key r = key n
  case pos => exact ⟨n, t.mem_put_self n, hk.symm⟩
  case neg => exact ⟨r, mem_put_of_ne h hk, rfl⟩

omit [DecidableEq K] in
-- Sums over the rows of two tables, where each row of the first one has a counterpart in the second.
theorem sum_le_sum {t t' : Table R} {f f' : R → Nat}
    (h : ∀ r ∈ t, ∃ r' ∈ t', key r' = key r ∧ f r ≤ f' r') :
    (t.rows.map f).sum ≤ (t'.rows.map f').sum := by
  suffices ∀ rs rs' : List R, rs.Pairwise (key · ≠ key ·) →
      (∀ r ∈ rs, ∃ r' ∈ rs', key r' = key r ∧ f r ≤ f' r') →
      (rs.map f).sum ≤ (rs'.map f').sum from this t.rows t'.rows t.distinct h
  intro rs
  induction rs
  case nil => exact fun _ _ _ => Nat.zero_le _
  case cons r rs hi =>
    intro rs' hd h
    have ⟨hr, hd⟩ := List.pairwise_cons.mp hd
    have ⟨r', hm, hk, hf⟩ := h r List.mem_cons_self
    have ⟨as, bs, hs⟩ := List.append_of_mem hm
    -- The other rows have their counterparts besides `r'`.
    have := hi (as ++ bs) hd fun a ha => by
      have ⟨a', hm', hk', hf'⟩ := h a <| List.mem_cons_of_mem _ ha
      have hn : a' ≠ r' := fun he => hr a ha <| hk.symm.trans <| he ▸ hk'
      exact ⟨a', by simpa [hs, hn] using hm', hk', hf'⟩
    simp only [hs, List.map_append, List.map_cons, List.sum_append, List.sum_cons] at this ⊢
    omega

-- Sums over the rows of a table, before and after the replacement of a row.
theorem sum_put_old {t : Table R} {o n : R} (f : R → Nat) (h : o ∈ t) (hk : key o = key n) :
    ((t.put n).rows.map f).sum + f o = (t.rows.map f).sum + f n := by
  rw [rows_put_of_mem h hk]
  suffices ∀ rs : List R, rs.Pairwise (key · ≠ key ·) → o ∈ rs →
      ((rs.map (fun r => if key r = key n then n else r)).map f).sum + f o =
      (rs.map f).sum + f n from this t.rows t.distinct h
  intro rs hd hm
  induction rs
  case nil => cases hm
  case cons r rs hi =>
    have ⟨hr, hd⟩ := List.pairwise_cons.mp hd
    cases hm
    case head =>
      have hs : rs.map (fun r => if key r = key n then n else r) = rs := by
        refine (List.map_congr_left fun r hm => if_neg fun h => ?_).trans <| List.map_id' rs
        exact hr r hm <| hk.trans h.symm
      simp [hs, hk]
      omega
    case tail hm =>
      have hn : key r ≠ key n := fun h => hr o hm <| h.trans hk.symm
      have := hi hd hm
      simp only [List.map_cons, List.sum_cons, hn, if_false]
      omega

omit [Entity R K] [DecidableEq K] in
theorem countP_eq_sum (p : R → Bool) (rs : List R) :
    rs.countP p = (rs.map fun r => (p r).toNat).sum := by
  induction rs
  case nil          => rfl
  case cons r rs hi => cases h : p r <;> simp [h, hi, Nat.add_comm]

-- The number of rows with a certain property, before and after the replacement of a row.
theorem countP_put_old {t : Table R} {o n : R} (p : R → Bool) (h : o ∈ t) (hk : key o = key n) :
    (t.put n).rows.countP p + (p o).toNat = t.rows.countP p + (p n).toNat := by
  simpa only [countP_eq_sum] using sum_put_old (fun r => (p r).toNat) h hk

theorem countP_put_new {t : Table R} {n : R} (p : R → Bool) (h : ∀ r ∈ t, key r ≠ key n) :
    (t.put n).rows.countP p = t.rows.countP p + (p n).toNat := by
  rw [rows_put_of_not_mem h, List.countP_cons]
  cases p n <;> rfl

end Put

end Table
end ReadCommitted
