import Mathlib

-- Rows which are grouped by their keys.
namespace Grouping

variable {R K V : Type} [DecidableEq K]

-- Updates the value of a key. A key which is not in the dictionary yet is added with the value `init`.
def upsert (k : K) (init : V) (f : V → V) : List (K × V) → List (K × V)
  | []      => [(k, f init)]
  | b :: bs => if b.1 = k then (k, f b.2) :: bs else b :: upsert k init f bs

-- The dictionary after the values of all rows have been accumulated.
def accumulate (key : R → K) (init : V) (f : R → V → V) (rows : List R) : List (K × V) :=
  rows.foldl (fun bs r => upsert (key r) init (f r) bs) []

-- The groups of a `GROUP BY` clause.
def groupBy (key : R → K) (rows : List R) : List (K × List R) :=
  (rows.map key).dedup.map fun k => (k, rows.filter (key · = k))

theorem filter_of_not_mem {key : R → K} {rows : List R} {k : K} (h : k ∉ rows.map key) :
    rows.filter (key · = k) = [] :=
  List.filter_eq_nil_iff.mpr fun _ hr hk => h <| of_decide_eq_true hk ▸ List.mem_map_of_mem hr

section Upsert

variable {k : K} {init : V} {f : V → V} {bs : List (K × V)}

theorem keys_upsert : (upsert k init f bs).map (·.1) =
    if k ∈ bs.map (·.1) then bs.map (·.1) else bs.map (·.1) ++ [k] := by
  induction bs
  case nil          => rfl
  case cons b bs hi =>
    rw [upsert]
    by_cases h : b.1 = k
    case pos => simp [h]
    case neg =>
      simp only [if_neg h, List.map_cons, hi, List.mem_cons, Ne.symm h, false_or]
      split <;> rfl

theorem nodup_upsert (h : (bs.map (·.1)).Nodup) : ((upsert k init f bs).map (·.1)).Nodup := by
  rw [keys_upsert]
  split
  case isTrue     => exact h
  case isFalse hk => exact List.nodup_append.mpr ⟨h, List.nodup_singleton k, by grind⟩

theorem mem_upsert {b : K × V} (h : (bs.map (·.1)).Nodup) :
    b ∈ upsert k init f bs ↔
      b.1 ≠ k ∧ b ∈ bs ∨
      b.1 = k ∧ ((∃ v, (k, v) ∈ bs ∧ b.2 = f v) ∨ k ∉ bs.map (·.1) ∧ b.2 = f init) := by
  obtain ⟨k', v'⟩ := b
  induction bs
  case nil          => simp [upsert]
  case cons c bs hi =>
    obtain ⟨c, v⟩ := c
    have ⟨hc, hn⟩ := List.nodup_cons.mp h
    have hi := hi hn
    rw [upsert]
    by_cases hk : c = k
    case pos =>
      subst hk
      grind
    case neg =>
      grind

end Upsert

section Accumulate

variable {key : R → K} {init : V} {f : R → V → V} {rows : List R}

theorem accumulate_append (r : R) :
    accumulate key init f (rows ++ [r]) = upsert (key r) init (f r) (accumulate key init f rows) := by
  simp [accumulate]

theorem accumulate_nodup (key : R → K) (init : V) (f : R → V → V) (rows : List R) :
    ((accumulate key init f rows).map (·.1)).Nodup := by
  induction rows using List.reverseRecOn
  case nil                    => exact List.nodup_nil
  case append_singleton _ _ h => rw [accumulate_append]; exact nodup_upsert h

-- There is one entry for each key, which accumulates the rows with that key.
theorem mem_accumulate {k : K} {v : V} :
    (k, v) ∈ accumulate key init f rows ↔
      k ∈ rows.map key ∧ v = (rows.filter (key · = k)).foldl (fun v r => f r v) init := by
  induction rows using List.reverseRecOn generalizing k v
  case nil                        => simp [accumulate]
  case append_singleton rows r hi =>
    have hd : key r ∉ (accumulate key init f rows).map (·.1) ↔ key r ∉ rows.map key := by
      refine not_congr ⟨fun h => ?_, fun h => ?_⟩
      · obtain ⟨b, hb, hk⟩ := List.mem_map.mp h
        exact hk ▸ (hi.mp hb).left
      · exact List.mem_map.mpr ⟨(key r, _), hi.mpr ⟨h, rfl⟩, rfl⟩
    rw [accumulate_append, mem_upsert <| accumulate_nodup ..]
    by_cases hk : k = key r
    case neg => simp [hi, hk, Ne.symm hk]
    case pos =>
      subst hk
      simp only [hd, hi]
      by_cases hm : key r ∈ rows.map key
      case pos => simp [hm]
      case neg =>
        have hf := filter_of_not_mem hm
        simp [hm, hf]

end Accumulate

section GroupBy

variable {key : R → K} {rows : List R}

theorem groupBy_nodup (key : R → K) (rows : List R) : ((groupBy key rows).map (·.1)).Nodup := by
  rw [groupBy, List.map_map]
  exact (List.map_id _).symm ▸ List.nodup_dedup _

theorem mem_groupBy {k : K} {g : List R} :
    (k, g) ∈ groupBy key rows ↔ k ∈ rows.map key ∧ g = rows.filter (key · = k) := by
  simp only [groupBy, List.mem_map, List.mem_dedup, Prod.mk.injEq]
  constructor
  case mp  => rintro ⟨_, h, rfl, rfl⟩; exact ⟨h, rfl⟩
  case mpr => rintro ⟨h, rfl⟩; exact ⟨k, h, rfl, rfl⟩

-- What is aggregated over the group of a key, which is missing in the result if it is empty.
theorem lookup_groupBy (key : R → K) (rows : List R) (aggregate : List R → V) (k : K) :
    (((groupBy key rows).map fun g => (g.1, aggregate g.2)).lookup k).getD (aggregate []) =
      aggregate (rows.filter (key · = k)) := by
  cases h : ((groupBy key rows).map fun g => (g.1, aggregate g.2)).lookup k
  case some v =>
    have ⟨l₁, l₂, hl, _⟩ := List.lookup_eq_some_iff.mp h
    have hm : (k, v) ∈ (groupBy key rows).map fun g => (g.1, aggregate g.2) := by simp [hl]
    obtain ⟨⟨k', g⟩, hg, he⟩ := List.mem_map.mp hm
    cases he
    rw [(mem_groupBy.mp hg).right, Option.getD_some]
  case none =>
    have hk : k ∉ rows.map key := by
      intro hk
      have hg := mem_groupBy.mpr ⟨hk, rfl⟩
      exact bne_iff_ne.mp (List.lookup_eq_none_iff.mp h _ <| List.mem_map_of_mem hg) rfl
    rw [filter_of_not_mem hk, Option.getD_none]

end GroupBy

section Owners

variable {rows : List R} {ks : List K}

theorem sum_ite_count (k : K) (ks : List K) :
    (ks.map fun k' => if k = k' then 1 else 0).sum = ks.count k := by
  induction ks
  case nil           => rfl
  case cons k' ks hi =>
    rw [List.map_cons, List.sum_cons, hi, List.count_cons, Nat.add_comm]
    by_cases h : k = k'
    case pos => simp [h]
    case neg => simp [h, Ne.symm h]

-- The rows with an owner are cut into those of each owner.
theorem sum_countP_owners (owner : R → Option K) (p : R → Bool) (hn : ks.Nodup)
    (h : ∀ r ∈ rows, ∀ k, owner r = some k → k ∈ ks) :
    (ks.map fun k => (rows.filter (owner · = some k)).countP p).sum =
      rows.countP fun r => p r && (owner r).isSome := by
  induction rows
  case nil          => simp
  case cons r rs hi =>
    have hi := hi fun r hr => h r <| List.mem_cons_of_mem _ hr
    have hr := h r List.mem_cons_self
    have hs : ∀ k, ((r :: rs).filter (owner · = some k)).countP p =
        (if owner r = some k ∧ p r then 1 else 0) + (rs.filter (owner · = some k)).countP p := by
      intro k
      by_cases ho : owner r = some k <;> by_cases hp : p r <;> simp [ho, hp, Nat.add_comm]
    simp only [hs, List.sum_map_add, hi, List.countP_cons]
    rw [Nat.add_comm]
    congr 1
    cases hp : p r
    case false => simp
    case true  =>
      cases ho : owner r
      case none   => simp
      case some k => simpa using (sum_ite_count k ks).trans <| List.count_eq_one_of_mem hn <| hr k ho

end Owners

section Sorted

variable {K : Type} [LinearOrder K] {bs : List (K × V)}

-- The items of a dictionary, sorted by their keys.
def sortedItems (bs : List (K × V)) : List (K × V) :=
  bs.mergeSort (·.1 ≤ ·.1)

theorem mem_sortedItems {b : K × V} : b ∈ sortedItems bs ↔ b ∈ bs :=
  (List.mergeSort_perm bs _).mem_iff

theorem sortedItems_lt (h : (bs.map (·.1)).Nodup) : ((sortedItems bs).map (·.1)).Pairwise (· < ·) := by
  let le : K × V → K × V → Bool := fun a b => a.1 ≤ b.1
  have htrans : ∀ a b c, le a b → le b c → le a c := fun a b c h₁ h₂ =>
    decide_eq_true <| (of_decide_eq_true h₁).trans (of_decide_eq_true h₂)
  have htotal : ∀ a b, le a b || le b a := by simpa [le] using fun a _ b _ => le_total a b
  have hs : (sortedItems bs).Pairwise fun a b => a.1 ≤ b.1 :=
    (List.pairwise_mergeSort htrans htotal bs).imp of_decide_eq_true
  have hn : ((sortedItems bs).map (·.1)).Nodup := ((List.mergeSort_perm bs _).map _).nodup_iff.mpr h
  rw [List.pairwise_map]
  rw [List.Nodup, List.pairwise_map] at hn
  exact hs.imp₂ (fun _ _ hl hne => lt_of_le_of_ne hl hne) hn

-- What is sorted by distinct keys is determined by its members.
theorem eq_of_sorted {as bs : List (K × V)} (ha : (as.map (·.1)).Pairwise (· < ·))
    (hb : (bs.map (·.1)).Pairwise (· < ·)) (h : ∀ b, b ∈ as ↔ b ∈ bs) : as = bs := by
  have hn : ∀ {cs : List (K × V)}, (cs.map (·.1)).Pairwise (· < ·) → cs.Nodup := by
    intro cs hc
    refine (List.pairwise_map.mp hc).imp ?_
    rintro a b hl rfl
    exact lt_irrefl _ hl
  have hp := (List.perm_ext_iff_of_nodup (hn ha) (hn hb)).mpr h
  rw [List.pairwise_map] at ha hb
  exact hp.eq_of_pairwise (fun _ _ _ _ h₁ h₂ => absurd h₁ <| lt_asymm h₂) ha hb

end Sorted
end Grouping
