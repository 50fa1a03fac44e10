import SaasBackend.ApiKeys.Replacement
import SaasBackend.Subscriptions.Seed

open Calendar ReadCommitted ReadCommitted.Service

namespace SaasBackend

open Service

-- The character at which a trimmed name is cut off, if it is too long, is not a space.
def KeepsName (name : String) : Prop :=
  ∀ c, (Text.strip name).toList[119]? = some c → ¬Text.isSpace c

section KeyName

variable {name : String}

theorem keyName_cases (name : String) :
    Text.truncate (Text.strip name) 120 = "" ∧ keyName name = "default" ∨
    Text.truncate (Text.strip name) 120 ≠ "" ∧ keyName name = Text.truncate (Text.strip name) 120 := by
  unfold keyName
  dsimp only
  split
  case isTrue h   => exact .inl ⟨h, rfl⟩
  case isFalse h  => exact .inr ⟨h, rfl⟩

theorem truncate_eq_empty {s : String} : Text.truncate s 120 = "" ↔ s = "" := by
  rw [←String.toList_eq_nil_iff, Text.truncate, String.toList_ofList, List.take_eq_nil_iff,
    String.toList_eq_nil_iff]
  exact or_iff_right <| by decide

theorem keyName_of_strip_eq_empty (h : Text.strip name = "") : keyName name = "default" := by
  rcases keyName_cases name with ⟨_, hk⟩ | ⟨hn, _⟩
  · exact hk
  · exact (hn <| truncate_eq_empty.mpr h).elim

theorem keyName_of_strip_ne_empty (h : Text.strip name ≠ "") :
    keyName name = Text.truncate (Text.strip name) 120 := by
  rcases keyName_cases name with ⟨hn, _⟩ | ⟨_, hk⟩
  · exact (h <| truncate_eq_empty.mp hn).elim
  · exact hk

theorem strip_default : Text.strip "default" = "default" := by
  have hs : "default".toList = ['d', 'e', 'f', 'a', 'u', 'l', 't'] := by simp
  refine Text.strip_eq_self ?_
  simp [hs, Text.isSpace]

theorem keyName_default : keyName "default" = "default" := by
  rw [keyName_of_strip_ne_empty (by rw [strip_default]; simp), strip_default]
  exact Text.truncate_of_length_le <| by decide

theorem keyName_ne_empty (name : String) : keyName name ≠ "" := by
  rcases keyName_cases name with ⟨_, hk⟩ | ⟨hn, hk⟩
  · rw [hk]
    simp
  · rwa [hk]

-- A name is kept by the normalisation if and only if it is trimmed and short enough.
theorem keyName_eq_self_iff (hl : name.length ≤ 120) (hn : name ≠ "") :
    keyName name = name ↔ Text.strip name = name := by
  constructor
  case mpr =>
    intro hs
    have hn : Text.strip name ≠ "" := hs.symm ▸ hn
    rw [keyName_of_strip_ne_empty hn, hs]
    exact Text.truncate_of_length_le hl
  case mp =>
    intro hk
    by_cases hs : Text.strip name = ""
    case pos =>
      have hd : name = "default" := hk.symm.trans <| keyName_of_strip_eq_empty hs
      rw [hd, strip_default]
    case neg =>
      rw [keyName_of_strip_ne_empty hs] at hk
      rwa [Text.truncate_of_length_le <| (Text.length_strip_le name).trans hl] at hk

theorem keyName_keyName_iff : keyName (keyName name) = keyName name ↔ KeepsName name := by
  by_cases hs : Text.strip name = ""
  case pos =>
    rw [keyName_of_strip_eq_empty hs, KeepsName, hs]
    exact iff_of_true keyName_default <| by simp
  case neg =>
    have hk := keyName_of_strip_ne_empty hs
    rw [keyName_eq_self_iff (length_keyName_le name) <| keyName_ne_empty name, ←Text.isTrimmed_iff, hk, Text.truncate,
      String.toList_ofList]
    exact (Text.isTrimmed_strip name).take_iff 119

-- What has been normalised already is too short to be cut off.
theorem keepsName_of_length_le (h : name.length ≤ 120) : KeepsName name := by
  intro c hc
  have hl := (Text.length_strip_le name).trans h
  refine (Text.isTrimmed_strip name).last c ?_
  have hlt : 119 < (Text.strip name).toList.length := (List.getElem?_eq_some_iff.mp hc).choose
  rw [String.length_toList] at hlt
  rw [List.getLast?_eq_getElem?, String.length_toList, ←hc]
  congr 1
  omega

end KeyName

-- A key that the user has got becomes another one in the course of `n` rotations. In between, there may
-- be other calls, which do not rename it.
inductive Rotations (user : Uuid) (d : Database) (k : APIKey) : Nat → Database → APIKey → Prop
  | refl : Rotations user d k 0 d k
  | other {n : Nat} {d₁ d₂ : Database} {k₁ : APIKey} (h : Rotations user d k n d₁ k₁)
      (hn : ∀ r ∈ d₂.apiKeys, r.id = k₁.id → r.name = k₁.name) : Rotations user d k n d₂ k₁
  | rotate {n : Nat} {d₁ d₂ : Database} {k₁ : APIKey} {k₂ : IssuedKey} {t : Instant} {i : Issuing}
      (h : Rotations user d k n d₁ k₁) (hr : (rotateApiKey user k₁.id t i).run d₁ = (.ok k₂, d₂)) :
      Rotations user d k (n + 1) d₂ k₂.apiKey

section Rotations

variable {user : Uuid} {d d₁ d₂ d' : Database} {k k₁ k' : APIKey} {k₂ : IssuedKey} {n : Nat} {name : String}
  {t : Instant} {i : Issuing}

theorem newApiKey_name (user : Uuid) (name : String) (i : Issuing) : (newApiKey user name i).name = keyName name := by
  unfold newApiKey
  dsimp only

theorem createApiKey_run_name (h : (createApiKey user name i).run d = (.ok k₂, d₂)) :
    k₂.apiKey.name = keyName name ∧ ∀ r ∈ d₂.apiKeys, r.id = k₂.apiKey.id → r.name = k₂.apiKey.name := by
  obtain ⟨_, hk, _, hd⟩ := createApiKey_run_eq_ok h
  refine ⟨?_, fun r hr hi => ?_⟩
  · rw [hk]
    exact newApiKey_name ..
  · rw [hd] at hr
    rw [Table.eq_of_key hr (Table.mem_put_self ..) <| congrArg Key.apiKey hi]

-- The new key is given the name of the old one, which is normalised again.
theorem rotateApiKey_run_name (hn : ∀ r ∈ d₁.apiKeys, r.id = k₁.id → r.name = k₁.name)
    (h : (rotateApiKey user k₁.id t i).run d₁ = (.ok k₂, d₂)) :
    k₂.apiKey.name = keyName k₁.name ∧ ∀ r ∈ d₂.apiKeys, r.id = k₂.apiKey.id → r.name = k₂.apiKey.name := by
  obtain ⟨old, hm, hi, _, _, hc⟩ := rotateApiKey_run_eq_ok h
  rw [←hn old hm hi]
  exact createApiKey_run_name hc

theorem Rotations.name_eq (h : Rotations user d k n d' k') (hn : ∀ r ∈ d.apiKeys, r.id = k.id → r.name = k.name) :
    k'.name = keyName^[n] k.name ∧ ∀ r ∈ d'.apiKeys, r.id = k'.id → r.name = k'.name := by
  induction h
  case refl             => exact ⟨rfl, hn⟩
  case other hn' hi     => exact ⟨hi.left, hn'⟩
  case rotate n _ _ _ _ _ _ _ hr hi =>
    obtain ⟨hk, hn'⟩ := rotateApiKey_run_name hi.right hr
    refine ⟨?_, hn'⟩
    rw [hk, hi.left, Function.iterate_succ_apply']

theorem iterate_keyName_keyName (n : Nat) :
    keyName^[n + 1] (keyName name) = keyName (keyName name) := by
  induction n
  case zero     => simp only [Function.iterate_succ_apply', Function.iterate_zero, id_eq]
  case succ hi  =>
    rw [Function.iterate_succ_apply', hi]
    exact keyName_keyName_iff.mpr <| keepsName_of_length_le <| length_keyName_le name

-- The first rotation may change the name of a key, and no further one does.
theorem name_kept_iff {d₀ : Database} {issued : IssuedKey}
    (hc : (createApiKey user name i).run d₀ = (.ok issued, d))
    (h : Rotations user d issued.apiKey n d' k') :
    (k'.name = issued.apiKey.name ↔ n = 0 ∨ KeepsName name) ∧
    (keyName (keyName name) = keyName name ↔ KeepsName name) := by
  refine ⟨?_, keyName_keyName_iff⟩
  obtain ⟨hk, hn⟩ := createApiKey_run_name hc
  rw [(h.name_eq hn).left, hk]
  cases n
  case zero   => simp
  case succ n => rw [iterate_keyName_keyName, keyName_keyName_iff]; simp

end Rotations

section Example

theorem createApiKey_enrolled (name : String) :
    (createApiKey 1 name ⟨"a", 1⟩).run Seed.enrolled =
      (.ok ⟨Issuing.plaintext ⟨"a", 1⟩, newApiKey 1 name ⟨"a", 1⟩⟩,
        Seed.enrolled.put <| .apiKey <| newApiKey 1 name ⟨"a", 1⟩) := by
  have hi : Issuing.IsFresh ⟨"a", 1⟩ Seed.enrolled := ⟨by decide +kernel, by decide +kernel⟩
  exact createApiKey_run name hi <| by decide +kernel

-- The key is rotated on the next day.
theorem rotateApiKey_enrolled (name : String) :
    ∃ k d, (rotateApiKey 1 (newApiKey 1 name ⟨"a", 1⟩).id (.midnight 739001) ⟨"b", 2⟩).run
      (Seed.enrolled.put <| .apiKey <| newApiKey 1 name ⟨"a", 1⟩) = (.ok k, d) := by
  have he : Seed.enrolled.apiKeys = .empty := Table.ext <| by decide +kernel
  have hk : ∀ k ∈ (Seed.enrolled.put <| .apiKey <| newApiKey 1 name ⟨"a", 1⟩).apiKeys,
      k = newApiKey 1 name ⟨"a", 1⟩ := by
    intro k hk
    refine (Table.mem_put.mp hk).resolve_right fun hk => ?_
    exact Table.not_mem_empty k <| he ▸ hk.left
  have hi : Issuing.IsFresh ⟨"b", 2⟩ (Seed.enrolled.put <| .apiKey <| newApiKey 1 name ⟨"a", 1⟩) := by
    constructor
    case id   =>
      intro k hm
      rw [hk k hm]
      exact Nat.ne_of_lt <| Nat.lt_succ_self 1
    case hash =>
      intro k hm
      rw [hk k hm]
      have hn : computeHash (Issuing.plaintext ⟨"a", 1⟩) ≠ computeHash (Issuing.plaintext ⟨"b", 2⟩) := by
        decide +kernel
      exact hn
  have hl : currentActive (Seed.enrolled.put <| .apiKey <| newApiKey 1 name ⟨"a", 1⟩) 1 ≤
      planMax (getActiveSubscription (Seed.enrolled.put <| .apiKey <| newApiKey 1 name ⟨"a", 1⟩) 1) := by
    have hs : planMax (getActiveSubscription Seed.enrolled 1) = 1 := by decide +kernel
    have hn : ∀ k ∈ Seed.enrolled.apiKeys, Entity.key k ≠ Entity.key (newApiKey 1 name ⟨"a", 1⟩) :=
      fun k hk => (Table.not_mem_empty k <| he ▸ hk).elim
    have hc : Seed.enrolled.apiKeys.rows.countP (isActiveKeyOf 1) = 0 := by rw [he]; rfl
    have hd : getActiveSubscription (Seed.enrolled.put <| .apiKey <| newApiKey 1 name ⟨"a", 1⟩) 1 =
        getActiveSubscription Seed.enrolled 1 := getActiveSubscription_congr rfl rfl 1
    rw [hd, hs]
    refine (Table.countP_put_new (isActiveKeyOf 1) hn).trans_le ?_
    rw [hc, isActiveKeyOf_newApiKey]
    rfl
  exact (rotateApiKey_run_iff (Table.mem_put_self ..) (isActiveKeyOf_newApiKey ..) (newApiKey_fits ..) hi).mpr hl

-- A short name is kept by a rotation.
theorem short_name_kept :
    ∃ d issued d' k', (createApiKey 1 "first" ⟨"a", 1⟩).run Seed.enrolled = (.ok issued, d) ∧
      Rotations 1 d issued.apiKey 1 d' k' ∧
      (k'.name = issued.apiKey.name ↔ 1 = 0 ∨ KeepsName "first") := by
  obtain ⟨k, d, hr⟩ := rotateApiKey_enrolled "first"
  have hn := Rotations.rotate .refl hr
  exact ⟨_, _, _, _, createApiKey_enrolled "first", hn, (name_kept_iff (createApiKey_enrolled "first") hn).left⟩

-- A name of `n + 4` characters whose last but one is a space.
def spacedName (n : Nat) : String :=
  .ofList <| .replicate (n + 1) 'a' ++ [' ', 'b']

theorem strip_spacedName (n : Nat) : Text.strip (spacedName n) = spacedName n := by
  refine Text.strip_of_isTrimmed ?_
  rw [spacedName, String.toList_ofList]
  constructor
  case head => simp [List.replicate_succ, Text.isSpace]
  case last => simp [Text.isSpace]

theorem not_keepsName_spacedName : ¬KeepsName (spacedName 118) := by
  intro h
  refine h ' ' ?_ <| by simp [Text.isSpace]
  rw [strip_spacedName, spacedName, String.toList_ofList, List.getElem?_append_right (by simp)]
  simp

-- The space at which the name is cut off is lost when the key is rotated.
theorem spaced_name_changes :
    ∃ d issued d' k', (createApiKey 1 (spacedName 118) ⟨"a", 1⟩).run Seed.enrolled = (.ok issued, d) ∧
      Rotations 1 d issued.apiKey 1 d' k' ∧ k'.name ≠ issued.apiKey.name := by
  obtain ⟨k, d, hr⟩ := rotateApiKey_enrolled (spacedName 118)
  refine ⟨_, _, _, _, createApiKey_enrolled _, .rotate .refl hr, ?_⟩
  have hn := (createApiKey_run_name <| createApiKey_enrolled <| spacedName 118).right
  have hk := (rotateApiKey_run_name hn hr).left
  intro he
  have hk := (hk.symm.trans he).trans <| newApiKey_name ..
  rw [newApiKey_name] at hk
  exact not_keepsName_spacedName <| keyName_keyName_iff.mp hk

end Example
end SaasBackend
