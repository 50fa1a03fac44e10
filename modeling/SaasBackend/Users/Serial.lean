import SaasBackend.Subscriptions.Serial
import SaasBackend.Users.Services

open Calendar ReadCommitted ReadCommitted.Service

namespace SaasBackend

open Service

section Normalize

variable {p : Platform}

-- A list of characters is split at the last `@`.
theorem exists_split {cs : List Char} (h : '@' ∈ cs) :
    ∃ before, cs.reverse.dropWhile (· ≠ '@') = '@' :: before ∧
      cs = before.reverse ++ '@' :: (cs.reverse.takeWhile (· ≠ '@')).reverse := by
  have hd : ∃ before, cs.reverse.dropWhile (· ≠ '@') = '@' :: before := by
    cases hd : cs.reverse.dropWhile (· ≠ '@')
    case nil => simpa using List.dropWhile_eq_nil_iff.mp hd '@' <| List.mem_reverse.mpr h
    case cons c before =>
      have hn := List.head?_dropWhile_not (· ≠ '@') cs.reverse
      rw [hd] at hn
      have hc : c = '@' := by simpa using hn
      exact ⟨before, by rw [hc]⟩
  obtain ⟨before, hd⟩ := hd
  have hr : cs.reverse = cs.reverse.takeWhile (· ≠ '@') ++ '@' :: before := by
    rw [←hd]
    exact List.takeWhile_append_dropWhile.symm
  refine ⟨before, hd, ?_⟩
  have hc := congrArg List.reverse hr
  rwa [List.reverse_reverse, List.reverse_append, List.reverse_cons, List.append_assoc] at hc

-- The name is kept as it is, the domain is converted to lower case.
theorem normalizeEmail_split {email : String} (p : Platform) (h : '@' ∈ (Text.strip email).toList) :
    ∃ name domain, (Text.strip email).toList = name ++ '@' :: domain ∧
      (normalizeEmail p email).toList = name ++ '@' :: (Text.lower p <| .ofList domain).toList := by
  obtain ⟨before, hd, hc⟩ := exists_split h
  refine ⟨_, _, hc, ?_⟩
  unfold normalizeEmail
  dsimp only
  rw [if_pos h, hd, String.toList_append, String.toList_append, String.toList_ofList, List.append_assoc]
  rfl

-- An address which is in lower case already is normalized.
theorem normalizeEmail_of_isLower {email : String} (ht : Text.IsTrimmed email.toList)
    (hl : ∀ c ∈ email.toList, Text.isLower c) : normalizeEmail p email = email := by
  unfold normalizeEmail
  rw [Text.strip_of_isTrimmed ht]
  dsimp only
  split
  case isFalse => rfl
  case isTrue hm =>
    obtain ⟨before, hd, hc⟩ := exists_split hm
    let after := email.toList.reverse.takeWhile (· ≠ '@')
    have ha : ∀ c ∈ (String.ofList after.reverse).toList, Text.isLower c := by
      rw [String.toList_ofList]
      intro c h
      have hm : c ∈ email.toList := hc ▸ List.mem_append_right _ (List.mem_cons_of_mem _ h)
      exact hl c hm
    have he : email = .ofList before.reverse ++ "@" ++ .ofList after.reverse := by
      apply String.toList_inj.mp
      simp only [String.toList_append, String.toList_ofList, List.append_assoc]
      exact hc
    rw [hd, Text.lower_of_isLower ha]
    exact he.symm

theorem lower_normalizeEmail_lower {email : String} (ht : Text.IsTrimmed email.toList) :
    Text.lower p (normalizeEmail p <| Text.lower p email) = Text.lower p email := by
  have hl : ∀ c ∈ (Text.lower p email).toList, Text.isLower c := fun _ => Text.isLower_of_mem_lower
  rw [normalizeEmail_of_isLower (Text.isTrimmed_lower ht) hl, Text.lower_of_isLower hl]

end Normalize

-- Only subscriptions and their quotas differ.
def OnlyBills (d d' : Database) : Prop :=
  d' = { d with subscriptions := d'.subscriptions, quotas := d'.quotas }

instance : Std.Refl OnlyBills where
  refl _ := rfl

instance : IsTrans Database OnlyBills where
  trans d₁ d₂ d₃ h₁ h₂ := by
    unfold OnlyBills at h₁ h₂ ⊢
    rw [h₁] at h₂
    exact h₂

theorem OnlyBills.put (d : Database) (w : Write) (h : Bills w) (_ : Accepts d w) :
    OnlyBills d (d.put w.new) := by
  cases h <;> rfl

section Run

variable {p : Platform} {d d' : Database} {email password firstName lastName : String} {role : UserRole}
  {e : Enrollment} {u : User}

theorem UserManager.createUser_run_eq_ok {id : Uuid}
    (h : (createUser p email password firstName lastName role id).run d = (.ok u, d')) :
    u = newUser p email password firstName lastName role id ∧ (Row.user u).fits ∧
    Accepts d (⟨none, .user u⟩ : Write) ∧ d' = d.put (.user u) := by
  unfold createUser at h
  split at h
  case isTrue   => cases h
  case isFalse  =>
    have ⟨_, d₁, h₁, h⟩ := run_bind_eq_ok.mp h
    cases h
    have ⟨ha, hd⟩ := run_create_eq_ok h₁
    exact ⟨rfl, fits_of_run_create h₁, ha, hd⟩

-- Apart from the new user, only the first subscription and its quota are created.
theorem createUser_run_eq_ok
    (h : (createUser p email password firstName lastName role e).run d = (.ok u, d')) :
    u = UserManager.newUser p email password (Text.strip firstName) (Text.strip lastName) role e.id ∧
    (Row.user u).fits ∧ Accepts d (⟨none, .user u⟩ : Write) ∧ getUserByEmail p d email = none ∧
    OnlyBills (d.put <| .user u) d' := by
  have ⟨found, d₁, h₁, h⟩ := run_bind_eq_ok.mp <| run_atomic_eq_ok.mp h
  have ⟨hf, hd⟩ := run_select_eq_ok.mp h₁
  subst hd
  cases found
  case some => cases h
  case none =>
    have ⟨u', d₂, h₂, h⟩ := run_bind_eq_ok.mp h
    have ⟨s, d₃, h₃, h⟩ := run_bind_eq_ok.mp h
    cases h
    have ⟨hu, ht, ha, hd⟩ := UserManager.createUser_run_eq_ok h₂
    subst hd
    exact ⟨hu, ht, ha, hf, (enrollInFreePlan_maintains OnlyBills.put ..).of_run_eq h₃⟩

end Run
end SaasBackend
