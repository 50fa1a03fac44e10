import SaasBackend.ApiKeys.Limit

open Calendar ReadCommitted ReadCommitted.Service

namespace SaasBackend

open Service

-- A key of the user is replaced by an issued one.
structure Replaces (user keyId : Uuid) (revokedAt : Instant) (k : IssuedKey) (d d' : Database) : Prop where
  old     : ∃ old ∈ d.apiKeys, old.id = keyId ∧ old.userId = user ∧ old.revokedAt = none ∧
              ∀ r, r ∈ d'.apiKeys ↔ r = k.apiKey ∨ r = { old with revokedAt := some revokedAt } ∨
                r ∈ d.apiKeys ∧ r ≠ old
  new     : k.apiKey ∉ d.apiKeys ∧ isActiveKeyOf user k.apiKey
  matched : k.apiKey.keyHash = computeHash k.plaintext ∧ k.apiKey.keyPrefix = splitPrefix k.plaintext
  count   : currentActive d' user = currentActive d user

section Replaces

variable {d d' : Database} {user keyId : Uuid} {revokedAt : Instant} {i : Issuing} {k : IssuedKey}

theorem mem_revoked {old : APIKey} (h : old ∈ d.apiKeys) (t : Instant) (r : APIKey) :
    r ∈ d.apiKeys.put { old with revokedAt := some t } ↔
      r = { old with revokedAt := some t } ∨ r ∈ d.apiKeys ∧ r ≠ old := by
  refine Table.mem_put.trans <| or_congr_right <| and_congr_right fun hr => not_congr ?_
  exact ⟨fun hk => Table.eq_of_key hr h hk, fun he => he ▸ rfl⟩

theorem replaces_of_run (h : (rotateApiKey user keyId revokedAt i).run d = (.ok k, d')) :
    Replaces user keyId revokedAt k d d' := by
  have ⟨old, hm, hi, hu, hr, hc⟩ := rotateApiKey_run_eq_ok h
  have ⟨_, hk, ha, hd⟩ := createApiKey_run_eq_ok hc
  have hn : ∀ r ∈ (d.apiKeys.put { old with revokedAt := some revokedAt }), Entity.key r ≠ Entity.key k.apiKey :=
    accepts_new ha
  constructor
  case old =>
    refine ⟨old, hm, hi, hu, hr, fun r => ?_⟩
    rw [hd]
    refine Table.mem_put.trans <| or_congr_right ?_
    exact (and_iff_left_of_imp <| hn r).trans <| mem_revoked hm revokedAt r
  case new =>
    refine ⟨fun hk' => ?_, hk ▸ isActiveKeyOf_newApiKey ..⟩
    by_cases he : k.apiKey = old
    case pos => exact hn _ (Table.mem_put_self ..) <| he ▸ rfl
    case neg => exact hn _ ((mem_revoked hm revokedAt _).mpr <| .inr ⟨hk', he⟩) rfl
  case matched  => exact hk ▸ ⟨rfl, rfl⟩
  case count    =>
    -- One key less after the revocation, and one more after the issue.
    have h₁ := currentActive_revoke hm revokedAt user
    have h₂ := currentActive_put_new ha user
    have ho : isActiveKeyOf user old = true := isActiveKeyOf_iff.mpr ⟨hu, hr⟩
    have hn : isActiveKeyOf user k.apiKey = true := hk ▸ isActiveKeyOf_newApiKey ..
    rw [ho] at h₁
    rw [hn] at h₂
    rw [hd]
    exact h₂.trans h₁

end Replaces

-- A rotation either replaces a key of the user, or does not change anything.
theorem rotateApiKey_replaces (d : Database) (user keyId : Uuid) (revokedAt : Instant) (i : Issuing) :
    match (rotateApiKey user keyId revokedAt i).run d with
    | (.ok k, d')    => Replaces user keyId revokedAt k d d'
    | (.error _, d') => d' = d := by
  split
  case h_1 h => exact replaces_of_run h
  case h_2 h => exact run_atomic_eq_error h

-- What is generated for a key is not in use yet.
structure Issuing.IsFresh (i : Issuing) (d : Database) : Prop where
  id   : ∀ k ∈ d.apiKeys, k.id ≠ i.id
  hash : ∀ k ∈ d.apiKeys, k.keyHash ≠ computeHash i.plaintext

section Rotation

variable {d : Database} {user : Uuid} {revokedAt : Instant} {i : Issuing} {old : APIKey}

theorem length_keyName_le (name : String) : (keyName name).length ≤ 120 := by
  unfold keyName
  dsimp only
  split
  case isTrue   => decide
  case isFalse  => exact Text.length_truncate_le ..

theorem length_splitPrefix_le (plaintext : String) : (splitPrefix plaintext).length ≤ 16 :=
  (Text.length_truncate_le plaintext prefixLenForDisplay).trans <| by decide

theorem APIKey.fits_iff {k : APIKey} :
    (Row.apiKey k).fits ↔ k.name.length ≤ 120 ∧ k.keyPrefix.length ≤ 16 :=
  decide_eq_true_iff

theorem newApiKey_fits (user : Uuid) (name : String) (i : Issuing) :
    (Row.apiKey <| newApiKey user name i).fits := by
  have hn := length_keyName_le name
  have hp := length_splitPrefix_le i.plaintext
  rw [newApiKey]
  generalize keyName name = n at hn ⊢
  generalize splitPrefix i.plaintext = p at hp ⊢
  exact APIKey.fits_iff.mpr ⟨hn, hp⟩

theorem create_newApiKey_run (hi : i.IsFresh d) (user : Uuid) (name : String) :
    (create <| .apiKey <| newApiKey user name i).run d =
      (.ok (), d.put <| .apiKey <| newApiKey user name i) := by
  refine run_create_of_fits (newApiKey_fits ..) (fun k hk h => hi.id k hk <| Key.apiKey.inj h) ?_
  intro k hk e he he'
  have he := (List.mem_singleton.mp he).symm.trans <| List.mem_singleton.mp he'
  exact hi.hash k hk (Key.keyHash.inj he).symm

theorem createApiKey_run (name : String) (hi : i.IsFresh d)
    (hl : currentActive d user < planMax (getActiveSubscription d user)) :
    (createApiKey user name i).run d =
      (.ok ⟨i.plaintext, newApiKey user name i⟩, d.put <| .apiKey <| newApiKey user name i) := by
  refine run_atomic_eq_ok.mpr <| run_bind_eq_ok.mpr ⟨_, d, run_select .., ?_⟩
  refine run_bind_eq_ok.mpr ⟨_, d, run_select .., ?_⟩
  rw [if_neg <| not_le.mpr hl]
  exact run_bind_eq_ok.mpr ⟨(), _, create_newApiKey_run hi user name, rfl⟩

theorem Issuing.IsFresh.revoke (hi : i.IsFresh d) (h : old ∈ d.apiKeys) (t : Instant) :
    i.IsFresh (d.put <| .apiKey { old with revokedAt := some t }) where
  id k hk   := by
    rcases (mem_revoked h t k).mp hk with hk | ⟨hk, _⟩
    · exact hk ▸ hi.id old h
    · exact hi.id k hk
  hash k hk := by
    rcases (mem_revoked h t k).mp hk with hk | ⟨hk, _⟩
    · exact hk ▸ hi.hash old h
    · exact hi.hash k hk

theorem findKey_of_mem (h : old ∈ d.apiKeys) : findKey d old.id old.userId = some old := by
  cases hf : findKey d old.id old.userId
  case none   => simpa using List.find?_eq_none.mp hf old h
  case some k =>
    have ⟨hk, hi, _⟩ := findKey_eq_some hf
    rw [Table.eq_of_key hk h <| congrArg Key.apiKey hi]

theorem rotateApiKey_run (h : old ∈ d.apiKeys) (ha : isActiveKeyOf user old) (hf : (Row.apiKey old).fits)
    (hi : i.IsFresh d) (hl : currentActive d user ≤ planMax (getActiveSubscription d user)) :
    ∃ k d', (rotateApiKey user old.id revokedAt i).run d = (.ok k, d') := by
  obtain ⟨hu, hr⟩ := isActiveKeyOf_iff.mp ha
  have hk : findKey d old.id user = some old := hu ▸ findKey_of_mem h
  have hs : (selectForUpdate .apiKey (findKey · old.id user)).run d = (.ok (some old), d) := by
    refine run_stmt_eq_ok.mpr ⟨?_, congrArg _ hk, ?_⟩ <;> dsimp only <;> rw [hk]
    · exact (Store.check_singleton ..).trans <| violation_replace hf (List.Subset.refl _) d
    · exact Database.put_of_mem <| Database.apiKey_mem_rows.mpr h
  have hv : (old.revoke revokedAt).run d = (.ok (), d.put <| .apiKey { old with revokedAt := some revokedAt }) :=
    run_save (Table.lookup_eq_some.mpr ⟨h, rfl⟩) hf (List.Subset.refl _)
  have hc := currentActive_revoke h revokedAt user
  rw [ha] at hc
  have hl : currentActive (d.put <| .apiKey { old with revokedAt := some revokedAt }) user <
      planMax (getActiveSubscription (d.put <| .apiKey { old with revokedAt := some revokedAt }) user) :=
    Nat.lt_of_succ_le <| hc.trans_le hl
  have hn : ¬(!old.isActive) = true := by simp [APIKey.isActive, hr]
  have hk := createApiKey_run old.name (hi.revoke h revokedAt) hl
  have hb : ∃ k d', ((do
      if !old.isActive then raise <| .conflict "Cannot rotate a revoked key." "already_revoked"
      else do
        old.revoke revokedAt
        createApiKey user old.name i) : Service IssuedKey).run d = (.ok k, d') := by
    rw [if_neg hn]
    exact ⟨_, _, run_bind_eq_ok.mpr ⟨(), _, hv, hk⟩⟩
  obtain ⟨k, d', hb⟩ := hb
  exact ⟨k, d', run_atomic_eq_ok.mpr <| run_bind_eq_ok.mpr ⟨some old, d, hs, hb⟩⟩

-- Rotation needs room for a key below the limit, besides those which are left.
theorem rotateApiKey_run_iff (h : old ∈ d.apiKeys) (ha : isActiveKeyOf user old) (hf : (Row.apiKey old).fits)
    (hi : i.IsFresh d) :
    (∃ k d', (rotateApiKey user old.id revokedAt i).run d = (.ok k, d')) ↔
      currentActive d user ≤ planMax (getActiveSubscription d user) := by
  refine ⟨fun ⟨k, d', hr⟩ => ?_, rotateApiKey_run h ha hf hi⟩
  have ⟨old', hm, he, _, _, hc⟩ := rotateApiKey_run_eq_ok hr
  have hl := (createApiKey_run_eq_ok hc).left
  have hk := currentActive_revoke hm revokedAt user
  rw [Table.eq_of_key hm h <| congrArg Key.apiKey he] at hl hk
  rw [ha] at hk
  exact hk ▸ Nat.succ_le_of_lt hl

end Rotation

namespace Keyring

-- Every key is within the lengths of its columns.
def KeysFit (d : Database) : Prop :=
  ∀ k ∈ d.apiKeys, (Row.apiKey k).fits

variable {d : Database} {σ : Keyring} {user : Uuid} {k : APIKey}

theorem KeysFit.put (h : KeysFit d) (hk : (Row.apiKey k).fits) : KeysFit (d.put <| .apiKey k) := by
  intro k' hm
  rcases Table.mem_put.mp hm with he | ⟨hm, _⟩
  · exact he ▸ hk
  · exact h k' hm

theorem KeysFit.revoke (h : KeysFit d) (hk : k ∈ d.apiKeys) (revokedAt : Instant) :
    KeysFit (d.put <| .apiKey { k with revokedAt := some revokedAt }) :=
  h.put <| APIKey.fits_iff.mpr <| APIKey.fits_iff.mp <| h k hk

theorem KeysFit.createApiKey (h : KeysFit d) (user : Uuid) (name : String) (i : Issuing) :
    KeysFit ((createApiKey user name i).run d).snd := by
  cases hr : (SaasBackend.createApiKey user name i).run d
  case mk r d' =>
    cases r
    case error  => exact run_atomic_eq_error hr ▸ h
    case ok     =>
      have ⟨_, hk, _, hd⟩ := createApiKey_run_eq_ok hr
      have hf := h.put <| newApiKey_fits user name i
      rw [hk] at hd
      exact hd ▸ hf

theorem KeysFit.of_bills {α : Type} {s : Service α} (h : KeysFit d)
    (hs : s.Maintains (Preserved (·.apiKeys))) : KeysFit (s.run d).snd := by
  have hd : (s.run d).snd.apiKeys = d.apiKeys := hs.related d
  rwa [KeysFit, hd]

theorem KeysFit.step (h : KeysFit σ.db) (c : KeyCall) : KeysFit (σ.step c).db := by
  have hi : ∀ user r, (σ.issue user r).db = r.snd := fun user r => by rcases r with ⟨_ | _, _⟩ <;> rfl
  cases c
  case createApiKey u n i       => exact (hi u _).symm ▸ h.createApiKey u n i
  case rotateApiKey u keyId t i =>
    refine (hi u _).symm ▸ ?_
    cases hr : (rotateApiKey u keyId t i).run σ.db
    case mk r d' =>
      cases r
      case error  => exact run_atomic_eq_error hr ▸ h
      case ok     =>
        obtain ⟨old, hm, _, _, _, hc⟩ := rotateApiKey_run_eq_ok hr
        have hf := (h.revoke hm t).createApiKey u old.name i
        rwa [hc] at hf
  case revokeApiKey u keyId t   =>
    cases hr : (revokeApiKey u keyId t).run σ.db
    case mk r d' =>
      simp only [Keyring.step, hr]
      cases r
      case error  => exact revokeApiKey_run_eq_error hr ▸ h
      case ok     =>
        obtain ⟨k, hm, _, _, _, hk, hd⟩ := revokeApiKey_run_eq_ok hr
        exact hd ▸ hk ▸ h.revoke hm t
  case subscribe                => exact h.of_bills <| subscribe_maintains apiKeys_of_bills ..
  case cancel                   => exact h.of_bills <| cancel_maintains apiKeys_of_bills ..
  case expireDueSubscriptions   => exact h.of_bills <| expireDueSubscriptions_maintains apiKeys_of_bills ..

theorem KeysFit.run (h : KeysFit σ.db) (cs : List KeyCall) : KeysFit (σ.run cs).db := by
  induction cs generalizing σ
  case nil      => exact h
  case cons hi  => exact hi <| h.step _

-- All live keys of a user can be replaced as long as their number is within the limit of the plan.
-- After a change to a smaller plan, none of them can.
theorem live_keys_rotate_iff (d : Database) (cs : List KeyCall) (user : Uuid) (revokedAt : Instant)
    (i : Issuing) (h : d.apiKeys.rows = []) (hi : i.IsFresh ((start d).run cs).db) :
    let σ := (start d).run cs
    (∀ k ∈ σ.db.apiKeys, isActiveKeyOf user k →
      ∃ r d', (rotateApiKey user k.id revokedAt i).run σ.db = (.ok r, d')) ↔
      currentActive σ.db user ≤ planMax (getActiveSubscription σ.db user) := by
  intro σ
  have hs : KeysFit (start d).db := by
    intro k hk
    have hk : k ∈ d.apiKeys.rows := hk
    simp [h] at hk
  have hf : KeysFit σ.db := hs.run cs
  constructor
  case mpr =>
    intro hl k hk ha
    exact rotateApiKey_run hk ha (hf k hk) hi hl
  case mp  =>
    intro hr
    by_contra hl
    have hp : 0 < currentActive σ.db user := Nat.zero_lt_of_lt <| not_le.mp hl
    obtain ⟨k, hk, ha⟩ := List.countP_pos_iff.mp hp
    exact hl <| (rotateApiKey_run_iff hk ha (hf k hk) hi).mp <| hr k hk ha

section Example

def exampleIssuing : Issuing :=
  ⟨"c", 3⟩

theorem two_keys_rotate :
    let σ := (start Seed.database).run exampleCalls
    (∀ k ∈ σ.db.apiKeys, isActiveKeyOf 1 k →
      ∃ r d', (rotateApiKey 1 k.id (.midnight 739001) exampleIssuing).run σ.db = (.ok r, d')) ↔
      currentActive σ.db 1 ≤ planMax (getActiveSubscription σ.db 1) :=
  live_keys_rotate_iff Seed.database exampleCalls 1 (.midnight 739001) exampleIssuing rfl
    ⟨by decide +kernel, by decide +kernel⟩

-- After the subscription is canceled, the two keys can not be replaced anymore.
theorem live_key_not_rotated :
    ¬∀ (d : Database) (cs : List KeyCall) (user : Uuid) (revokedAt : Instant) (i : Issuing),
      d.apiKeys.rows = [] →
      let σ := (start d).run cs
      i.IsFresh σ.db → ∀ k ∈ σ.db.apiKeys, isActiveKeyOf user k →
        ((rotateApiKey user k.id revokedAt i).run σ.db).fst.isOk := by
  intro h
  have h := h Seed.database (exampleCalls ++ [.cancel 1 (.midnight 739001) ⟨.midnight 739001, 2, 2⟩]) 1
    (.midnight 739001) exampleIssuing rfl ⟨by decide +kernel, by decide +kernel⟩
  revert h
  decide +kernel

end Example
end Keyring
end SaasBackend
