import SaasBackend.ApiKeys.Serial
import SaasBackend.Subscriptions.Seed
import SaasBackend.Subscriptions.Serial

open Calendar ReadCommitted ReadCommitted.Service

namespace SaasBackend

open Service

-- The calls by which keys are issued and end, and those which change the plan of a user.
inductive KeyCall
  | createApiKey (user : Uuid) (name : String) (i : Issuing)
  | revokeApiKey (user keyId : Uuid) (revokedAt : Instant)
  | rotateApiKey (user keyId : Uuid) (revokedAt : Instant) (i : Issuing)
  | subscribe (user : Uuid) (planSlug : String) (canceledAt : Instant) (o : Opening)
  | cancel (user : Uuid) (canceledAt : Instant) (o : Opening)
  | expireDueSubscriptions (now : Instant) (openings : Uuid → Opening)

-- The database, and for each user the limit of the plan which was active when a key was issued last.
structure Keyring where
  db    : Database
  limit : Uuid → Nat

namespace Keyring

def start (d : Database) : Keyring where
  db      := d
  limit _ := 0

def issue (σ : Keyring) (user : Uuid) : Except Exn IssuedKey × Database → Keyring
  | (.ok _, d)    => ⟨d, Function.update σ.limit user (planMax <| getActiveSubscription d user)⟩
  | (.error _, d) => ⟨d, σ.limit⟩

def step (σ : Keyring) : KeyCall → Keyring
  | .createApiKey u n i           => σ.issue u <| (createApiKey u n i).run σ.db
  | .rotateApiKey u k t i         => σ.issue u <| (rotateApiKey u k t i).run σ.db
  | .revokeApiKey u k t           => { σ with db := ((revokeApiKey u k t).run σ.db).snd }
  | .subscribe u p t o            => { σ with db := ((subscribe u p t o).run σ.db).snd }
  | .cancel u t o                 => { σ with db := ((cancel u t o).run σ.db).snd }
  | .expireDueSubscriptions n os  => { σ with db := ((expireDueSubscriptions n os).run σ.db).snd }

def run (σ : Keyring) (cs : List KeyCall) : Keyring :=
  cs.foldl step σ

-- No user has more keys than were allowed when a key was issued last.
def Limited (σ : Keyring) : Prop :=
  ∀ user, currentActive σ.db user ≤ σ.limit user

variable {σ : Keyring} {d : Database} {user : Uuid}

theorem Limited.of_le (h : σ.Limited) (hd : ∀ user, currentActive d user ≤ currentActive σ.db user) :
    Limited ⟨d, σ.limit⟩ :=
  fun user => (hd user).trans <| h user

-- Billing does not concern the keys.
theorem Limited.of_bills {α : Type} {s : Service α} (h : σ.Limited)
    (hs : s.Maintains (Preserved (·.apiKeys))) : Limited ⟨(s.run σ.db).snd, σ.limit⟩ := by
  apply h.of_le
  intro user
  have hd : (s.run σ.db).snd.apiKeys = σ.db.apiKeys := hs.related σ.db
  rw [currentActive, hd, currentActive]

theorem apiKeys_of_bills (d : Database) (w : Write) (h : Bills w) (_ : Accepts d w) :
    Preserved (·.apiKeys) d (d.put w.new) := by
  cases h <;> rfl

-- A key is issued from a state in which the other users' keys are within their limits.
theorem Limited.issue {d₀ : Database} {name : String} {i : Issuing} {r : Except Exn IssuedKey × Database}
    (h : σ.Limited) (hd : ∀ user, currentActive d₀ user ≤ currentActive σ.db user)
    (hr : ∀ k d, r = (.ok k, d) → (createApiKey user name i).run d₀ = (.ok k, d))
    (he : ∀ e d, r = (.error e, d) → d = σ.db) : (σ.issue user r).Limited := by
  obtain ⟨x, d⟩ := r
  cases x
  case error e  => exact h.of_le fun u => by rw [he e d rfl]
  case ok k     =>
    have ⟨hl, hk, ha, hd'⟩ := createApiKey_run_eq_ok <| hr k d rfl
    have hs : getActiveSubscription d user = getActiveSubscription d₀ user :=
      hd' ▸ getActiveSubscription_congr rfl rfl user
    intro u
    simp only [Keyring.issue]
    rw [hs, hd', currentActive_put_new ha u, hk]
    by_cases hu : u = user
    case pos =>
      rw [hu, Function.update_self, isActiveKeyOf_newApiKey]
      exact hl
    case neg =>
      have hn : isActiveKeyOf u (newApiKey user name i) = false :=
        Bool.eq_false_iff.mpr fun ha => hu (isActiveKeyOf_iff.mp ha).left.symm
      rw [Function.update_of_ne hu, hn]
      exact (hd u).trans <| h u

theorem Limited.step (h : σ.Limited) (c : KeyCall) : (σ.step c).Limited := by
  cases c
  case createApiKey =>
    exact h.issue (fun _ => le_refl _) (fun _ _ hr => hr) fun _ _ he => run_atomic_eq_error he
  case rotateApiKey u k t i =>
    cases hr : (rotateApiKey u k t i).run σ.db
    case mk r d =>
      cases r
      case error e => 
        simp only [Keyring.step, hr]
        exact h.of_le fun u => by rw [run_atomic_eq_error hr]
      case ok k =>
        have ⟨old, hm, _, _, _, hc⟩ := rotateApiKey_run_eq_ok hr
        simp only [Keyring.step, hr]
        refine h.issue (fun user => ?_) (fun _ _ he => he ▸ hc) (by simp)
        exact Nat.le.intro <| currentActive_revoke hm t user
  case revokeApiKey u k t =>
    apply h.of_le
    intro user
    cases hr : (revokeApiKey u k t).run σ.db
    case mk r d =>
      cases r
      case error => rw [revokeApiKey_run_eq_error hr]
      case ok    =>
        have ⟨k, hm, _, _, _, hk, hd⟩ := revokeApiKey_run_eq_ok hr
        rw [hd, hk]
        exact Nat.le.intro <| currentActive_revoke hm t user
  case subscribe              => exact h.of_bills <| subscribe_maintains apiKeys_of_bills ..
  case cancel                 => exact h.of_bills <| cancel_maintains apiKeys_of_bills ..
  case expireDueSubscriptions => exact h.of_bills <| expireDueSubscriptions_maintains apiKeys_of_bills ..

theorem Limited.run (h : σ.Limited) (cs : List KeyCall) : (σ.run cs).Limited := by
  induction cs generalizing σ
  case nil      => exact h
  case cons hi  => exact hi <| h.step _

-- Keys are limited at the time they are issued. The limit is not enforced on existing keys when the
-- plan changes.
theorem keys_limited_when_issued (d : Database) (cs : List KeyCall) (user : Uuid)
    (h : d.apiKeys.rows = []) :
    let σ := (start d).run cs
    currentActive σ.db user ≤ σ.limit user :=
  Limited.run (σ := start d) (fun user => by simp [start, currentActive, h]) cs user

section Example

-- A user who has subscribed to the pro plan creates two keys.
def exampleCalls : List KeyCall := [
  .subscribe 1 PlanSlug.pro (.midnight 739000) ⟨.midnight 739000, 1, 1⟩,
  .createApiKey 1 "first" ⟨"a", 1⟩,
  .createApiKey 1 "second" ⟨"b", 2⟩
]

theorem two_keys_limited :
    let σ := (start Seed.database).run exampleCalls
    currentActive σ.db 1 ≤ σ.limit 1 :=
  keys_limited_when_issued Seed.database exampleCalls 1 rfl

-- After the subscription is canceled, one key is allowed by the free plan.
theorem two_keys_remain :
    ¬∀ (d : Database) (cs : List KeyCall) (user : Uuid), d.apiKeys.rows = [] →
      let σ := (start d).run cs
      currentActive σ.db user ≤ planMax (getActiveSubscription σ.db user) := by
  intro h
  have h := h Seed.database (exampleCalls ++ [.cancel 1 (.midnight 739001) ⟨.midnight 739001, 2, 2⟩]) 1 rfl
  revert h
  decide +kernel

end Example
end Keyring
end SaasBackend
