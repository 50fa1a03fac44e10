import SaasBackend.ApiKeys.Serial
import SaasBackend.ApiKeys.Views
import SaasBackend.ReadCommitted.Runs
import SaasBackend.Subscriptions.Seed

open Calendar ReadCommitted ReadCommitted.Service

namespace SaasBackend

open Service

-- What a party knows which holds no credentials apart from plaintexts of keys, and the keys which
-- their owner has issued while being authenticated by a JWT.
structure Leak where
  db        : Database
  known     : List String
  ownerKeys : List Uuid

namespace Leak

inductive Event
  | party (request : HttpRequest) (now : Instant) (endpoint : KeyEndpoint)
  | session (request : HttpRequest) (now : Instant) (endpoint : KeyEndpoint)

def start (d : Database) (owner : Uuid) (p : String) : Leak where
  db        := d
  known     := [p]
  ownerKeys := (d.apiKeys.rows.filter (·.userId = owner)).map (·.id)

def presentedKey (request : HttpRequest) : Option String :=
  (APIKeyAuthentication.extractKey request).toOption.join

def isSession (jwt : JWTAuthentication) (d : Database) (request : HttpRequest) (now : Instant) : Bool :=
  (jwt.authenticate request now d).toOption.join.isSome

-- The party has no JWT, and does not guess keys of which it does not know the plaintext.
def canSend (jwt : JWTAuthentication) (σ : Leak) (request : HttpRequest) (now : Instant) : Bool :=
  !isSession jwt σ.db request now && (presentedKey request).all fun p =>
    p ∈ σ.known || σ.db.apiKeys.rows.all (·.keyHash ≠ computeHash p)

def plaintexts : KeyResponse → List String
  | .issued r => [r.data.key]
  | _         => []

def issuedKeys : KeyResponse → List Uuid
  | .issued r => [r.data.apiKey.id]
  | _         => []

-- A request that cannot be sent does not occur.
def step (jwt : JWTAuthentication) (owner : Uuid) (σ : Leak) : Event → Leak
  | .party request now e    =>
    if canSend jwt σ request now then
      match (e.dispatch jwt request now).run σ.db with
      | (.ok (_, r), d)   => { σ with db := d, known := plaintexts r ++ σ.known }
      | (.error _, d)     => { σ with db := d }
    else σ
  | .session request now e  =>
    if isSession jwt σ.db request now then
      match (e.dispatch jwt request now).run σ.db with
      | (.ok (user, r), d)  =>
        { σ with db := d, ownerKeys := (if user = owner then issuedKeys r else []) ++ σ.ownerKeys }
      | (.error _, d)       => { σ with db := d }
    else σ

def run (jwt : JWTAuthentication) (owner : Uuid) (σ : Leak) (es : List Event) : Leak :=
  es.foldl (step jwt owner) σ

-- The database after the owner has revoked the given keys.
def revokeAll (owner : Uuid) (revokedAt : Uuid → Instant) (d : Database) (keys : List Uuid) : Database :=
  keys.foldl (fun d k => ((APIKeyRevokeView.post owner k (revokedAt k)).run d).snd) d

def IsAccepted (d : Database) (p : String) : Prop :=
  ∃ request now user key, APIKeyAuthentication.extractKey request = .ok (some p) ∧
    ((APIKeyAuthentication.authenticate request now).run d).fst = .ok (some (user, key))

-- No key would be issued to the user by the endpoint.
def Refuses (d : Database) (user : Uuid) : KeyEndpoint → Prop
  | .create name _    =>
    (APIKeyCreateSerializer.validate name).toOption = none ∨
    planMax (getActiveSubscription d user) ≤ currentActive d user
  | .rotate keyId _ _ =>
    (∀ k ∈ d.apiKeys, k.id = keyId → k.userId = user → k.revokedAt ≠ none) ∨
    planMax (getActiveSubscription d user) < currentActive d user
  | _                 => True

-- The party is refused a key whenever the key that it presents is accepted.
def Contains (jwt : JWTAuthentication) (σ : Leak) : Event → Prop
  | .party request now e  =>
    canSend jwt σ request now → ∀ p ∈ presentedKey request,
      ∀ c ∈ APIKeyAuthentication.candidates σ.db (splitPrefix p),
        c.1.keyHash = computeHash p → c.2.isActive → Refuses σ.db c.2.id e
  | .session ..           => True

instance instDecidableRefuses (d : Database) (user : Uuid) :
    (e : KeyEndpoint) → Decidable (Refuses d user e)
  | .create ..          => inferInstanceAs <| Decidable (_ ∨ _)
  | .rotate ..          => inferInstanceAs <| Decidable (_ ∨ _)
  | .list | .revoke ..  => isTrue trivial

instance instDecidableContains (jwt : JWTAuthentication) (σ : Leak) :
    (e : Event) → Decidable (Contains jwt σ e)
  | .party ..   => inferInstanceAs <| Decidable (_ → ∀ p ∈ presentedKey _, _)
  | .session .. => isTrue trivial

-- The key of the owner of which the plaintext has leaked.
structure IsLeaked (d : Database) (owner id : Uuid) (p : String) : Prop where
  stored : ∃ k ∈ d.apiKeys, k.id = id ∧ k.userId = owner ∧ k.keyHash = computeHash p ∧
             (Row.apiKey k).fits
  unique : ∀ k ∈ d.apiKeys, k.keyHash = computeHash p → k.id = id

def IsRevoked (d : Database) (owner id : Uuid) (p : String) : Prop :=
  IsLeaked d owner id p ∧ ∀ k ∈ d.apiKeys, k.id = id → k.revokedAt ≠ none

variable {d : Database} {owner id : Uuid} {p : String} {w : Write}

theorem IsLeaked.put (h : IsLeaked d owner id p) (hw : WritesKey w) (ha : Accepts d w) :
    IsLeaked (d.put w.new) owner id p := by
  have ⟨k₀, hk₀, hi, hu, hh, hf⟩ := h.stored
  cases hw
  case issues k hr =>
    have hn := accepts_new ha
    constructor
    case stored => exact ⟨k₀, Table.mem_put_of_ne hk₀ <| hn k₀ hk₀, hi, hu, hh, hf⟩
    case unique =>
      intro k' hk' he
      cases Table.mem_put.mp hk'
      case inr hk'  => exact h.unique k' hk'.left he
      case inl hk'  =>
        have hm : Key.keyHash k₀.keyHash ∈ Entity.entries k :=
          List.mem_singleton.mpr <| congrArg Key.keyHash <| hh.trans <| he.symm.trans <| congrArg _ hk'
        exact (accepts_fresh ha k₀ hk₀ _ hm <| List.mem_singleton.mpr rfl).elim
  case changes k k' hk hr =>
    have ⟨hm, hkey⟩ := accepts_old ha
    have hi' : k'.id = k.id := by rw [hk]
    have hu' : k'.userId = k.userId := by rw [hk]
    have hh' : k'.keyHash = k.keyHash := by rw [hk]
    have hf' : (Row.apiKey k').fits = (Row.apiKey k).fits := by rw [hk]; rfl
    constructor
    case unique =>
      intro k₁ hk₁ he
      cases Table.mem_put.mp hk₁
      case inl hk₁ => rw [hk₁, hi']; exact h.unique k hm <| hh'.symm.trans <| hk₁ ▸ he
      case inr hk₁ => exact h.unique k₁ hk₁.left he
    case stored =>
      by_cases he : Entity.key k₀ = Entity.key k'
      case neg => exact ⟨k₀, Table.mem_put_of_ne hk₀ he, hi, hu, hh, hf⟩
      case pos =>
        have hk₀ : k₀ = k := Table.eq_of_key hk₀ hm <| he.trans hkey.symm
        subst hk₀
        exact ⟨k', Table.mem_put_self .., hi'.trans hi, hu'.trans hu, hh'.trans hh, hf'.trans hf⟩

theorem IsRevoked.put (h : IsRevoked d owner id p) (hw : WritesKey w) (ha : Accepts d w) :
    IsRevoked (d.put w.new) owner id p := by
  refine ⟨h.left.put hw ha, ?_⟩
  have ⟨k₀, hk₀, hi, _⟩ := h.left.stored
  cases hw
  case issues k hr =>
    intro k' hk' hi'
    cases Table.mem_put.mp hk'
    case inr hk' => exact h.right k' hk'.left hi'
    case inl hk' =>
      subst hk'
      exact (accepts_new ha k₀ hk₀ <| congrArg Key.apiKey <| hi.trans hi'.symm).elim
  case changes k k' hk hr =>
    have ⟨hm, hkey⟩ := accepts_old ha
    intro k₁ hk₁ hi'
    cases Table.mem_put.mp hk₁
    case inr hk₁ => exact h.right k₁ hk₁.left hi'
    case inl hk₁ =>
      subst hk₁
      have hr := hr <| Option.isSome_iff_ne_none.mpr <| h.right k hm <|
        (Key.apiKey.inj hkey).trans hi'
      exact Option.isSome_iff_ne_none.mp hr

-- A key can be revoked by its owner at any time.
theorem IsLeaked.revoke (h : IsLeaked d owner id p) (revokedAt : Instant) :
    IsRevoked ((revokeApiKey owner id revokedAt).run d).snd owner id p := by
  have hm : IsLeaked ((revokeApiKey owner id revokedAt).run d).snd owner id p :=
    (revokeApiKey_maintains (I := Kept (IsLeaked · owner id p)) (fun _ _ _ hw ha h => h.put hw ha)
      owner id revokedAt).related d h
  refine ⟨hm, ?_⟩
  cases hr : (revokeApiKey owner id revokedAt).run d
  case mk r d' =>
    cases r
    case ok key =>
      have ⟨k, _, hi, _, _, hk, hd⟩ := revokeApiKey_run_eq_ok hr
      subst hd hk
      intro k' hk' hi'
      cases Table.mem_put.mp hk'
      case inl hk' => simp [hk']
      case inr hk' => exact (hk'.right <| congrArg Key.apiKey <| hi'.trans hi.symm).elim
    case error e =>
      have hd := revokeApiKey_run_eq_error hr
      subst hd
      intro k hk hi hn
      have ⟨k₀, hk₀, hi₀, hu, _, hf⟩ := h.stored
      have hk₀ : k₀ = k := Table.eq_of_key hk₀ hk <| congrArg Key.apiKey <| hi₀.trans hi.symm
      subst hk₀
      have hf' : findKey d' id owner = some k₀ := by
        cases hf' : findKey d' id owner
        case none    => simpa [hi, hu] using List.find?_eq_none.mp hf' k₀ hk
        case some k' =>
          have ⟨hk', hi', _⟩ := findKey_eq_some hf'
          rw [Table.eq_of_key hk' hk <| congrArg Key.apiKey <| hi'.trans hi.symm]
      cases hr.symm.trans <| revokeApiKey_run hf' hn hf

theorem revokeKey_maintains {I : Database → Database → Prop} [Std.Refl I] [IsTrans Database I]
    (h : ∀ d w, WritesKey w → Accepts d w → I d (d.put w.new)) (keyId : Uuid) (revokedAt : Instant) :
    (APIKeyRevokeView.post owner keyId revokedAt).Maintains I :=
  Maintains.bind (revokeApiKey_maintains (fun d _ _ => h d _) ..) fun _ => Maintains.pure _

theorem revokeKey_run_snd (keyId : Uuid) (revokedAt : Instant) (d : Database) :
    ((APIKeyRevokeView.post owner keyId revokedAt).run d).snd =
      ((revokeApiKey owner keyId revokedAt).run d).snd := by
  rw [APIKeyRevokeView.post, run_bind]
  split
  case h_1 hr => rw [hr]; rfl
  case h_2 hr => rw [hr]

theorem IsLeaked.revokeAll {keys : List Uuid} (h : IsLeaked d owner id p) (hi : id ∈ keys)
    (revokedAt : Uuid → Instant) : IsRevoked (Leak.revokeAll owner revokedAt d keys) owner id p := by
  have hk : ∀ (ks : List Uuid) d, IsRevoked d owner id p →
      IsRevoked (Leak.revokeAll owner revokedAt d ks) owner id p := by
    intro ks
    induction ks
    case nil          => exact fun _ h => h
    case cons k ks hi =>
      intro d h
      exact hi _ <| (revokeKey_maintains (I := Kept (IsRevoked · owner id p))
        (fun _ _ hw ha h => h.put hw ha) k (revokedAt k)).related d h
  induction keys generalizing d
  case nil              => cases hi
  case cons k keys hi'  =>
    cases hi
    case head =>
      apply hk keys
      dsimp only
      rw [revokeKey_run_snd]
      exact h.revoke _
    case tail hi =>
      refine hi' ?_ hi
      exact (revokeKey_maintains (I := Kept (IsLeaked · owner id p))
        (fun _ _ hw ha h => h.put hw ha) k (revokedAt k)).related d h

-- The use of a key changes neither the limit nor the keys which count towards it.
theorem Refuses.markUsed {k : APIKey} {user : Uuid} {e : KeyEndpoint} (h : Refuses d user e)
    (hk : k ∈ d.apiKeys) (now : Instant) :
    Refuses (d.put <| .apiKey { k with lastUsedAt := some now }) user e := by
  have hi : { k with lastUsedAt := some now }.id = k.id := rfl
  have hc := currentActive_put_old hk hi user
  have ha : isActiveKeyOf user { k with lastUsedAt := some now } = isActiveKeyOf user k := rfl
  have hs : getActiveSubscription (d.put <| .apiKey { k with lastUsedAt := some now }) user =
      getActiveSubscription d user := getActiveSubscription_congr rfl rfl user
  rw [ha, Nat.add_right_cancel_iff] at hc
  cases e
  case list | revoke => trivial
  case create        => simpa only [Refuses, hs, hc] using h
  case rotate keyId _ _ =>
    simp only [Refuses, hs, hc] at h ⊢
    apply h.imp_left
    intro hn k' hk' hi'
    cases Table.mem_put.mp hk'
    case inl he => subst he; exact hn k hk hi'
    case inr hk' => exact hn k' hk'.left hi'

theorem Refuses.plaintexts {d' : Database} {user : Uuid} {e : KeyEndpoint} {r : KeyResponse}
    (h : Refuses d user e) (hr : (e.view user).run d = (.ok r, d')) : plaintexts r = [] := by
  cases e
  case list =>
    have ⟨_, _, _, hr⟩ := run_bind_eq_ok.mp hr
    cases hr
    rfl
  case revoke =>
    have ⟨_, _, _, hr⟩ := run_bind_eq_ok.mp hr
    cases hr
    rfl
  case create name i =>
    have ⟨_, d₁, h₁, _⟩ := run_bind_eq_ok.mp hr
    have ⟨name', d₂, h₂, h₁⟩ := run_bind_eq_ok.mp h₁
    have ⟨issued, d₃, hc, _⟩ := run_bind_eq_ok.mp h₁
    have ⟨hn, hd⟩ := run_ofExcept_eq_ok.mp h₂
    subst hd
    have ⟨hl, _⟩ := createApiKey_run_eq_ok hc
    cases h
    case inl h => rw [hn] at h; cases h
    case inr h => exact absurd hl <| not_lt.mpr h
  case rotate keyId t i =>
    have ⟨_, d₁, h₁, _⟩ := run_bind_eq_ok.mp hr
    have ⟨issued, d₃, hc, _⟩ := run_bind_eq_ok.mp h₁
    have ⟨old, hk, hi, hu, hn, hc⟩ := rotateApiKey_run_eq_ok hc
    have ⟨hl, _⟩ := createApiKey_run_eq_ok hc
    have hs : getActiveSubscription (d.put <| .apiKey { old with revokedAt := some t }) user =
        getActiveSubscription d user := getActiveSubscription_congr rfl rfl user
    have hr := currentActive_revoke hk t user
    rw [isActiveKeyOf_iff.mpr ⟨hu, hn⟩] at hr
    rw [hs] at hl
    cases h
    case inl h => exact (h old hk hi hu hn).elim
    case inr h => simp only [Bool.toNat_true] at hr; omega

-- What the party is told does not include a key, if none is issued to it.
theorem plaintexts_eq_nil {jwt : JWTAuthentication} {σ : Leak} {request : HttpRequest} {now : Instant}
    {e : KeyEndpoint} {user : Uuid} {r : KeyResponse} {d' : Database}
    (hc : Contains jwt σ <| .party request now e) (hs : canSend jwt σ request now)
    (hr : (e.dispatch jwt request now).run σ.db = (.ok (user, r), d')) : plaintexts r = [] := by
  have ⟨u, d₁, ha, hr⟩ := run_bind_eq_ok.mp hr
  have ⟨r', d₂, hv, hr⟩ := run_bind_eq_ok.mp hr
  cases hr
  cases isAuthenticated_run_eq_ok ha
  case inl ha =>
    -- The party has no JWT.
    have hn : isSession jwt σ.db request now := by rw [isSession, ha.left]; rfl
    rw [canSend, hn] at hs
    cases hs
  case inr ha =>
    have ⟨_, k, hk⟩ := ha
    have ⟨p, he, hm, hh, hu⟩ := APIKeyAuthentication.authenticate_run_eq_ok hk
    have hp : p ∈ presentedKey request := by simp [presentedKey, he, Except.toOption]
    have hw : Refuses σ.db u.id e := hc hs p hp (k, u) hm hh hu
    have hd := APIKeyAuthentication.authenticate_run_snd request now σ.db
    rw [hk] at hd
    dsimp only at hd
    cases hd
    case inl hd => exact Refuses.plaintexts (hd ▸ hw) hv
    case inr hd =>
      have ⟨k', hk', hd⟩ := hd
      exact Refuses.plaintexts (hd ▸ hw.markUsed hk' now) hv

-- Neither header yields access to a revoked key.
theorem IsRevoked.not_isAccepted (h : IsRevoked d owner id p) : ¬IsAccepted d p := by
  intro ⟨request, now, user, key, he, hr⟩
  have ⟨p', he', hc, hh, _⟩ :=
    APIKeyAuthentication.authenticate_run_eq_ok <| run_eq_ok <| congrArg Except.toOption hr
  have hp : p = p' := Option.some.inj <| Except.ok.inj <| he.symm.trans he'
  subst hp
  have ⟨hk, _, hn, _⟩ := APIKeyAuthentication.mem_candidates.mp hc
  exact h.right key hk (h.left.unique key hk hh) hn

structure IsContained (owner id : Uuid) (p : String) (σ : Leak) : Prop where
  leaked : IsLeaked σ.db owner id p
  known  : σ.known = [p]
  listed : id ∈ σ.ownerKeys

theorem IsContained.step {jwt : JWTAuthentication} {σ : Leak} {e : Event}
    (h : IsContained owner id p σ) (hc : Contains jwt σ e) :
    IsContained owner id p (σ.step jwt owner e) := by
  have hm : ∀ request now (endpoint : KeyEndpoint),
      IsLeaked ((endpoint.dispatch jwt request now).run σ.db).snd owner id p :=
    fun request now endpoint =>
      (endpoint.dispatch_maintains (I := Kept (IsLeaked · owner id p))
        (fun _ _ hw ha h => h.put hw ha) jwt request now).related σ.db h.leaked
  cases e
  case session request now endpoint =>
    have hm := hm request now endpoint
    simp only [Leak.step]
    split
    case isFalse => exact h
    case isTrue  =>
      split
      case h_1 hr => rw [hr] at hm; exact ⟨hm, h.known, List.mem_append_right _ h.listed⟩
      case h_2 hr => rw [hr] at hm; exact ⟨hm, h.known, h.listed⟩
  case party request now endpoint =>
    have hm := hm request now endpoint
    simp only [Leak.step]
    split
    case isFalse    => exact h
    case isTrue hs  =>
      split
      case h_2 hr => rw [hr] at hm; exact ⟨hm, h.known, h.listed⟩
      case h_1 hr =>
        rw [hr] at hm
        refine ⟨hm, ?_, h.listed⟩
        rw [plaintexts_eq_nil hc hs hr]
        exact h.known

-- A leaked key ends with the keys of its owner, if no keys are issued to the party that knows it. The
-- endpoints accept it though, so that it can be exchanged for keys which the owner does not know.
theorem leaked_key_ends (jwt : JWTAuthentication) (d : Database) (owner id : Uuid) (p : String)
    (es : List Event) (revokedAt : Uuid → Instant) (h : IsLeaked d owner id p)
    (hc : Throughout (step jwt owner) (Contains jwt) (start d owner p) es) :
    let σ := (start d owner p).run jwt owner es
    ∀ p' ∈ σ.known, ¬IsAccepted (revokeAll owner revokedAt σ.db σ.ownerKeys) p' := by
  intro σ p' hp
  have hs : IsContained owner id p (start d owner p) := by
    have ⟨k, hk, hi, hu, _⟩ := h.stored
    have hm : k ∈ d.apiKeys.rows.filter (·.userId = owner) := List.mem_filter.mpr ⟨hk, by simp [hu]⟩
    exact ⟨h, rfl, List.mem_map.mpr ⟨k, hm, hi⟩⟩
  have hσ : IsContained owner id p σ := hc.induction hs fun _ _ hc h => h.step hc
  rw [hσ.known] at hp
  rw [List.mem_singleton.mp hp]
  exact (hσ.leaked.revokeAll hσ.listed revokedAt).not_isAccepted

section Example

def exampleJWTAuthentication : JWTAuthentication where
  authenticate request _ d :=
    match request.header "HTTP_AUTHORIZATION" with
    | some "Bearer owner" => .ok <| d.users.lookup <| .user 1
    | _                   => .ok none

def exampleRequest (name value : String) : HttpRequest where
  method               := some "POST"
  path                 := "/api/v1/api-keys/"
  headers              := [(name, value)]
  user                 := none
  auth                 := none
  subscription         := none
  subscriptionPlanSlug := none
  durationMs           := none

-- The key of a user of the free plan, which allows one key.
def exampleKeys : Database :=
  { Seed.enrolled with
    users   := .put .empty Seed.user
    apiKeys := .put .empty <| newApiKey 1 "deploy" ⟨"token", 1⟩ }

theorem exampleKeys_isLeaked : IsLeaked exampleKeys 1 1 "sk_live_token" where
  stored := ⟨newApiKey 1 "deploy" ⟨"token", 1⟩, by decide, rfl, rfl, by decide, by decide⟩
  unique := by decide

def partyRequest :=
  exampleRequest "HTTP_X_API_KEY" "sk_live_token"

-- The party tries to create another key, which is refused since the limit is reached.
theorem leaked_key_ends_with_revocation :
    let es := [.session (exampleRequest "HTTP_AUTHORIZATION" "Bearer owner") (.midnight 739000) .list,
      .party partyRequest (.midnight 739000) <| .create "other" ⟨"other", 2⟩]
    let σ := (start exampleKeys 1 "sk_live_token").run exampleJWTAuthentication 1 es
    ∀ p ∈ σ.known, ¬IsAccepted (revokeAll 1 (fun _ => .midnight 739001) σ.db σ.ownerKeys) p :=
  leaked_key_ends exampleJWTAuthentication exampleKeys 1 1 "sk_live_token" _ _ exampleKeys_isLeaked <| by
    decide +kernel

-- The party rotates the key by itself.
theorem leaked_key_is_exchanged :
    ¬∀ (jwt : JWTAuthentication) (d : Database) (owner id : Uuid) (p : String) (es : List Event)
      (revokedAt : Uuid → Instant), IsLeaked d owner id p →
      let σ := (start d owner p).run jwt owner es
      ∀ p' ∈ σ.known, ¬IsAccepted (revokeAll owner revokedAt σ.db σ.ownerKeys) p' := by
  intro h
  have h := h exampleJWTAuthentication exampleKeys 1 1 "sk_live_token"
    [.party partyRequest (.midnight 739000) <| .rotate 1 (.midnight 739000) ⟨"other", 2⟩]
    (fun _ => .midnight 739001) exampleKeys_isLeaked "sk_live_other" (by decide +kernel)
  refine h ⟨exampleRequest "HTTP_X_API_KEY" "sk_live_other", .midnight 739002, Seed.user,
    newApiKey 1 "deploy" ⟨"other", 2⟩, ?_, ?_⟩
  · rfl
  · rfl

end Example
end Leak
end SaasBackend
