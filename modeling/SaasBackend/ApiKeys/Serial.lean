import SaasBackend.ApiKeys.Views
import SaasBackend.Statements

open Calendar ReadCommitted ReadCommitted.Service

namespace SaasBackend

open Service

-- The writes of the services of this app. Only the use and the revocation of a key are ever added to
-- its row, and a revocation is not taken back.
inductive WritesKey : Write → Prop
  | issues (k : APIKey) (hr : k.revokedAt = none) : WritesKey ⟨none, .apiKey k⟩
  | changes {k k' : APIKey}
      (hk : k' = { k with lastUsedAt := k'.lastUsedAt, revokedAt := k'.revokedAt })
      (hr : k.revokedAt.isSome → k'.revokedAt.isSome) : WritesKey ⟨some <| .apiKey k, .apiKey k'⟩

section Maintains

variable {I : Database → Database → Prop} [Std.Refl I] [IsTrans Database I]

omit [IsTrans Database I] in
theorem APIKey.revoke_maintains (h : ∀ d k k', WritesKey ⟨some <| .apiKey k, .apiKey k'⟩ →
      Accepts d ⟨some <| .apiKey k, .apiKey k'⟩ → I d (d.put <| .apiKey k'))
    (key : APIKey) (revokedAt : Instant) : (key.revoke revokedAt).Maintains I :=
  Maintains.save (fun _ => rfl) fun d _ => h d _ _ <| .changes rfl fun _ => rfl

theorem issueKey_maintains {user : Uuid} (h : ∀ d k, k.userId = user → WritesKey ⟨none, .apiKey k⟩ →
      Accepts d ⟨none, .apiKey k⟩ → I d (d.put <| .apiKey k))
    (name : String) (i : Issuing) (planMax : Nat) : (issueKey user name i planMax).Maintains I := by
  apply Maintains.bind (Maintains.select _)
  intro current
  split
  case isTrue   => exact Maintains.raise _
  case isFalse  =>
    exact Maintains.bind (Maintains.create fun d => h d _ rfl <| .issues _ rfl) fun _ => Maintains.pure _

theorem createApiKey_maintains {user : Uuid} (h : ∀ d k, k.userId = user → WritesKey ⟨none, .apiKey k⟩ →
      Accepts d ⟨none, .apiKey k⟩ → I d (d.put <| .apiKey k))
    (name : String) (i : Issuing) : (createApiKey user name i).Maintains I :=
  Maintains.atomic <| Maintains.bind (Maintains.select _) fun _ => issueKey_maintains h ..

theorem revokeApiKey_maintains (h : ∀ d k k', WritesKey ⟨some <| .apiKey k, .apiKey k'⟩ →
      Accepts d ⟨some <| .apiKey k, .apiKey k'⟩ → I d (d.put <| .apiKey k'))
    (user keyId : Uuid) (revokedAt : Instant) : (revokeApiKey user keyId revokedAt).Maintains I := by
  apply Maintains.bind (Maintains.select _)
  intro key
  cases key
  case none   => exact Maintains.raise _
  case some k =>
    simp only
    split
    case isTrue   => exact Maintains.raise _
    case isFalse  =>
      exact Maintains.bind (APIKey.revoke_maintains h ..) fun _ => Maintains.pure _

theorem findKey_eq_some {d : Database} {id user : Uuid} {k : APIKey} (h : findKey d id user = some k) :
    k ∈ d.apiKeys ∧ k.id = id ∧ k.userId = user :=
  ⟨List.mem_of_find?_eq_some h, by simpa using List.find?_some h⟩

theorem rotateApiKey_maintains {user : Uuid} (hn : ∀ d k, k.userId = user →
      WritesKey ⟨none, .apiKey k⟩ → Accepts d ⟨none, .apiKey k⟩ → I d (d.put <| .apiKey k))
    (h : ∀ d k k', WritesKey ⟨some <| .apiKey k, .apiKey k'⟩ →
      Accepts d ⟨some <| .apiKey k, .apiKey k'⟩ → I d (d.put <| .apiKey k'))
    (keyId : Uuid) (revokedAt : Instant) (i : Issuing) :
    (rotateApiKey user keyId revokedAt i).Maintains I := by
  apply Maintains.atomic
  apply Maintains.bind
  case h =>
    apply Maintains.selectForUpdate (fun _ _ h => (findKey_eq_some h).left)
    exact fun d _ => h d _ _ <| .changes rfl id
  intro key
  cases key
  case none   => exact Maintains.raise _
  case some k =>
    simp only
    split
    case isTrue   => exact Maintains.raise _
    case isFalse  =>
      exact Maintains.bind (APIKey.revoke_maintains h ..) fun _ => createApiKey_maintains hn ..

namespace APIKeyAuthentication

theorem compareCandidates_maintains (h : ∀ d k k', WritesKey ⟨some <| .apiKey k, .apiKey k'⟩ →
      Accepts d ⟨some <| .apiKey k, .apiKey k'⟩ → I d (d.put <| .apiKey k'))
    (hash : Sha256) (now : Instant) (cs : List (APIKey × User)) :
    (compareCandidates hash now cs).Maintains I := by
  induction cs
  case nil          => exact Maintains.raise _
  case cons c cs hi =>
    unfold compareCandidates
    split
    case isFalse  => exact hi
    case isTrue   =>
      split
      case isTrue   => exact Maintains.raise _
      case isFalse  =>
        refine Maintains.bind (Maintains.handle ?_ fun _ => Maintains.pure _) fun _ => Maintains.pure _
        exact Maintains.update (fun _ => rfl) fun d _ => h d _ _ <| .changes rfl id

theorem authenticate_maintains (h : ∀ d k k', WritesKey ⟨some <| .apiKey k, .apiKey k'⟩ →
      Accepts d ⟨some <| .apiKey k, .apiKey k'⟩ → I d (d.put <| .apiKey k'))
    (request : HttpRequest) (now : Instant) : (authenticate request now).Maintains I := by
  apply Maintains.bind (Maintains.ofExcept _)
  intro plaintext
  cases plaintext
  case none   => exact Maintains.pure _
  case some p =>
    simp only
    split
    case isTrue   => exact Maintains.pure _
    case isFalse  =>
      apply Maintains.bind (Maintains.select _)
      intro cs
      exact Maintains.bind (compareCandidates_maintains h ..) fun _ => Maintains.pure _

end APIKeyAuthentication

theorem isAuthenticated_maintains (h : ∀ d k k', WritesKey ⟨some <| .apiKey k, .apiKey k'⟩ →
      Accepts d ⟨some <| .apiKey k, .apiKey k'⟩ → I d (d.put <| .apiKey k'))
    (jwt : JWTAuthentication) (request : HttpRequest) (now : Instant) :
    (isAuthenticated jwt request now).Maintains I := by
  apply Maintains.bind
  case h =>
    apply Maintains.bind (Maintains.select _)
    intro result
    apply Maintains.bind (Maintains.ofExcept _)
    intro user
    cases user
    case some => exact Maintains.pure _
    case none =>
      apply Maintains.bind (APIKeyAuthentication.authenticate_maintains h ..)
      intro found
      cases found <;> exact Maintains.pure _
  case hf =>
    intro found
    cases found
    case none => exact Maintains.raise _
    case some => exact Maintains.pure _

namespace KeyEndpoint

theorem view_maintains (h : ∀ d w, WritesKey w → Accepts d w → I d (d.put w.new)) (user : Uuid)
    (e : KeyEndpoint) : (e.view user).Maintains I := by
  cases e <;> refine Maintains.bind (Maintains.bind ?_ fun _ => ?_) fun _ => Maintains.pure _
  case list.refine_1    => exact Maintains.select _
  case create.refine_1  => exact Maintains.ofExcept _
  case revoke.refine_1  => exact revokeApiKey_maintains (fun d _ _ => h d _) ..
  case rotate.refine_1  => exact rotateApiKey_maintains (fun d _ _ => h d _) (fun d _ _ => h d _) ..
  case create.refine_2  => exact Maintains.bind (createApiKey_maintains (fun d _ _ => h d _) ..) fun _ => Maintains.pure _
  all_goals exact Maintains.pure _

theorem dispatch_maintains (h : ∀ d w, WritesKey w → Accepts d w → I d (d.put w.new))
    (jwt : JWTAuthentication) (request : HttpRequest) (now : Instant) (e : KeyEndpoint) :
    (e.dispatch jwt request now).Maintains I :=
  Maintains.bind (isAuthenticated_maintains (fun d _ _ => h d _) ..) fun _ =>
    Maintains.bind (view_maintains h ..) fun _ => Maintains.pure _

end KeyEndpoint
end Maintains

section Count

variable {d : Database} {k k' : APIKey}

theorem currentActive_put_new (h : Accepts d ⟨none, .apiKey k⟩) (user : Uuid) :
    currentActive (d.put <| .apiKey k) user = currentActive d user + (isActiveKeyOf user k).toNat :=
  Table.countP_put_new _ (accepts_new h)

theorem currentActive_put_old (hk : k ∈ d.apiKeys) (hi : k'.id = k.id) (user : Uuid) :
    currentActive (d.put <| .apiKey k') user + (isActiveKeyOf user k).toNat =
      currentActive d user + (isActiveKeyOf user k').toNat :=
  Table.countP_put_old _ hk <| congrArg Key.apiKey hi.symm

theorem isActiveKeyOf_iff {user : Uuid} : isActiveKeyOf user k ↔ k.userId = user ∧ k.revokedAt = none :=
  decide_eq_true_iff

theorem isActiveKeyOf_newApiKey (user : Uuid) (name : String) (i : Issuing) :
    isActiveKeyOf user (newApiKey user name i) :=
  isActiveKeyOf_iff.mpr ⟨rfl, rfl⟩

theorem currentActive_revoke (hk : k ∈ d.apiKeys) (revokedAt : Instant) (user : Uuid) :
    currentActive (d.put <| .apiKey { k with revokedAt := some revokedAt }) user +
      (isActiveKeyOf user k).toNat = currentActive d user := by
  have hi : { k with revokedAt := some revokedAt }.id = k.id := rfl
  have h := currentActive_put_old hk hi user
  simpa [isActiveKeyOf] using h

end Count

section Run

variable {d d' : Database} {user keyId : Uuid} {name : String} {i : Issuing} {revokedAt : Instant}
  {k : IssuedKey} {e : Exn}

theorem issueKey_run_eq_ok {planMax : Nat} (h : (issueKey user name i planMax).run d = (.ok k, d')) :
    currentActive d user < planMax ∧ k = ⟨i.plaintext, newApiKey user name i⟩ ∧
    Accepts d ⟨none, .apiKey k.apiKey⟩ ∧ d' = d.put (.apiKey k.apiKey) := by
  have ⟨current, d₁, h₁, h⟩ := run_bind_eq_ok.mp h
  have ⟨hc, h₁⟩ := run_select_eq_ok.mp h₁
  subst h₁ hc
  split at h
  case isTrue     => cases h
  case isFalse hl =>
    have ⟨_, d₂, h₂, h⟩ := run_bind_eq_ok.mp h
    cases h
    exact ⟨not_le.mp hl, rfl, run_create_eq_ok h₂⟩

-- A key is only issued below the limit of the plan that is active at that time.
theorem createApiKey_run_eq_ok (h : (createApiKey user name i).run d = (.ok k, d')) :
    currentActive d user < planMax (getActiveSubscription d user) ∧
    k = ⟨i.plaintext, newApiKey user name i⟩ ∧ Accepts d ⟨none, .apiKey k.apiKey⟩ ∧
    d' = d.put (.apiKey k.apiKey) := by
  have ⟨sub, d₁, h₁, h⟩ := run_bind_eq_ok.mp <| run_atomic_eq_ok.mp h
  have ⟨hs, h₁⟩ := run_select_eq_ok.mp h₁
  subst h₁ hs
  exact issueKey_run_eq_ok h

theorem APIKey.revoke_run_eq_ok {key : APIKey} (hk : key ∈ d.apiKeys)
    (h : (key.revoke revokedAt).run d = (.ok (), d')) :
    d' = d.put (.apiKey { key with revokedAt := some revokedAt }) := by
  have ⟨r, hr, hi, hd⟩ := run_save_eq_ok h
  rw [hd, Table.eq_of_key hr hk hi]

theorem revokeApiKey_run_eq_ok {key : APIKey}
    (h : (revokeApiKey user keyId revokedAt).run d = (.ok key, d')) :
    ∃ k ∈ d.apiKeys, k.id = keyId ∧ k.userId = user ∧ k.revokedAt = none ∧
      key = { k with revokedAt := some revokedAt } ∧ d' = d.put (.apiKey key) := by
  have ⟨found, d₁, h₁, h⟩ := run_bind_eq_ok.mp h
  have ⟨hf, h₁⟩ := run_select_eq_ok.mp h₁
  subst h₁
  cases found
  case none   => cases h
  case some k =>
    have ⟨hk, hi, hu⟩ := findKey_eq_some hf
    simp only at h
    split at h
    case isTrue     => cases h
    case isFalse ha =>
      have ⟨_, d₂, h₂, h⟩ := run_bind_eq_ok.mp h
      cases h
      exact ⟨k, hk, hi, hu, by simpa [APIKey.isActive] using ha, rfl, APIKey.revoke_run_eq_ok hk h₂⟩

theorem revokeApiKey_run_eq_error (h : (revokeApiKey user keyId revokedAt).run d = (.error e, d')) :
    d' = d := by
  rw [revokeApiKey, run_bind, run_select] at h
  dsimp only at h
  split at h
  case h_1 => exact (congrArg Prod.snd h).symm
  case h_2 =>
    split at h
    case isTrue  => exact (congrArg Prod.snd h).symm
    case isFalse =>
      rw [run_bind] at h
      split at h
      case h_1    => cases h
      case h_2 hr => cases h; exact run_save_eq_error hr

theorem revokeApiKey_run {k : APIKey} (hk : findKey d keyId user = some k) (hn : k.revokedAt = none)
    (hf : (Row.apiKey k).fits) :
    (revokeApiKey user keyId revokedAt).run d =
      (.ok { k with revokedAt := some revokedAt },
       d.put <| .apiKey { k with revokedAt := some revokedAt }) := by
  have hl : d.apiKeys.lookup (.apiKey k.id) = some k :=
    Table.lookup_eq_some.mpr ⟨(findKey_eq_some hk).left, rfl⟩
  have hs : (k.revoke revokedAt).run d = _ := run_save hl hf (List.Subset.refl _)
  rw [revokeApiKey, run_bind, run_select]
  simp only [hk, APIKey.isActive, hn, decide_true, Bool.not_true, Bool.false_eq_true, if_false]
  rw [run_bind, hs]
  rfl

-- A key which is rotated is revoked before the limit is checked.
theorem rotateApiKey_run_eq_ok (h : (rotateApiKey user keyId revokedAt i).run d = (.ok k, d')) :
    ∃ old ∈ d.apiKeys, old.id = keyId ∧ old.userId = user ∧ old.revokedAt = none ∧
      (createApiKey user old.name i).run
        (d.put <| .apiKey { old with revokedAt := some revokedAt }) = (.ok k, d') := by
  have ⟨found, d₁, h₁, h⟩ := run_bind_eq_ok.mp <| run_atomic_eq_ok.mp h
  have hp : ∀ r, findKey d keyId user = some r → d.put (.apiKey r) = d := fun r hr =>
    congrArg (fun t => { d with apiKeys := t }) <| Table.put_of_mem (findKey_eq_some hr).left
  have ⟨hf, h₁⟩ := run_selectForUpdate_eq_ok hp h₁
  subst h₁
  cases found
  case none     => cases h
  case some old =>
    have ⟨hk, hi, hu⟩ := findKey_eq_some hf
    simp only at h
    split at h
    case isTrue     => cases h
    case isFalse ha =>
      have ⟨_, d₂, h₂, h⟩ := run_bind_eq_ok.mp h
      have hd := APIKey.revoke_run_eq_ok hk h₂
      exact ⟨old, hk, hi, hu, by simpa [APIKey.isActive] using ha, hd ▸ h⟩

namespace APIKeyAuthentication

variable {p pre : String} {hash : Sha256} {now : Instant} {request : HttpRequest}

theorem mem_candidates {k : APIKey} {u : User} :
    (k, u) ∈ candidates d pre ↔
      k ∈ d.apiKeys ∧ k.keyPrefix = pre ∧ k.revokedAt = none ∧ u ∈ d.users ∧ u.id = k.userId := by
  simp only [candidates, List.mem_filterMap, List.mem_filter, Option.map_eq_some_iff,
    Table.lookup_eq_some, decide_eq_true_eq, Prod.mk.injEq]
  constructor
  case mp =>
    rintro ⟨_, ⟨hk, hp, hr⟩, _, ⟨hu, hi⟩, rfl, rfl⟩
    exact ⟨hk, hp, hr, hu, Key.user.inj hi⟩
  case mpr =>
    rintro ⟨hk, hp, hr, hu, hi⟩
    exact ⟨k, ⟨hk, hp, hr⟩, u, ⟨hu, congrArg Key.user hi⟩, rfl, rfl⟩

-- The answer for the first candidate with the given hash.
def answerFor (now : Instant) (d : Database) :
    Option (APIKey × User) → Except Exn (User × APIKey) × Database
  | none        => (.error <| .unauthenticated "Invalid API key.", d)
  | some (k, u) =>
    if u.isActive then (.ok (u, k), ((k.markUsed now).run d).snd)
    else (.error <| .unauthenticated "User account is disabled.", d)

theorem compareCandidates_run (hash : Sha256) (now : Instant) (cs : List (APIKey × User)) (d : Database) :
    (compareCandidates hash now cs).run d = answerFor now d (cs.find? (·.1.keyHash = hash)) := by
  induction cs
  case nil          => rfl
  case cons c cs hi =>
    unfold compareCandidates
    rw [List.find?_cons]
    by_cases hc : c.1.keyHash = hash
    case neg => simp only [hc, decide_false, if_false, hi]
    case pos =>
      have hm : (handle (c.1.markUsed now) fun _ => return ()).run d =
          (.ok (), ((c.1.markUsed now).run d).snd) := by
        rw [run_handle]
        split
        case h_1 hr => rw [hr]
        case h_2 hr => rw [hr]; rfl
      simp only [hc, decide_true, if_true, answerFor]
      cases c.2.isActive
      case false  => rfl
      case true   => simp only [Bool.not_true, Bool.false_eq_true, if_false, if_true, run_bind, hm]; rfl

theorem authenticate_run (he : extractKey request = .ok (some p)) (hp : p ≠ "") :
    (authenticate request now).run d =
      (do let found ← compareCandidates (computeHash p) now (candidates d <| splitPrefix p)
          return some found).run d := by
  have ha : authenticate request now = (do
      let cs ← select (candidates · (splitPrefix p))
      let found ← compareCandidates (computeHash p) now cs
      return some found) := by
    rw [authenticate, he]
    exact (pure_bind ..).trans <| if_neg hp
  rw [ha, run_bind, run_select]

theorem answerFor_eq_ok {c : Option (APIKey × User)} {u : User} {k : APIKey}
    (h : (answerFor now d c).fst = .ok (u, k)) : c = some (k, u) ∧ u.isActive := by
  cases c
  case none   => cases h
  case some c =>
    rw [answerFor] at h
    split at h
    case isFalse    => cases h
    case isTrue ha  => cases h; exact ⟨rfl, ha⟩

-- A request is only accepted with a key that is not revoked.
theorem authenticate_run_eq_ok {u : User} {k : APIKey}
    (h : (authenticate request now).run d = (.ok (some (u, k)), d')) :
    ∃ p, extractKey request = .ok (some p) ∧ (k, u) ∈ candidates d (splitPrefix p) ∧
      k.keyHash = computeHash p ∧ u.isActive := by
  cases he : extractKey request
  case error => rw [authenticate, he] at h; cases h
  case ok p  =>
    cases p
    case none   => rw [authenticate, he] at h; cases h
    case some p =>
      by_cases hp : p = ""
      case pos => subst hp; rw [authenticate, he] at h; cases h
      case neg =>
        rw [authenticate_run he hp] at h
        have ⟨c, d₁, hc, h⟩ := run_bind_eq_ok.mp h
        cases h
        rw [compareCandidates_run] at hc
        have ⟨hf, ha⟩ := answerFor_eq_ok <| congrArg Prod.fst hc
        exact ⟨p, rfl, List.mem_of_find?_eq_some hf, by simpa using List.find?_some hf, ha⟩

-- At most a key is marked as used.
theorem authenticate_run_snd (request : HttpRequest) (now : Instant) (d : Database) :
    ((authenticate request now).run d).snd = d ∨
    ∃ k ∈ d.apiKeys, ((authenticate request now).run d).snd =
      d.put (.apiKey { k with lastUsedAt := some now }) := by
  cases he : extractKey request
  case error e => exact .inl <| by rw [authenticate, he]; rfl
  case ok p =>
    cases p
    case none   => exact .inl <| by rw [authenticate, he]; rfl
    case some p =>
      by_cases hp : p = ""
      case pos => exact .inl <| by subst hp; rw [authenticate, he]; rfl
      case neg =>
        rw [authenticate_run he hp, run_bind, compareCandidates_run]
        cases hf : (candidates d (splitPrefix p)).find? (·.1.keyHash = computeHash p)
        case none   => exact .inl rfl
        case some c =>
          obtain ⟨k, u⟩ := c
          have ⟨hk, _⟩ := mem_candidates.mp <| List.mem_of_find?_eq_some hf
          simp only [answerFor]
          cases u.isActive
          case false  => exact .inl rfl
          case true   =>
            cases run_update_snd Database.apiKeys .apiKey (.apiKey k.id)
              (fun k => { k with lastUsedAt := some now }) d
            case inl hd => exact .inl hd
            case inr hd =>
              have ⟨k', hk', _, hd⟩ := hd
              exact .inr ⟨k', hk', hd⟩

end APIKeyAuthentication

-- A user is authenticated either by a JWT or by a key.
theorem isAuthenticated_run_eq_ok {jwt : JWTAuthentication} {request : HttpRequest} {now : Instant}
    {u : User} (h : (isAuthenticated jwt request now).run d = (.ok u, d')) :
    jwt.authenticate request now d = .ok (some u) ∧ d' = d ∨
    jwt.authenticate request now d = .ok none ∧
      ∃ k, (APIKeyAuthentication.authenticate request now).run d = (.ok (some (u, k)), d') := by
  have ⟨found, d₁, h₁, hf⟩ := run_bind_eq_ok.mp h
  have ⟨result, d₂, h₂, ha⟩ := run_bind_eq_ok.mp h₁
  have ⟨hj, hd⟩ := run_select_eq_ok.mp h₂
  subst hd hj
  have ⟨session, d₃, h₃, ha⟩ := run_bind_eq_ok.mp ha
  have ⟨hj, hd⟩ := run_ofExcept_eq_ok.mp h₃
  subst hd
  cases session
  case some u' =>
    cases ha
    cases hf
    exact .inl ⟨hj, rfl⟩
  case none =>
    have ⟨key, d₄, hk, ha⟩ := run_bind_eq_ok.mp ha
    cases key
    case none   => cases ha; cases hf
    case some c =>
      cases ha
      cases hf
      exact .inr ⟨hj, c.2, hk⟩

end Run
end SaasBackend
