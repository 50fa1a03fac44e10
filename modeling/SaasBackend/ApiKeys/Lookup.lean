import SaasBackend.ApiKeys.Serial
import SaasBackend.Subscriptions.Seed

open Calendar ReadCommitted ReadCommitted.Service

namespace SaasBackend

open Service

-- What the callers have been told about keys.
inductive KeyFact
  | issued (plaintext : String) (user key : Uuid)
  | ended (key : Uuid)
  deriving DecidableEq

-- The plaintext was issued for the key of the user, which has been neither revoked nor rotated since.
-- The latest fact comes first.
inductive Live : List KeyFact → String → Uuid → Uuid → Prop
  | issued {l} (p u k) : Live (.issued p u k :: l) p u k
  | since {l p u k f} (h : Live l p u k) (hf : f ≠ .ended k) : Live (f :: l) p u k

theorem Live.cons_issued {l : List KeyFact} {p p' : String} {u u' k k' : Uuid} :
    Live (.issued p u k :: l) p' u' k' ↔ p' = p ∧ u' = u ∧ k' = k ∨ Live l p' u' k' := by
  constructor
  case mp =>
    intro h
    cases h
    case issued   => exact .inl ⟨rfl, rfl, rfl⟩
    case since h  => exact .inr h
  case mpr =>
    rintro (⟨rfl, rfl, rfl⟩ | h)
    · exact .issued ..
    · exact .since h nofun

theorem Live.cons_ended {l : List KeyFact} {p : String} {u k k' : Uuid} :
    Live (.ended k' :: l) p u k ↔ Live l p u k ∧ k ≠ k' := by
  constructor
  case mp =>
    intro h
    cases h
    case since hf h => exact ⟨h, fun hk => hf <| congrArg _ hk.symm⟩
  case mpr => exact fun ⟨h, hk⟩ => .since h fun he => hk (KeyFact.ended.inj he).symm

-- The database together with what has been told about the keys in it.
structure KeyHistory where
  db  : Database
  log : List KeyFact

namespace KeyHistory

inductive Event
  | createApiKey (user : Uuid) (name : String) (i : Issuing)
  | revokeApiKey (user keyId : Uuid) (revokedAt : Instant)
  | rotateApiKey (user keyId : Uuid) (revokedAt : Instant) (i : Issuing)
  | setActive (user : Uuid) (isActive : Bool)
  | authenticate (request : HttpRequest) (now : Instant)

def start (d : Database) : KeyHistory where
  db  := d
  log := []

-- The facts which follow from the answer to a call are added to the log.
def answer {α : Type} (σ : KeyHistory) (facts : α → List KeyFact) :
    Except Exn α × Database → KeyHistory
  | (.ok a, d)    => ⟨d, facts a ++ σ.log⟩
  | (.error _, d) => ⟨d, σ.log⟩

def setActive (user : Uuid) (isActive : Bool) : Service Unit :=
  Service.update Database.users .user (.user user) fun u => { u with isActive := isActive }

def step (σ : KeyHistory) : Event → KeyHistory
  | .createApiKey u n i       =>
    σ.answer (fun k => [.issued k.plaintext u k.apiKey.id]) <| (createApiKey u n i).run σ.db
  | .revokeApiKey u k t       =>
    σ.answer (fun _ => [.ended k]) <| (revokeApiKey u k t).run σ.db
  | .rotateApiKey u k t i     =>
    σ.answer (fun k' => [.issued k'.plaintext u k'.apiKey.id, .ended k]) <| (rotateApiKey u k t i).run σ.db
  | .setActive u b            => σ.answer (fun _ => []) <| (setActive u b).run σ.db
  | .authenticate request now =>
    σ.answer (fun _ => []) <| (APIKeyAuthentication.authenticate request now).run σ.db

def run (σ : KeyHistory) (es : List Event) : KeyHistory :=
  es.foldl step σ

-- The rows which are not revoked are those of the live keys.
structure Represents (d : Database) (log : List KeyFact) : Prop where
  unique  : ∀ r₁ ∈ d.apiKeys, ∀ r₂ ∈ d.apiKeys, r₁.keyHash = r₂.keyHash → r₁ = r₂
  stored  : ∀ p u k, Live log p u k → ∃ r ∈ d.apiKeys, r.id = k ∧ r.userId = u ∧
              r.revokedAt = none ∧ r.keyPrefix = splitPrefix p ∧ r.keyHash = computeHash p
  live    : ∀ r ∈ d.apiKeys, r.revokedAt = none →
              ∃ p, Live log p r.userId r.id ∧ r.keyHash = computeHash p

variable {d d' : Database} {log : List KeyFact} {σ : KeyHistory}

namespace Represents

theorem start (h : d.apiKeys.rows = []) : Represents d [] where
  unique r hr := by rw [←Table.mem_rows, h] at hr; cases hr
  stored      := nofun
  live r hr   := by rw [←Table.mem_rows, h] at hr; cases hr

theorem congr (h : Represents d log) (hd : d'.apiKeys = d.apiKeys) : Represents d' log where
  unique := hd ▸ h.unique
  stored := hd ▸ h.stored
  live   := hd ▸ h.live

-- A key is issued.
theorem issue {user : Uuid} {name : String} {i : Issuing} (h : Represents d log)
    (ha : Accepts d ⟨none, .apiKey <| newApiKey user name i⟩) :
    Represents (d.put <| .apiKey <| newApiKey user name i) (.issued i.plaintext user i.id :: log) := by
  have hn := accepts_new ha
  have hf : ∀ r ∈ d.apiKeys, r.keyHash ≠ computeHash i.plaintext := fun r hr he =>
    accepts_fresh ha r hr _ List.mem_cons_self <| List.mem_singleton.mpr <| congrArg Key.keyHash he.symm
  constructor
  case unique =>
    intro r₁ h₁ r₂ h₂ he
    cases Table.mem_put.mp h₁ <;> cases Table.mem_put.mp h₂
    case inl.inl h₁ h₂ => exact h₁.trans h₂.symm
    case inl.inr h₁ h₂ => exact (hf r₂ h₂.left <| he.symm.trans <| congrArg _ h₁).elim
    case inr.inl h₁ h₂ => exact (hf r₁ h₁.left <| he.trans <| congrArg _ h₂).elim
    case inr.inr h₁ h₂ => exact h.unique r₁ h₁.left r₂ h₂.left he
  case stored =>
    intro p u k hl
    cases Live.cons_issued.mp hl
    case inl he =>
      have ⟨hp, hu, hk⟩ := he
      subst hp hu hk
      exact ⟨_, Table.mem_put_self .., rfl, rfl, rfl, rfl, rfl⟩
    case inr hl =>
      have ⟨r, hr, h⟩ := h.stored p u k hl
      exact ⟨r, Table.mem_put_of_ne hr <| hn r hr, h⟩
  case live =>
    intro r hr hv
    cases Table.mem_put.mp hr
    case inl he => exact he ▸ ⟨i.plaintext, .issued .., rfl⟩
    case inr hr =>
      have ⟨p, hl, hh⟩ := h.live r hr.left hv
      exact ⟨p, Live.cons_issued.mpr <| .inr hl, hh⟩

-- The hash of a key is never changed.
theorem unique_put {k k' : APIKey} (h : Represents d log) (hk : k ∈ d.apiKeys) (hi : k'.id = k.id)
    (hh : k'.keyHash = k.keyHash) :
    ∀ r₁ ∈ d.apiKeys.put k', ∀ r₂ ∈ d.apiKeys.put k', r₁.keyHash = r₂.keyHash → r₁ = r₂ := by
  have hn : ∀ r ∈ d.apiKeys, Entity.key r ≠ Entity.key k' → r.keyHash ≠ k'.keyHash := by
    intro r hr hr' he
    exact hr' <| (congrArg _ <| h.unique r hr k hk <| he.trans hh).trans <| congrArg Key.apiKey hi.symm
  intro r₁ h₁ r₂ h₂ he
  cases Table.mem_put.mp h₁ <;> cases Table.mem_put.mp h₂
  case inl.inl h₁ h₂ => exact h₁.trans h₂.symm
  case inl.inr h₁ h₂ => exact (hn r₂ h₂.left h₂.right <| he.symm.trans <| congrArg _ h₁).elim
  case inr.inl h₁ h₂ => exact (hn r₁ h₁.left h₁.right <| he.trans <| congrArg _ h₂).elim
  case inr.inr h₁ h₂ => exact h.unique r₁ h₁.left r₂ h₂.left he

-- A key is revoked.
theorem revoke {k : APIKey} (h : Represents d log) (hk : k ∈ d.apiKeys) (revokedAt : Instant) :
    Represents (d.put <| .apiKey { k with revokedAt := some revokedAt }) (.ended k.id :: log) := by
  constructor
  case unique => exact h.unique_put hk rfl rfl
  case stored =>
    intro p u k₁ hl
    have ⟨hl, hn⟩ := Live.cons_ended.mp hl
    have ⟨r, hr, hi, h⟩ := h.stored p u k₁ hl
    exact ⟨r, Table.mem_put_of_ne hr fun he => hn <| hi.symm.trans <| Key.apiKey.inj he, hi, h⟩
  case live =>
    intro r hr hv
    cases Table.mem_put.mp hr
    case inl he => rw [he] at hv; cases hv
    case inr hr =>
      have ⟨p, hl, hh⟩ := h.live r hr.left hv
      exact ⟨p, Live.cons_ended.mpr ⟨hl, fun he => hr.right <| congrArg Key.apiKey he⟩, hh⟩

-- A key is used.
theorem markUsed {k : APIKey} (h : Represents d log) (hk : k ∈ d.apiKeys) (now : Instant) :
    Represents (d.put <| .apiKey { k with lastUsedAt := some now }) log := by
  constructor
  case unique => exact h.unique_put hk rfl rfl
  case stored =>
    intro p u k₁ hl
    have ⟨r, hr, hr'⟩ := h.stored p u k₁ hl
    by_cases he : Entity.key r = Entity.key k
    case neg => exact ⟨r, Table.mem_put_of_ne hr he, hr'⟩
    case pos =>
      rw [Table.eq_of_key hr hk he] at hr'
      exact ⟨_, Table.mem_put_self .., hr'⟩
  case live =>
    intro r hr hv
    cases Table.mem_put.mp hr
    case inl he => rw [he] at hv ⊢; exact h.live k hk hv
    case inr hr => exact h.live r hr.left hv

-- A call by which a key is issued.
theorem createApiKey {user : Uuid} {name : String} {i : Issuing} {k : IssuedKey}
    (h : Represents d log) (hr : (createApiKey user name i).run d = (.ok k, d')) :
    Represents d' (.issued k.plaintext user k.apiKey.id :: log) := by
  have ⟨_, hk, ha, hd⟩ := createApiKey_run_eq_ok hr
  subst hk
  rw [hd]
  exact h.issue ha

theorem authenticate (h : Represents d log) (request : HttpRequest) (now : Instant) :
    Represents ((APIKeyAuthentication.authenticate request now).run d).snd log := by
  cases APIKeyAuthentication.authenticate_run_snd request now d
  case inl hd => exact hd.symm ▸ h
  case inr hd =>
    have ⟨k, hk, hd⟩ := hd
    exact hd.symm ▸ h.markUsed hk now

end Represents

theorem step_represents (h : Represents σ.db σ.log) (e : Event) :
    Represents (σ.step e).db (σ.step e).log := by
  cases e
  case createApiKey u n i =>
    rw [step]
    cases hr : (createApiKey u n i).run σ.db
    case mk r d =>
      cases r
      case error  => exact (run_atomic_eq_error hr).symm ▸ h
      case ok k   => exact h.createApiKey hr
  case revokeApiKey u k t =>
    rw [step]
    cases hr : (revokeApiKey u k t).run σ.db
    case mk r d =>
      cases r
      case error  => exact (revokeApiKey_run_eq_error hr).symm ▸ h
      case ok     =>
        have ⟨key, hm, hi, _, _, hk, hd⟩ := revokeApiKey_run_eq_ok hr
        have h := h.revoke hm t
        rwa [←hk, ←hd, hi] at h
  case rotateApiKey u k t i =>
    rw [step]
    cases hr : (rotateApiKey u k t i).run σ.db
    case mk r d =>
      cases r
      case error  => exact (run_atomic_eq_error hr).symm ▸ h
      case ok     =>
        have ⟨old, hm, hi, _, _, hc⟩ := rotateApiKey_run_eq_ok hr
        have h := (h.revoke hm t).createApiKey hc
        rwa [hi] at h
  case setActive u b =>
    rw [step]
    have hm : (setActive u b).Maintains (Preserved (·.apiKeys)) :=
      Maintains.update (fun _ => rfl) fun _ _ _ => rfl
    have hd : ((setActive u b).run σ.db).snd.apiKeys = σ.db.apiKeys := hm.related σ.db
    cases hr : (setActive u b).run σ.db
    case mk r d =>
      rw [hr] at hd
      cases r <;> exact h.congr hd
  case authenticate request now =>
    have h := h.authenticate request now
    rw [step]
    cases hr : (APIKeyAuthentication.authenticate request now).run σ.db
    case mk r d =>
      rw [hr] at h
      cases r <;> exact h

theorem run_represents (h : Represents σ.db σ.log) (es : List Event) :
    Represents (σ.run es).db (σ.run es).log := by
  induction es generalizing σ
  case nil      => exact h
  case cons hi  => exact hi <| step_represents h _

end KeyHistory

section Headers

-- A non-empty string of printable ASCII characters without whitespace.
structure IsPrintable (p : String) : Prop where
  nonempty  : p ≠ ""
  printable : ∀ c ∈ p.toList, 33 ≤ c.toNat ∧ c.toNat ≤ 126

-- The two ways to present a key.
inductive Presents (p : String) (request : HttpRequest) : Prop
  | apiKeyHeader (h : request.header "HTTP_X_API_KEY" = some p)
  | authorization (keyword : String) (hn : request.header "HTTP_X_API_KEY" = none)
      (hk : keyword.toList.map Char.toLower = "api-key".toList)
      (h : request.header "HTTP_AUTHORIZATION" = some (keyword ++ " " ++ p))

variable {p : String} {request : HttpRequest}

theorem IsPrintable.not_space (h : IsPrintable p) (c : Char) (hc : c ∈ p.toList) :
    ¬Text.isSpace c ∧ ¬Text.isAsciiSpace c ∧ c.toNat < 128 := by
  have := h.printable c hc
  simp only [Text.isSpace, Text.isAsciiSpace, decide_eq_true_eq]
  omega

theorem keyword_not_space {keyword : String} (hk : keyword.toList.map Char.toLower = "api-key".toList)
    (c : Char) (hc : c ∈ keyword.toList) : ¬Text.isAsciiSpace c ∧ c.toNat < 128 := by
  have hl : c.toLower ∈ "api-key".toList := hk ▸ List.mem_map_of_mem hc
  simp only [Text.isAsciiSpace, decide_eq_true_eq]
  cases Text.toLower_cases c
  case inr h => omega
  case inl h =>
    rw [h] at hl
    have hs : ∀ c ∈ "api-key".toList, ¬Text.isAsciiSpace c ∧ c.toNat < 128 := by
      simp [Text.isAsciiSpace]
    simpa [Text.isAsciiSpace] using hs c hl

theorem APIKeyAuthentication.extractKey_of_presents (hp : IsPrintable p) (h : Presents p request) :
    extractKey request = .ok (some p) := by
  cases h
  case apiKeyHeader h =>
    rw [extractKey, headerName, h]
    simp only [hp.nonempty, ne_eq, not_false_eq_true, if_true]
    rw [Text.strip_eq_self fun c hc => (hp.not_space c hc).left]
  case authorization keyword hn hk h =>
    have hw : Text.words (keyword ++ " " ++ p).toList = [keyword.toList, p.toList] := by
      rw [String.toList_append, String.toList_append, List.append_assoc]
      refine Text.words_pair (fun c hc => (keyword_not_space hk c hc).left) (fun he => ?_)
        (fun c hc => (hp.not_space c hc).right.left) (fun he => ?_) rfl
      · rw [he] at hk; cases hk
      · exact hp.nonempty <| String.toList_eq_nil_iff.mp he
    have ha : ∀ c ∈ (keyword ++ " " ++ p).toList, c.toNat < 128 := by
      simp only [String.toList_append, List.mem_append]
      rintro c ((hc | hc) | hc)
      · exact (keyword_not_space hk c hc).right
      · rw [List.mem_singleton.mp hc]
        decide
      · exact (hp.not_space c hc).right.right
    have h₁ : (keyword ++ " " ++ p).toList.any (256 ≤ ·.toNat) = false :=
      List.any_eq_false.mpr fun c hc => by have := ha c hc; simp; omega
    have h₂ : keyword.toList.any (128 ≤ ·.toNat) = false :=
      List.any_eq_false.mpr fun c hc => by have := (keyword_not_space hk c hc).right; simp; omega
    have h₃ : p.toList.any (128 ≤ ·.toNat) = false :=
      List.any_eq_false.mpr fun c hc => by have := (hp.not_space c hc).right.right; simp; omega
    have h₄ : keyword.toList.map Char.toLower = APIKeyAuthentication.keyword.toList.map Char.toLower :=
      hk.trans <| by decide +kernel
    rw [extractKey, headerName, hn]
    simp only [extractFromAuthorization, h, Option.getD_some, h₁, hw, h₂, h₃, h₄]
    simp

end Headers

namespace KeyHistory

variable {d : Database} {log : List KeyFact} {p : String}

-- All keys which are not revoked, joined with their users.
def unrevokedKeys (d : Database) : List (APIKey × User) :=
  (d.apiKeys.rows.filter (·.revokedAt = none)).filterMap fun k =>
    (d.users.lookup <| .user k.userId).map fun u => (k, u)

-- A lookup by the hash of the whole key only.
def authenticateByHash (p : String) (now : Instant) : Service (User × APIKey) := do
  let ks ← select unrevokedKeys
  APIKeyAuthentication.compareCandidates (computeHash p) now ks

theorem mem_unrevokedKeys {k : APIKey} {u : User} :
    (k, u) ∈ unrevokedKeys d ↔ k ∈ d.apiKeys ∧ k.revokedAt = none ∧ u ∈ d.users ∧ u.id = k.userId := by
  simp only [unrevokedKeys, List.mem_filterMap, List.mem_filter, Option.map_eq_some_iff,
    Table.lookup_eq_some, decide_eq_true_eq, Prod.mk.injEq]
  constructor
  case mp =>
    rintro ⟨_, ⟨hk, hr⟩, _, ⟨hu, hi⟩, rfl, rfl⟩
    exact ⟨hk, hr, hu, Key.user.inj hi⟩
  case mpr =>
    rintro ⟨hk, hr, hu, hi⟩
    exact ⟨k, ⟨hk, hr⟩, u, ⟨hu, congrArg Key.user hi⟩, rfl, rfl⟩

-- The key that a lookup finds by its hash is the live one, whichever other keys are considered.
theorem Represents.find_eq_some (h : Represents d log) {cs : List (APIKey × User)}
    (hs : ∀ c ∈ cs, c ∈ unrevokedKeys d)
    (hc : ∀ c ∈ unrevokedKeys d, c.1.keyPrefix = splitPrefix p → c ∈ cs) {k : APIKey} {u : User} :
    cs.find? (·.1.keyHash = computeHash p) = some (k, u) ↔
      u ∈ d.users ∧ k ∈ d.apiKeys ∧ Live log p u.id k.id := by
  constructor
  case mp =>
    intro hf
    have ⟨hk, hr, hu, hi⟩ := mem_unrevokedKeys.mp <| hs _ <| List.mem_of_find?_eq_some hf
    have hh : k.keyHash = computeHash p := by simpa using List.find?_some hf
    have ⟨p', hl, hh'⟩ := h.live k hk hr
    have hp : p = p' := congrArg Sha256.preimage <| hh.symm.trans hh'
    exact ⟨hu, hk, hp ▸ hi ▸ hl⟩
  case mpr =>
    intro ⟨hu, hk, hl⟩
    have ⟨r, hr, hi, hu', hv, hp, hh⟩ := h.stored p u.id k.id hl
    have hrk : r = k := Table.eq_of_key hr hk <| congrArg Key.apiKey hi
    subst hrk
    have hm : (r, u) ∈ cs := hc _ (mem_unrevokedKeys.mpr ⟨hr, hv, hu, hu'.symm⟩) hp
    cases hf : cs.find? (·.1.keyHash = computeHash p)
    case none   => exact (List.find?_eq_none.mp hf _ hm <| by simpa using hh).elim
    case some c =>
      obtain ⟨k', u'⟩ := c
      have ⟨hk', _, hu'', hi'⟩ := mem_unrevokedKeys.mp <| hs _ <| List.mem_of_find?_eq_some hf
      have hh' : k'.keyHash = computeHash p := by simpa using List.find?_some hf
      have hkk : k' = r := h.unique k' hk' r hr <| hh'.trans hh.symm
      subst hkk
      have huu : u' = u := Table.eq_of_key hu'' hu <| congrArg Key.user <| hi'.trans hu'
      rw [huu]

open APIKeyAuthentication

theorem candidates_subset (pre : String) : ∀ c ∈ candidates d pre, c ∈ unrevokedKeys d := by
  rintro ⟨k, u⟩ hc
  have ⟨hk, _, h⟩ := mem_candidates.mp hc
  exact mem_unrevokedKeys.mpr ⟨hk, h⟩

theorem mem_candidates_of_keyPrefix {pre : String} :
    ∀ c ∈ unrevokedKeys d, c.1.keyPrefix = pre → c ∈ candidates d pre := by
  rintro ⟨k, u⟩ hc hp
  have ⟨hk, h⟩ := mem_unrevokedKeys.mp hc
  exact mem_candidates.mpr ⟨hk, hp, h⟩

-- The prefix of a key narrows the lookup, but does not change what it finds.
theorem Represents.find_candidates (h : Represents d log) (p : String) :
    (candidates d <| splitPrefix p).find? (·.1.keyHash = computeHash p) =
      (unrevokedKeys d).find? (·.1.keyHash = computeHash p) := by
  apply Option.ext
  rintro ⟨k, u⟩
  rw [h.find_eq_some (candidates_subset _) fun c hc => mem_candidates_of_keyPrefix c hc,
    h.find_eq_some (fun _ hc => hc) fun _ hc _ => hc]

theorem Represents.authenticate_run {request : HttpRequest} {now : Instant} (h : Represents d log)
    (hp : IsPrintable p) (hr : Presents p request) :
    (APIKeyAuthentication.authenticate request now).run d =
      (do let found ← authenticateByHash p now; return some found).run d := by
  rw [APIKeyAuthentication.authenticate_run (extractKey_of_presents hp hr) hp.nonempty, run_bind,
    run_bind, compareCandidates_run, h.find_candidates, authenticateByHash, run_bind, run_select]
  dsimp only
  rw [compareCandidates_run]

theorem Represents.authenticateByHash_run {u : User} {k : APIKey} (h : Represents d log) (now : Instant) :
    ((do let found ← authenticateByHash p now; return some found).run d).fst = .ok (some (u, k)) ↔
      u ∈ d.users ∧ k ∈ d.apiKeys ∧ Live log p u.id k.id ∧ u.isActive := by
  have hf := h.find_eq_some (p := p) (fun _ hc => hc) (fun _ hc _ => hc) (k := k) (u := u)
  rw [run_bind, authenticateByHash, run_bind, run_select]
  dsimp only
  rw [compareCandidates_run]
  cases hc : (unrevokedKeys d).find? (·.1.keyHash = computeHash p)
  case none   =>
    rw [hc] at hf
    apply iff_of_false (by simp [answerFor])
    rintro ⟨hu, hk, hl, _⟩
    cases hf.mpr ⟨hu, hk, hl⟩
  case some c =>
    obtain ⟨k', u'⟩ := c
    rw [hc] at hf
    simp only [Option.some.injEq, Prod.mk.injEq] at hf
    rw [answerFor]
    cases ha : u'.isActive
    case false =>
      apply iff_of_false (by simp)
      rintro ⟨hu, hk, hl, ha'⟩
      obtain ⟨_, he⟩ := hf.mpr ⟨hu, hk, hl⟩
      rw [he, ha'] at ha
      cases ha
    case true =>
      simp only [if_true, run_pure, Except.ok.injEq, Option.some.injEq, Prod.mk.injEq]
      constructor
      case mp =>
        rintro ⟨hu, hk⟩
        obtain ⟨hu', hk', hl⟩ := hf.mp ⟨hk, hu⟩
        exact ⟨hu', hk', hl, hu ▸ ha⟩
      case mpr =>
        rintro ⟨hu, hk, hl, _⟩
        exact (hf.mpr ⟨hu, hk, hl⟩).symm

theorem authenticateByHash_run_cases (p : String) (now : Instant) (d : Database) :
    let result := (do let found ← authenticateByHash p now; return some found).run d
    (∃ u k, result.fst = .ok (some (u, k))) ∨ ∃ detail, result.fst = .error (.unauthenticated detail) := by
  intro result
  have hr : result = _ := run_bind (authenticateByHash p now) (fun found => pure (some found)) d
  rw [authenticateByHash, run_bind, run_select] at hr
  dsimp only at hr
  rw [compareCandidates_run] at hr
  rw [hr]
  cases (unrevokedKeys d).find? (·.1.keyHash = computeHash p)
  case none   => exact .inr ⟨_, rfl⟩
  case some c =>
    obtain ⟨k, u⟩ := c
    rw [answerFor]
    cases u.isActive
    case false  => exact .inr ⟨_, rfl⟩
    case true   => exact .inl ⟨u, k, rfl⟩

-- A key is accepted exactly if it is live and its user is active. Everything else is refused, and it
-- does not matter in which header the key is presented, or that keys are narrowed by their prefix.
theorem authenticate_iff_live (d : Database) (es : List Event) (p : String) (request : HttpRequest)
    (now : Instant) (h : d.apiKeys.rows = []) (hp : IsPrintable p) (hr : Presents p request) :
    let σ := (start d).run es
    let result := (APIKeyAuthentication.authenticate request now).run σ.db
    (∀ u k, result.fst = .ok (some (u, k)) ↔
      u ∈ σ.db.users ∧ k ∈ σ.db.apiKeys ∧ Live σ.log p u.id k.id ∧ u.isActive) ∧
    ((∀ u k, result.fst ≠ .ok (some (u, k))) → ∃ detail, result.fst = .error (.unauthenticated detail)) ∧
    (∀ request', Presents p request' →
      (APIKeyAuthentication.authenticate request' now).run σ.db = result) ∧
    result = (do let found ← authenticateByHash p now; return some found).run σ.db := by
  intro σ result
  have h : Represents σ.db σ.log := run_represents (.start h) es
  have hb : result = _ := h.authenticate_run hp hr
  refine ⟨fun u k => ?_, fun hn => ?_, fun request' hr' => ?_, hb⟩
  · rw [hb]
    exact h.authenticateByHash_run now
  · cases authenticateByHash_run_cases p now σ.db
    case inr he => rwa [hb]
    case inl ho =>
      have ⟨u, k, ho⟩ := ho
      exact (hn u k <| hb ▸ ho).elim
  · exact (h.authenticate_run hp hr').trans hb.symm

section Example

-- Two keys which share their prefix are issued to a user with a subscription to the pro plan.
def exampleAccounts : Database :=
  { ((subscribe 1 PlanSlug.pro (.midnight 739000) ⟨.midnight 739000, 1, 1⟩).run Seed.database).snd with
    users := .put .empty Seed.user }

def exampleEvents : List Event := [
  .createApiKey 1 "first" ⟨"tokena", 1⟩,
  .createApiKey 1 "second" ⟨"tokenb", 2⟩,
  .revokeApiKey 1 1 (.midnight 739000)
]

def exampleRequest : HttpRequest :=
  ⟨some "GET", "/api/v1/users/me/", [("HTTP_AUTHORIZATION", "api-KEY sk_live_tokenb")],
    none, none, none, none, none⟩

theorem second_key_accepted :
    let σ := (start exampleAccounts).run exampleEvents
    let result := (APIKeyAuthentication.authenticate exampleRequest (.midnight 739001)).run σ.db
    (∀ u k, result.fst = .ok (some (u, k)) ↔
      u ∈ σ.db.users ∧ k ∈ σ.db.apiKeys ∧ Live σ.log "sk_live_tokenb" u.id k.id ∧ u.isActive) ∧
    ((∀ u k, result.fst ≠ .ok (some (u, k))) → ∃ detail, result.fst = .error (.unauthenticated detail)) ∧
    (∀ request', Presents "sk_live_tokenb" request' →
      (APIKeyAuthentication.authenticate request' (.midnight 739001)).run σ.db = result) ∧
    result = (do let found ← authenticateByHash "sk_live_tokenb" (.midnight 739001)
                 return some found).run σ.db :=
  authenticate_iff_live exampleAccounts exampleEvents "sk_live_tokenb" exampleRequest (.midnight 739001)
    rfl ⟨by decide, by simp⟩ (.authorization "api-KEY" rfl (by decide) rfl)

end Example
end KeyHistory
end SaasBackend
