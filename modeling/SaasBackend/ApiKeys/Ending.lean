import SaasBackend.ApiKeys.Contention
import SaasBackend.ApiKeys.Replacement

open Calendar ReadCommitted ReadCommitted.Service

namespace SaasBackend

open Service

-- The calls by which a user ends a key.
inductive KeyEnd
  | revoke (revokedAt : Instant)
  | rotate (revokedAt : Instant) (i : Issuing)

namespace KeyEnd

-- The issued key, if the key is replaced.
def service (user keyId : Uuid) : KeyEnd → Service (Option IssuedKey)
  | revoke t    => do let _ ← revokeApiKey user keyId t; return none
  | rotate t i  => do let k ← rotateApiKey user keyId t i; return some k

def isRevoke : KeyEnd → Bool
  | revoke _    => true
  | rotate _ _  => false

end KeyEnd

def alreadyRevoked (message : String) : Exn :=
  .conflict message "already_revoked"

-- How far a call has got: it has not looked at the key yet, it has found the key active and does or does
-- not hold its lock, it has ended the key, or it has found the key to be revoked.
inductive EndPhase
  | waiting
  | seen
  | locked
  | won
  | refused
  deriving DecidableEq

section States

variable (user : Uuid) (name : String) (i : Issuing) (limit : Nat)

-- The states of a call of `create_api_key` inside of the blocks `gs`, as long as it does not fail.
inductive Creates (gs : List (List Write)) : Session Database Write Exn IssuedKey → Prop
  | start    : Creates gs ⟨(createApiKey user name i).program, gs⟩
  | opened   : Creates gs ⟨(checkLimit user name i).program.closed, [] :: gs⟩
  | loaded   : Creates gs ⟨(issueKey user name i limit).program.closed, [] :: gs⟩
  | passed   : Creates gs ⟨(saveKey user name i).program.closed, [] :: gs⟩
  | saved    : Creates gs
      ⟨(return ⟨i.plaintext, newApiKey user name i⟩ : Service IssuedKey).program.closed,
        [insertKey user name i] :: gs⟩
  | returned : Creates gs
      ⟨.ret ⟨i.plaintext, newApiKey user name i⟩, leaveBlock gs [insertKey user name i]⟩

-- What is known about the tables as `create_api_key` sees them: there is room for the key, and what is
-- generated for it is new.
structure HasRoom (v : Database) : Prop where
  plan   : planMax (getActiveSubscription v user) = limit
  room   : currentActive v user < limit
  insert : Store.violation v (insertKey user name i) = none

end States

section Creates

variable {user : Uuid} {name : String} {i : Issuing} {limit : Nat} {gs : List (List Write)}
  {ses : Session Database Write Exn IssuedKey} {d : Database}

theorem Creates.advance (hr : HasRoom user name i limit (Store.applyAll d (Session.uncommitted gs)))
    (hg : gs ≠ []) (h : Creates user name i limit gs ses) :
    Creates user name i limit gs (ses.advance d).2 ∧ (ses.advance d).1 = d := by
  cases h
  case start  => exact ⟨.opened, rfl⟩
  case opened =>
    rw [checkLimit, Session.advance_select_block, Session.uncommitted_cons, List.append_nil, hr.plan]
    exact ⟨.loaded, rfl⟩
  case loaded =>
    rw [issueKey, Session.advance_select_block, Session.uncommitted_cons, List.append_nil,
      if_neg <| not_le.mpr hr.room]
    exact ⟨.passed, rfl⟩
  case passed =>
    rw [saveKey, create, Session.advance_execute_block, Session.uncommitted_cons, List.append_nil]
    have hv : Store.check (Store.applyAll d (Session.uncommitted gs)) [insertKey user name i] = none :=
      (Store.check_singleton ..).trans hr.insert
    have hc : Store.check (Store.applyAll d (Session.uncommitted gs))
        [(⟨none, .apiKey <| newApiKey user name i⟩ : Write)] = none := hv
    rw [hc]
    exact ⟨.saved, rfl⟩
  case saved =>
    cases gs
    case nil  => exact (hg rfl).elim
    case cons => exact ⟨.returned, rfl⟩
  case returned => exact ⟨.returned, rfl⟩

end Creates

section Rotates

variable (k : APIKey) (revokedAt : Instant) (i : Issuing) (limit : Nat)

-- The blocks inside of which the new key is created.
def endingBlock : List (List Write) :=
  [[lockKey k, revokeKey revokedAt k]]

def rotateConflict : Exn :=
  alreadyRevoked "Cannot rotate a revoked key."

-- The states of a call of `rotate_api_key` for the key `k`.
inductive RotatesKey : Session Database Write Exn IssuedKey → EndPhase → Prop
  | start     : RotatesKey ⟨(rotateApiKey k.userId k.id revokedAt i).program, []⟩ .waiting
  | opened    : RotatesKey ⟨(findAndReplaceKey k.userId k.id revokedAt i).program.closed, [[]]⟩ .waiting
  | locked    : RotatesKey ⟨(replaceKey k.userId revokedAt i k).program.closed, [[lockKey k]]⟩ .locked
  | creating {p fs} (hp : p.IsCommand)
      (hc : Creates k.userId k.name i limit (endingBlock k revokedAt) ⟨p, fs⟩) :
    RotatesKey ⟨p.closed, fs⟩ .locked
  | created   : RotatesKey
      ⟨(return ⟨i.plaintext, newApiKey k.userId k.name i⟩ : Service IssuedKey).program.closed,
        [[lockKey k, revokeKey revokedAt k, insertKey k.userId k.name i]]⟩ .locked
  | returned key : RotatesKey ⟨.ret key, []⟩ .won
  | failed f  : RotatesKey ⟨(raise rotateConflict : Service IssuedKey).program.closed, [f]⟩ .refused
  | raised    : RotatesKey ⟨.raise rotateConflict, []⟩ .refused

def revokeConflict : Exn :=
  alreadyRevoked "API key already revoked."

def saveRevocation : Service APIKey := do
  k.revoke revokedAt
  return { k with revokedAt := some revokedAt }

-- The states of a call of `revoke_api_key` for the key `k`.
inductive RevokesKey : Session Database Write Exn APIKey → EndPhase → Prop
  | start         : RevokesKey ⟨(revokeApiKey k.userId k.id revokedAt).program, []⟩ .waiting
  | seen          : RevokesKey ⟨(saveRevocation k revokedAt).program, []⟩ .seen
  | returned key  : RevokesKey ⟨.ret key, []⟩ .won
  | raised        : RevokesKey ⟨.raise revokeConflict, []⟩ .refused

end Rotates

-- The key is active, and there is room for another one once it is revoked.
structure IsOpen (k : APIKey) (limit : Nat) (d : Database) : Prop where
  mem     : k ∈ d.apiKeys
  active  : k.revokedAt = none
  fits    : (Row.apiKey k).fits
  plan    : planMax (getActiveSubscription d k.userId) = limit
  room    : currentActive d k.userId ≤ limit

-- The key has been revoked.
def IsClosed (k : APIKey) (d : Database) : Prop :=
  ∃ r, findKey d k.id k.userId = some r ∧ r.revokedAt ≠ none ∧ (Row.apiKey r).fits

section Keys

variable {k : APIKey} {revokedAt : Instant} {i : Issuing} {limit : Nat} {d : Database}

theorem isClosed_of_mem {r : APIKey} (hr : r ∈ d.apiKeys) (hi : r.id = k.id) (hu : r.userId = k.userId)
    (hn : r.revokedAt ≠ none) (hf : (Row.apiKey r).fits) : IsClosed k d :=
  ⟨r, hi ▸ hu ▸ findKey_of_mem hr, hn, hf⟩

theorem fits_revoked (hf : (Row.apiKey k).fits) (t : Option Instant) :
    (Row.apiKey { k with revokedAt := t }).fits :=
  APIKey.fits_iff.mpr <| APIKey.fits_iff.mp hf

theorem assign_revokeKey (hk : k ∈ d.apiKeys) (t : Instant) :
    assign Database.apiKeys .apiKey (.apiKey k.id) (fun k => { k with revokedAt := some t }) d =
      some (revokeKey t k) := by
  have hl : d.apiKeys.lookup (.apiKey k.id) = some k := Table.lookup_eq_some.mpr ⟨hk, rfl⟩
  rw [assign, hl]
  rfl

theorem violation_revokeKey (hf : (Row.apiKey k).fits) (t : Instant) (d : Database) :
    Store.violation d (revokeKey t k) = none :=
  violation_replace (fits_revoked hf _) (List.Subset.refl _) d

theorem violation_lockKey (hf : (Row.apiKey k).fits) (d : Database) :
    Store.violation d (lockKey k) = none :=
  violation_replace hf (List.Subset.refl _) d

theorem put_lockKey (hk : k ∈ d.apiKeys) : d.put (.apiKey k) = d :=
  congrArg (fun t => { d with apiKeys := t }) <| Table.put_of_mem hk

theorem applyAll_endingBlock (hk : k ∈ d.apiKeys) (t : Instant) :
    Store.applyAll d (Session.uncommitted (endingBlock k t)) =
      d.put (.apiKey { k with revokedAt := some t }) := by
  change (d.put <| .apiKey k).put (.apiKey { k with revokedAt := some t }) = _
  rw [put_lockKey hk]

theorem IsOpen.hasRoom (h : IsOpen k limit d) (hi : i.IsFresh d) (t : Instant) :
    HasRoom k.userId k.name i limit (d.put <| .apiKey { k with revokedAt := some t }) where
  plan    := (congrArg planMax <| getActiveSubscription_congr rfl rfl k.userId).trans h.plan
  room    := by
    have hc := currentActive_revoke h.mem t k.userId
    rw [isActiveKeyOf_iff.mpr ⟨rfl, h.active⟩] at hc
    exact Nat.lt_of_succ_le <| hc.trans_le h.room
  insert  := by
    have hc := create_newApiKey_run (hi.revoke h.mem t) k.userId k.name
    rw [run_create] at hc
    split at hc
    case h_1 hv => exact hv
    case h_2    => cases hc

end Keys

section Revoke

variable {k : APIKey} {revokedAt : Instant} {limit : Nat} {x : EndPhase} {d : Database}
  {ses : Session Database Write Exn APIKey}

-- What a call may do while the key is active.
inductive OpenStep (k : APIKey) (d : Database) : EndPhase → EndPhase → Database → Prop
  | stay x  : OpenStep k d x x d
  | look {y} (hy : y = .seen ∨ y = .locked) : OpenStep k d .waiting y d
  | win {x d'} (hx : x = .seen ∨ x = .locked) (hc : IsClosed k d') : OpenStep k d x .won d'

-- What a call may do once the key is revoked.
inductive ClosedStep : EndPhase → EndPhase → Prop
  | stay x  : ClosedStep x x
  | refuse  : ClosedStep .waiting .refused

theorem RevokesKey.advance_open (ho : IsOpen k limit d) (h : RevokesKey k revokedAt ses x) :
    ∃ y, RevokesKey k revokedAt (ses.advance d).2 y ∧ OpenStep k d x y (ses.advance d).1 := by
  have hk := findKey_of_mem ho.mem
  cases h
  case start =>
    have ha : ¬(!k.isActive) = true := by simp [APIKey.isActive, ho.active]
    rw [revokeApiKey, Session.advance_select, hk]
    dsimp only
    rw [if_neg ha]
    exact ⟨.seen, .seen, .look <| .inl rfl⟩
  case seen =>
    have hl : d.apiKeys.lookup (.apiKey k.id) = some k := Table.lookup_eq_some.mpr ⟨ho.mem, rfl⟩
    rw [saveRevocation, APIKey.revoke, save, Session.advance_stmt, assign_revokeKey ho.mem, hl,
      Option.toList_some, Store.check_singleton, violation_revokeKey ho.fits, Option.isSome_some, if_pos rfl]
    refine ⟨.won, .returned _, .win (.inl rfl) ?_⟩
    exact isClosed_of_mem (Table.mem_put_self ..) rfl rfl (Option.some_ne_none _) <| fits_revoked ho.fits _
  case returned key => exact ⟨_, .returned key, .stay _⟩
  case raised       => exact ⟨_, .raised, .stay _⟩

theorem RevokesKey.advance_closed (hc : IsClosed k d) (hx : x ≠ .seen) (h : RevokesKey k revokedAt ses x) :
    ∃ y, RevokesKey k revokedAt (ses.advance d).2 y ∧ (ses.advance d).1 = d ∧ ClosedStep x y := by
  have ⟨r, hr, hn, _⟩ := hc
  cases h
  case start =>
    have ha : (!r.isActive) = true := by simp [APIKey.isActive, hn]
    rw [revokeApiKey, Session.advance_select, hr]
    dsimp only
    rw [if_pos ha]
    exact ⟨.refused, .raised, rfl, .refuse⟩
  case seen         => exact (hx rfl).elim
  case returned key => exact ⟨_, .returned key, rfl, .stay _⟩
  case raised       => exact ⟨_, .raised, rfl, .stay _⟩

end Revoke

section Rotate

variable {k : APIKey} {revokedAt : Instant} {i : Issuing} {limit : Nat} {x : EndPhase} {d : Database}
  {ses : Session Database Write Exn IssuedKey}

theorem RotatesKey.of_creates {s : Session Database Write Exn IssuedKey}
    (h : Creates k.userId k.name i limit (endingBlock k revokedAt) s) :
    RotatesKey k revokedAt i limit ⟨s.program.closed, s.frames⟩ .locked := by
  cases h
  case returned => exact .created
  case start    => exact .creating trivial .start
  case opened   => exact .creating trivial .opened
  case loaded   => exact .creating trivial .loaded
  case passed   => exact .creating trivial .passed
  case saved    => exact .creating trivial .saved

theorem RotatesKey.advance_open (ho : IsOpen k limit d) (hi : i.IsFresh d)
    (h : RotatesKey k revokedAt i limit ses x) :
    ∃ y, RotatesKey k revokedAt i limit (ses.advance d).2 y ∧ OpenStep k d x y (ses.advance d).1 := by
  have hk := findKey_of_mem ho.mem
  cases h
  case start  => exact ⟨_, .opened, .stay _⟩
  case opened =>
    have ha : ¬(!k.isActive) = true := by simp [APIKey.isActive, ho.active]
    have hv : Store.violation d (⟨some <| .apiKey k, .apiKey k⟩ : Write) = none := violation_lockKey ho.fits d
    rw [findAndReplaceKey, selectForUpdate, Session.advance_stmt_block]
    rw [show Store.applyAll d (Session.uncommitted [[]]) = d from rfl]
    rw [hk, Option.map_some, Option.toList_some, Store.check_singleton, hv]
    dsimp only
    rw [if_neg ha]
    exact ⟨.locked, .locked, .look <| .inr rfl⟩
  case locked =>
    have hd : Store.applyAll d (Session.uncommitted [[lockKey k]]) = d := put_lockKey ho.mem
    have hl : d.apiKeys.lookup (.apiKey k.id) = some k := Table.lookup_eq_some.mpr ⟨ho.mem, rfl⟩
    rw [replaceKey, APIKey.revoke, save, Session.advance_stmt_block, hd, assign_revokeKey ho.mem, hl,
      Option.toList_some, Store.check_singleton, violation_revokeKey ho.fits, Option.isSome_some, if_pos rfl]
    exact ⟨.locked, .creating trivial .start, .stay _⟩
  case creating p fs hp hc =>
    have hr := ho.hasRoom hi revokedAt
    rw [←applyAll_endingBlock ho.mem] at hr
    obtain ⟨hc, hd⟩ := hc.advance hr <| List.cons_ne_nil _ _
    rw [Session.advance_closed hp]
    refine ⟨.locked, .of_creates hc, ?_⟩
    rw [hd]
    exact .stay _
  case created =>
    have hm : { k with revokedAt := some revokedAt } ∈ (((d.put <| .apiKey k).put
        (.apiKey { k with revokedAt := some revokedAt })).put <| .apiKey <| newApiKey k.userId k.name i).apiKeys :=
      Table.mem_put_of_ne (Table.mem_put_self ..) fun he => hi.id k ho.mem <| Key.apiKey.inj he
    refine ⟨.won, .returned _, .win (.inr rfl) ?_⟩
    exact isClosed_of_mem hm rfl rfl (Option.some_ne_none _) <| fits_revoked ho.fits _
  case returned key => exact ⟨_, .returned key, .stay _⟩
  case failed f     => exact ⟨_, .raised, .stay _⟩
  case raised       => exact ⟨_, .raised, .stay _⟩

theorem RotatesKey.advance_closed (hc : IsClosed k d) (hx : x ≠ .locked)
    (h : RotatesKey k revokedAt i limit ses x) :
    ∃ y, RotatesKey k revokedAt i limit (ses.advance d).2 y ∧ (ses.advance d).1 = d ∧ ClosedStep x y := by
  have ⟨r, hr, hn, hf⟩ := hc
  cases h
  case start  => exact ⟨_, .opened, rfl, .stay _⟩
  case opened =>
    have ha : (!r.isActive) = true := by simp [APIKey.isActive, hn]
    have hv : Store.violation d (⟨some <| .apiKey r, .apiKey r⟩ : Write) = none := violation_lockKey hf d
    rw [findAndReplaceKey, selectForUpdate, Session.advance_stmt_block]
    rw [show Store.applyAll d (Session.uncommitted [[]]) = d from rfl]
    rw [hr, Option.map_some, Option.toList_some, Store.check_singleton, hv]
    dsimp only
    rw [if_pos ha]
    exact ⟨.refused, .failed _, rfl, .refuse⟩
  case locked | creating | created => exact (hx rfl).elim
  case returned key => exact ⟨_, .returned key, rfl, .stay _⟩
  case failed f     => exact ⟨_, .raised, rfl, .stay _⟩
  case raised       => exact ⟨_, .raised, rfl, .stay _⟩

-- From the time when it has found the key active, a call of `rotate_api_key` holds its lock.
theorem RotatesKey.held (h : RotatesKey k revokedAt i limit ses .locked) : Key.apiKey k.id ∈ ses.held := by
  have hk : Key.apiKey k.id ∈ Store.keys Database (lockKey k) := Put.key_mem_keys (lockKey k)
  suffices lockKey k ∈ ses.pending from List.mem_flatMap.mpr ⟨_, this, hk⟩
  cases h
  case locked => exact List.mem_singleton_self _
  case created => exact List.mem_cons_self
  case creating p fs hp hc =>
    change lockKey k ∈ Session.uncommitted fs
    cases hc <;> simp [Session.uncommitted, endingBlock, leaveBlock]

end Rotate

namespace KeyEnd

-- The states of a call for the key `k`.
def InPhase (k : APIKey) (limit : Nat) :
    KeyEnd → Session Database Write Exn (Option IssuedKey) → EndPhase → Prop
  | revoke t,   ses, x => ∃ s, ses = s.map (fun _ => none) ∧ RevokesKey k t s x
  | rotate t i, ses, x => ∃ s, ses = s.map some ∧ RotatesKey k t i limit s x

variable {k : APIKey} {limit : Nat} {c : KeyEnd} {x : EndPhase} {d : Database}
  {ses : Session Database Write Exn (Option IssuedKey)}

theorem InPhase.start (k : APIKey) (limit : Nat) (c : KeyEnd) :
    c.InPhase k limit ⟨(c.service k.userId k.id).program, []⟩ .waiting := by
  cases c
  case revoke => exact ⟨_, rfl, .start⟩
  case rotate => exact ⟨_, rfl, .start⟩

theorem InPhase.advance_open (ho : IsOpen k limit d) (hi : ∀ t i, c = rotate t i → i.IsFresh d)
    (h : c.InPhase k limit ses x) :
    ∃ y, c.InPhase k limit (ses.advance d).2 y ∧ OpenStep k d x y (ses.advance d).1 := by
  cases c
  case revoke t =>
    obtain ⟨s, hs, h⟩ := h
    obtain ⟨y, hy, hd⟩ := h.advance_open ho
    rw [hs, Session.advance_map]
    exact ⟨y, ⟨_, rfl, hy⟩, hd⟩
  case rotate t i =>
    obtain ⟨s, hs, h⟩ := h
    obtain ⟨y, hy, hd⟩ := h.advance_open ho <| hi t i rfl
    rw [hs, Session.advance_map]
    exact ⟨y, ⟨_, rfl, hy⟩, hd⟩

theorem InPhase.advance_closed (hc : IsClosed k d) (hx : x ≠ .seen ∧ x ≠ .locked)
    (h : c.InPhase k limit ses x) :
    ∃ y, c.InPhase k limit (ses.advance d).2 y ∧ (ses.advance d).1 = d ∧ ClosedStep x y := by
  cases c
  case revoke t =>
    have ⟨s, hs, h⟩ := h
    have ⟨y, hy, hd⟩ := h.advance_closed hc hx.left
    rw [hs, Session.advance_map]
    exact ⟨y, ⟨_, rfl, hy⟩, hd⟩
  case rotate t i =>
    have ⟨s, hs, h⟩ := h
    have ⟨y, hy, hd⟩ := h.advance_closed hc hx.right
    rw [hs, Session.advance_map]
    exact ⟨y, ⟨_, rfl, hy⟩, hd⟩

theorem InPhase.held (h : c.InPhase k limit ses .locked) : Key.apiKey k.id ∈ ses.held := by
  cases c
  case revoke t   => have ⟨_, _, h⟩ := h; cases h
  case rotate t i =>
    have ⟨s, hs, h⟩ := h
    exact hs ▸ h.held

-- A revocation that has found the key active is about to write it, whatever is stored now.
theorem InPhase.next_of_seen {r : APIKey} (hr : findKey d k.id k.userId = some r)
    (h : c.InPhase k limit ses .seen) :
    c.isRevoke ∧ ses.next d ≠ [] ∧ Key.apiKey k.id ∈ (ses.next d).flatMap (Store.keys Database) := by
  cases c
  case rotate t i => have ⟨_, _, h⟩ := h; cases h
  case revoke t   =>
    have ⟨s, hs, h⟩ := h
    cases h
    have ⟨hm, hi, _⟩ := findKey_eq_some hr
    have ha : assign Database.apiKeys .apiKey (.apiKey k.id) (fun k => { k with revokedAt := some t }) d =
        some (revokeKey t r) := by
      rw [assign, Table.lookup_eq_some.mpr ⟨hm, congrArg Key.apiKey hi⟩]
      rfl
    have hn : Session.next ⟨(saveRevocation k t).program, []⟩ d =
        (assign Database.apiKeys .apiKey (.apiKey k.id) (fun k => { k with revokedAt := some t }) d).toList := rfl
    rw [hs, Session.next_map, hn, ha]
    refine ⟨rfl, List.cons_ne_nil _ _, List.mem_flatMap.mpr ⟨_, List.mem_cons_self, ?_⟩⟩
    exact hi ▸ Put.key_mem_keys (revokeKey t r)

theorem InPhase.won_of_ret {a : Option IssuedKey} (h : c.InPhase k limit ses x)
    (hr : ses.program = .ret a) : x = .won := by
  cases c
  case revoke t =>
    have ⟨s, hs, h⟩ := h
    have ⟨b, hb⟩ := Session.map_eq_ret <| hs ▸ hr
    cases h <;> first | rfl | cases hb
  case rotate t i =>
    have ⟨s, hs, h⟩ := h
    have ⟨b, hb⟩ := Session.map_eq_ret <| hs ▸ hr
    cases h
    case returned => rfl
    case creating p fs hp hc => cases p <;> cases hb
    all_goals cases hb

theorem InPhase.conflict_of_raise {e : Exn} (h : c.InPhase k limit ses x)
    (hr : ses.program = .raise e) : ∃ message, e = alreadyRevoked message := by
  cases c
  case revoke t =>
    have ⟨s, hs, h⟩ := h
    have hb := Session.map_eq_raise <| hs ▸ hr
    cases h
    case raised => exact ⟨_, (Program.raise.inj hb).symm⟩
    all_goals cases hb
  case rotate t i =>
    have ⟨s, hs, h⟩ := h
    have hb := Session.map_eq_raise <| hs ▸ hr
    cases h
    case raised => exact ⟨_, (Program.raise.inj hb).symm⟩
    case creating p fs hp hc => cases p <;> cases hb
    all_goals cases hb

end KeyEnd

section System

open System

variable {ι : Type} [Fintype ι] [DecidableEq ι]

def endCalls (k : APIKey) (cs : ι → KeyEnd) (i : ι) : Service (Option IssuedKey) :=
  (cs i).service k.userId k.id

-- The time at which the key was revoked.
def revocation (k : APIKey) (d : Database) : Option Instant :=
  (findKey d k.id k.userId).bind (·.revokedAt)

-- No statement fails, and a revocation which has found the key active is only executed while it still is.
def RevokesInTime (k : APIKey) (cs : ι → KeyEnd) (σ : Backend ι (Option IssuedKey)) :
    Action ι Exn → Prop
  | .go i     => (cs i).isRevoke → ¬σ.Blocked i → (σ.session i).next σ.db ≠ [] → revocation k σ.db = none
  | .fail _ _ => False

instance (k : APIKey) (cs : ι → KeyEnd) (σ : Backend ι (Option IssuedKey)) :
    (a : Action ι Exn) → Decidable (RevokesInTime k cs σ a)
  | .go _     => inferInstanceAs <| Decidable (_ → _)
  | .fail _ _ => isFalse id

-- Either nothing has been committed yet, or the key is revoked and at most one call has ended it.
structure EndedOnce (d : Database) (k : APIKey) (limit : Nat) (cs : ι → KeyEnd)
    (σ : Backend ι (Option IssuedKey)) (phase : ι → EndPhase) : Prop where
  exclusive : σ.Exclusive
  phases    : σ.InPhase (fun i => (cs i).InPhase k limit) phase
  state     : (IsOpen k limit d ∧ σ.db = d ∧ ∀ i, phase i ≠ .won) ∨
                (IsClosed k σ.db ∧ (∀ i, phase i ≠ .locked) ∧
                  ∀ i j, phase i = .won → phase j = .won → i = j)

namespace EndedOnce

variable {d : Database} {k : APIKey} {limit : Nat} {cs : ι → KeyEnd}
  {σ : Backend ι (Option IssuedKey)} {phase : ι → EndPhase} {a : Action ι Exn}

theorem revocation_of_isClosed (h : IsClosed k d) : ∃ t, revocation k d = some t := by
  have ⟨r, hr, hn, _⟩ := h
  have ⟨t, ht⟩ := Option.ne_none_iff_exists'.mp hn
  exact ⟨t, by simp [revocation, hr, ht]⟩

theorem revocation_of_isOpen (h : IsOpen k limit d) : revocation k d = none := by
  simp [revocation, findKey_of_mem h.mem, h.active]

-- A revocation whose turn has come has not been overtaken.
omit [Fintype ι] [DecidableEq ι] in
theorem not_seen (h : EndedOnce d k limit cs σ phase) (hc : IsClosed k σ.db) {i : ι}
    (hr : RevokesInTime k cs σ (.go i)) (hb : ¬σ.Blocked i) : phase i ≠ .seen := by
  intro hs
  have hp := h.phases i
  rw [hs] at hp
  have ⟨r, hf, _⟩ := hc
  have ⟨hi, hn, _⟩ := KeyEnd.InPhase.next_of_seen hf hp
  have ⟨t, ht⟩ := revocation_of_isClosed hc
  cases ht.symm.trans <| hr hi hb hn

-- No other call holds the lock of a key that is about to be revoked.
omit [Fintype ι] [DecidableEq ι] in
theorem not_locked (h : EndedOnce d k limit cs σ phase) (ho : IsOpen k limit d) (hd : σ.db = d) {i j : ι}
    (hi : phase i = .seen ∨ phase i = .locked) (hb : ¬σ.Blocked i) (hj : j ≠ i) : phase j ≠ .locked := by
  intro hl
  have hp := h.phases j
  rw [hl] at hp
  have hq := h.phases i
  cases hi
  case inl hi =>
    rw [hi] at hq
    have hf : findKey σ.db k.id k.userId = some k := hd ▸ findKey_of_mem ho.mem
    have ⟨_, _, hm⟩ := KeyEnd.InPhase.next_of_seen hf hq
    exact hb ⟨j, hj, _, hm, KeyEnd.InPhase.held hp⟩
  case inr hi =>
    rw [hi] at hq
    exact h.exclusive j i hj _ (KeyEnd.InPhase.held hp) (KeyEnd.InPhase.held hq)

-- As long as nothing is committed, a call waits, takes the lock, or is the one which ends the key.
omit [Fintype ι] in
theorem step_open (h : EndedOnce d k limit cs σ phase) (ho : IsOpen k limit d) (hd : σ.db = d)
    (hw : ∀ i, phase i ≠ .won) {i : ι} {y : EndPhase} {d' : Database} {s : Session Database Write Exn (Option IssuedKey)}
    (hb : ¬σ.Blocked i) (he : Exclusive ⟨d', Function.update σ.session i s⟩)
    (hp : (cs i).InPhase k limit s y) (hy : OpenStep k d (phase i) y d') :
    EndedOnce d k limit cs ⟨d', Function.update σ.session i s⟩ (Function.update phase i y) := by
  refine ⟨he, h.phases.update hp, ?_⟩
  have hn : y ≠ .won → ∀ j, Function.update phase i y j ≠ .won := fun hy =>
    (Function.forall_update_iff phase fun _ x => x ≠ .won).mpr ⟨hy, fun j _ => hw j⟩
  generalize hx : phase i = x at hy
  cases hy
  case stay     => exact .inl ⟨ho, rfl, hn <| hx ▸ hw i⟩
  case look hy  => exact .inl ⟨ho, rfl, hn <| by cases hy <;> simp [*]⟩
  case win hs hc =>
    refine .inr ⟨hc, ?_, fun j j' hj hj' => ?_⟩
    · exact (Function.forall_update_iff phase fun _ x => x ≠ .locked).mpr
        ⟨by simp, fun j hj => h.not_locked ho hd (hx ▸ hs) hb hj⟩
    · have hi : ∀ j, Function.update phase i .won j = .won → j = i :=
        (Function.forall_update_iff phase fun j x => x = .won → j = i).mpr
          ⟨fun _ => rfl, fun j _ hj => (hw j hj).elim⟩
      exact (hi j hj).trans (hi j' hj').symm

-- Afterwards, the other calls can only be refused.
omit [Fintype ι] in
theorem step_closed (h : EndedOnce d k limit cs σ phase) (hc : IsClosed k σ.db)
    (hl : ∀ i, phase i ≠ .locked) (hw : ∀ i j, phase i = .won → phase j = .won → i = j) {i : ι}
    {y : EndPhase} {s : Session Database Write Exn (Option IssuedKey)}
    (he : Exclusive ⟨σ.db, Function.update σ.session i s⟩) (hp : (cs i).InPhase k limit s y)
    (hy : ClosedStep (phase i) y) :
    EndedOnce d k limit cs ⟨σ.db, Function.update σ.session i s⟩ (Function.update phase i y) := by
  refine ⟨he, h.phases.update hp, .inr ⟨hc, fun j => ?_, fun j j' hj hj' => ?_⟩⟩
  all_goals
    generalize hx : phase i = x at hy
    cases hy
  · rw [←hx, Function.update_eq_self]
    exact hl j
  · exact (Function.forall_update_iff phase fun _ x => x ≠ .locked).mpr ⟨by simp, fun j _ => hl j⟩ j
  · rw [←hx, Function.update_eq_self] at hj hj'
    exact hw j j' hj hj'
  · have hi : ∀ j, Function.update phase i .refused j = .won → phase j = .won :=
      (Function.forall_update_iff phase fun j x => x = .won → phase j = .won).mpr
        ⟨by simp, fun _ _ => id⟩
    exact hw j j' (hi j hj) (hi j' hj')

theorem step (h : EndedOnce d k limit cs σ phase) (hi : ∀ j t i, cs j = .rotate t i → i.IsFresh d)
    (hr : RevokesInTime k cs σ a) :
    (∃ phase, EndedOnce d k limit cs (σ.step a) phase) ∧
    ∀ t, revocation k σ.db = some t → revocation k (σ.step a).db = some t := by
  have he := h.exclusive.step a
  rcases step_cases (σ := σ) a with ha | ⟨i, hgo, hb, ha⟩ | ⟨i, e, hf, _⟩
  · exact ha.symm ▸ ⟨⟨phase, h⟩, fun _ ht => ht⟩
  · subst hgo
    rw [ha] at he ⊢
    rcases h.state with ⟨ho, hd, hw⟩ | ⟨hc, hl, hw⟩
    · have ⟨y, hp, hy⟩ := KeyEnd.InPhase.advance_open ho (hi i) (h.phases i)
      rw [←hd] at hp
      refine ⟨⟨_, h.step_open ho hd hw hb he hp <| hd ▸ hy⟩, fun t ht => ?_⟩
      cases (revocation_of_isOpen ho).symm.trans <| hd ▸ ht
    · have hx : phase i ≠ .seen ∧ phase i ≠ .locked := ⟨h.not_seen hc hr hb, hl i⟩
      have ⟨y, hp, hd, hy⟩ := KeyEnd.InPhase.advance_closed hc hx (h.phases i)
      rw [hd] at he ⊢
      exact ⟨⟨_, h.step_closed hc hl hw he hp hy⟩, fun _ ht => ht⟩
  · rw [hf] at hr
    exact hr.elim

omit [Fintype ι] [DecidableEq ι] in
theorem start (cs : ι → KeyEnd) (hk : k ∈ d.apiKeys) (hf : (Row.apiKey k).fits)
    (hl : currentActive d k.userId ≤ planMax (getActiveSubscription d k.userId)) :
    EndedOnce d k (planMax (getActiveSubscription d k.userId)) cs (.start d <| endCalls k cs)
      fun _ => .waiting where
  exclusive := start_exclusive d (endCalls k cs)
  phases i  := .start k _ (cs i)
  state     := by
    cases hr : k.revokedAt
    case none   => exact .inl ⟨⟨hk, hr, hf, rfl, hl⟩, rfl, by simp⟩
    case some t => exact .inr ⟨isClosed_of_mem hk rfl rfl (by simp [hr]) hf, by simp, by simp⟩

-- A revocation that has been committed remains as it is.
theorem revocation_run (h : EndedOnce d k limit cs σ phase)
    (hi : ∀ j t i, cs j = .rotate t i → i.IsFresh d) {as : List (Action ι Exn)}
    (hr : Along (RevokesInTime k cs) σ as) {t : Instant} (ht : revocation k σ.db = some t) :
    revocation k (σ.run as).db = some t := by
  have ⟨_, hp⟩ := run_induction_along (P := fun σ => (∃ phase, EndedOnce d k limit cs σ phase) ∧
    revocation k σ.db = some t) hr ⟨⟨phase, h⟩, ht⟩ fun _ _ hr ⟨⟨_, h⟩, ht⟩ =>
      ⟨(h.step hi hr).left, (h.step hi hr).right t ht⟩
  exact hp

end EndedOnce

-- At most one of the calls ends the key, and all others are told that it has been revoked, if no
-- revocation is overtaken between its check and its write.
theorem key_ended_once (d : Database) (k : APIKey) (cs : ι → KeyEnd) (as : List (Action ι Exn))
    (hk : k ∈ d.apiKeys) (hf : (Row.apiKey k).fits)
    (hl : currentActive d k.userId ≤ planMax (getActiveSubscription d k.userId))
    (hi : ∀ j t i, cs j = .rotate t i → i.IsFresh d)
    (hr : Along (RevokesInTime k cs) (.start d <| endCalls k cs) as) :
    let σ := (System.start d <| endCalls k cs).run as
    (∀ i j x y, σ.Returned i x → σ.Returned j y → i = j) ∧
    (∀ i e, σ.Raised i e → ∃ message, e = .conflict message "already_revoked") ∧
    ∀ bs ds, as = bs ++ ds → ∀ t,
      revocation k ((System.start d <| endCalls k cs).run bs).db = some t → revocation k σ.db = some t := by
  intro σ
  have hs := EndedOnce.start cs hk hf hl
  have hrun : ∀ {bs}, Along (RevokesInTime k cs) (.start d <| endCalls k cs) bs →
      ∃ phase, EndedOnce d k _ cs ((System.start d <| endCalls k cs).run bs) phase := fun hb =>
    run_induction_along (P := fun σ => ∃ phase, EndedOnce d k _ cs σ phase) hb ⟨_, hs⟩
      fun _ _ hr ⟨_, h⟩ => (h.step hi hr).left
  have ⟨phase, h⟩ := hrun hr
  refine ⟨fun i j x y hx hy => ?_, fun i e he => (h.phases i).conflict_of_raise he, ?_⟩
  · have hwi := (h.phases i).won_of_ret hx
    have hwj := (h.phases j).won_of_ret hy
    rcases h.state with ⟨_, _, hw⟩ | ⟨_, _, hw⟩
    · exact (hw i hwi).elim
    · exact hw i j hwi hwj
  · intro bs ds hb t ht
    have ⟨hb', hd⟩ := along_append.mp <| hb ▸ hr
    have ⟨_, h⟩ := hrun hb'
    have hrev := h.revocation_run hi hd ht
    rwa [←run_append, ←hb] at hrev

end System

section Example

def exampleKey : APIKey where
  id         := 1
  userId     := 1
  name       := "first"
  keyPrefix  := "sk_live_a"
  keyHash    := computeHash "a"
  lastUsedAt := none
  revokedAt  := none

def exampleKeys : Database :=
  { Seed.enrolled with apiKeys := .put .empty exampleKey }

-- A key is rotated by one call, and revoked by another one.
def exampleEnds (i : Fin 2) : KeyEnd :=
  if i.val = 0 then .rotate (.midnight 739001) ⟨"b", 2⟩ else .revoke (.midnight 739002)

theorem exampleEnds_fresh (j : Fin 2) (t : Instant) (i : Issuing) (h : exampleEnds j = .rotate t i) :
    i.IsFresh exampleKeys := by
  unfold exampleEnds at h
  split at h
  case isTrue   => cases h; exact ⟨by decide +kernel, by decide +kernel⟩
  case isFalse  => cases h

-- The rotation only starts once the revocation has returned.
theorem key_ended_in_turn :
    let σ := (System.start exampleKeys <| endCalls exampleKey exampleEnds).run
      (.replicate 2 (.go 1) ++ .replicate 3 (.go 0))
    (∀ i j x y, σ.Returned i x → σ.Returned j y → i = j) ∧
    (∀ i e, σ.Raised i e → ∃ message, e = .conflict message "already_revoked") ∧
    ∀ bs ds, List.replicate 2 (.go 1) ++ .replicate 3 (.go 0) = bs ++ ds → ∀ t,
      revocation exampleKey ((System.start exampleKeys <| endCalls exampleKey exampleEnds).run bs).db = some t →
      revocation exampleKey σ.db = some t :=
  key_ended_once exampleKeys exampleKey exampleEnds _ (by decide +kernel) (by decide +kernel)
    (by decide +kernel) exampleEnds_fresh (by decide +kernel)

def replacement : IssuedKey :=
  ⟨Issuing.plaintext ⟨"b", 2⟩, newApiKey 1 "first" ⟨"b", 2⟩⟩

-- The revocation finds the key active, and is overtaken by the rotation. Both return normally.
theorem key_ended_twice :
    ¬∀ (d : Database) (k : APIKey) (cs : Fin 2 → KeyEnd) (as : List (Action (Fin 2) Exn)),
      k ∈ d.apiKeys → (Row.apiKey k).fits →
      currentActive d k.userId ≤ planMax (getActiveSubscription d k.userId) →
      (∀ j t i, cs j = .rotate t i → i.IsFresh d) → (∀ a ∈ as, a.isGo) →
      let σ := (System.start d <| endCalls k cs).run as
      ∀ i j x y, σ.Returned i x → σ.Returned j y → i = j := by
  intro h
  have h := h exampleKeys exampleKey exampleEnds ([.go 1] ++ .replicate 9 (.go 0) ++ [.go 1])
    (by decide +kernel) (by decide +kernel) (by decide +kernel) exampleEnds_fresh (by decide) 0 1
    (some replacement) none
  exact absurd (h (by decide +kernel) (by decide +kernel)) (by decide)

end Example
end SaasBackend
