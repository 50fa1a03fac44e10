import SaasBackend.ApiKeys.Serial
import SaasBackend.ReadCommitted.Pending
import SaasBackend.ReadCommitted.Phases
import SaasBackend.Subscriptions.Seed

open Calendar ReadCommitted ReadCommitted.Service
open scoped Finset

namespace SaasBackend

open Service

-- The calls by which a user obtains a key.
inductive KeyIssue
  | create (name : String) (i : Issuing)
  | rotate (keyId : Uuid) (revokedAt : Instant) (i : Issuing)

namespace KeyIssue

def service (user : Uuid) : KeyIssue → Service IssuedKey
  | create name i    => createApiKey user name i
  | rotate keyId t i => rotateApiKey user keyId t i

def isCreate : KeyIssue → Bool
  | create _ _   => true
  | rotate _ _ _ => false

end KeyIssue

-- How far a call of `create_api_key` has got: it has not compared the number of keys with the limit
-- yet, it has found the number below the limit and has not committed its key, or it has ended. What
-- matters about a rotation is only that it is one.
inductive IssuePhase
  | counting
  | passed
  | ended
  | rotating
  deriving DecidableEq

section States

variable (user : Uuid) (name : String) (i : Issuing) (limit : Nat)

def insertKey : Write :=
  ⟨none, .apiKey <| newApiKey user name i⟩

-- The parts of `create_api_key` that follow the start of its block, and its comparison.
def checkLimit : Service IssuedKey := do
  let sub ← select (getActiveSubscription · user)
  issueKey user name i (planMax sub)

def saveKey : Service IssuedKey := do
  create <| .apiKey <| newApiKey user name i
  return ⟨i.plaintext, newApiKey user name i⟩

-- The writes of a block become those of the block around it.
def leaveBlock : List (List Write) → List Write → List (List Write)
  | [],      _ => []
  | g :: gs, f => (g ++ f) :: gs

-- The states of a call of `create_api_key` which is made inside of the blocks `gs`.
inductive Creating (gs : List (List Write)) :
    Session Database Write Exn IssuedKey → IssuePhase → Prop
  | start    : Creating gs ⟨(createApiKey user name i).program, gs⟩ .counting
  | opened   : Creating gs ⟨(checkLimit user name i).program.closed, [] :: gs⟩ .counting
  | loaded   : Creating gs ⟨(issueKey user name i limit).program.closed, [] :: gs⟩ .counting
  | passed   : Creating gs ⟨(saveKey user name i).program.closed, [] :: gs⟩ .passed
  | saved    : Creating gs
      ⟨(return ⟨i.plaintext, newApiKey user name i⟩ : Service IssuedKey).program.closed,
        [insertKey user name i] :: gs⟩ .passed
  | returned : Creating gs
      ⟨.ret ⟨i.plaintext, newApiKey user name i⟩, leaveBlock gs [insertKey user name i]⟩ .ended
  | failed e : Creating gs ⟨(raise e : Service IssuedKey).program.closed, [] :: gs⟩ .ended
  | raised e : Creating gs ⟨.raise e, gs⟩ .ended

end States

namespace Creating

variable {user : Uuid} {name : String} {i : Issuing} {limit : Nat} {gs : List (List Write)}
  {ses : Session Database Write Exn IssuedKey} {x : IssuePhase} {d : Database}

-- What a call may do next.
inductive Advances (d : Database) (w : Write) (gs : List (List Write)) :
    IssuePhase → IssuePhase → Database → Prop
  | stay x  : Advances d w gs x x d
  | pass    : Advances d w gs .counting .passed d
  | refuse  : Advances d w gs .counting .ended d
  | fail    : Advances d w gs .passed .ended d
  | commit (hg : gs = []) (hv : Valid d [w]) : Advances d w gs .passed .ended (d.put w.new)

-- Inside of other blocks nothing is committed.
theorem Advances.db_eq {w : Write} {y : IssuePhase} {d' : Database} (h : Advances d w gs x y d')
    (hg : gs ≠ []) : d' = d := by
  cases h
  case commit hg' _ => exact (hg hg').elim
  all_goals rfl

theorem advance (hl : planMax (getActiveSubscription (Store.applyAll d (Session.uncommitted gs)) user) = limit)
    (hv : Valid d ses.pending) (h : Creating user name i limit gs ses x) :
    ∃ y, Creating user name i limit gs (ses.advance d).2 y ∧
      Advances d (insertKey user name i) gs x y (ses.advance d).1 := by
  cases h
  case start  => exact ⟨_, .opened, .stay _⟩
  case opened =>
    rw [checkLimit, Session.advance_select_block, Session.uncommitted_cons, List.append_nil, hl]
    exact ⟨_, .loaded, .stay _⟩
  case loaded =>
    rw [issueKey, Session.advance_select_block]
    split
    case isTrue   => exact ⟨_, .failed _, .refuse⟩
    case isFalse  => exact ⟨_, .passed, .pass⟩
  case passed =>
    rw [saveKey, create, Session.advance_execute_block]
    split
    case h_1    => exact ⟨_, .saved, .stay _⟩
    case h_2 e _ => exact ⟨_, .failed e, .fail⟩
  case saved =>
    cases gs
    case nil  => exact ⟨_, .returned, .commit rfl hv⟩
    case cons => exact ⟨_, .returned, .fail⟩
  case returned => exact ⟨_, .returned, .stay _⟩
  case failed e => exact ⟨_, .raised e, .stay _⟩
  case raised e => exact ⟨_, .raised e, .stay _⟩

theorem fails (h : Creating user name i limit gs ses x) (e : Exn) :
    ∃ y, Creating user name i limit gs (ses.fails e) y ∧ (y = x ∨ y = .ended) := by
  cases h
  case start    => exact ⟨_, .start, .inl rfl⟩
  case opened   => exact ⟨_, .failed e, .inr rfl⟩
  case loaded   => exact ⟨_, .failed e, .inr rfl⟩
  case passed   => exact ⟨_, .failed e, .inr rfl⟩
  case saved    => exact ⟨_, .raised e, .inr rfl⟩
  case returned => exact ⟨_, .returned, .inl rfl⟩
  case failed e => exact ⟨_, .failed e, .inl rfl⟩
  case raised e => exact ⟨_, .raised e, .inl rfl⟩

theorem isHonest (h : Creating user name i limit gs ses x) : ses.IsHonest := by
  cases h
  case opened => exact (Session.IsHonest.select ..).closed
  case loaded => exact (Session.IsHonest.select ..).closed
  case passed =>
    apply Session.IsHonest.closed
    exact Session.IsHonest.stmt (q := fun _ => .ok ()) (honest_insert _) _ _
  all_goals exact ⟨fun _ _ _ hp => by cases hp⟩

-- A call writes nothing until it has found the number of keys below the limit.
theorem engaged_iff (h : Creating user name i limit [] ses x) :
    ses.next d ≠ [] ∨ ses.pending ≠ [] ↔ x = .passed := by
  cases h
  case passed => exact iff_of_true (.inl <| List.cons_ne_nil _ _) rfl
  case saved  => exact iff_of_true (.inr <| List.cons_ne_nil _ _) rfl
  all_goals exact iff_of_false (fun h => h.elim (· rfl) (· rfl)) (by simp)

end Creating

section Rotation

variable (user keyId : Uuid) (revokedAt : Instant) (i : Issuing) (limit : Nat)

def lockKey (k : APIKey) : Write :=
  ⟨some <| .apiKey k, .apiKey k⟩

def revokeKey (k : APIKey) : Write :=
  ⟨some <| .apiKey k, .apiKey { k with revokedAt := some revokedAt }⟩

-- The parts of `rotate_api_key` that follow the start of its block, and the check of the key.
def findAndReplaceKey : Service IssuedKey := do
  match ← selectForUpdate .apiKey (findKey · keyId user) with
  | none     => raise apiKeyNotFound
  | some old =>
    if !old.isActive then
      raise <| .conflict "Cannot rotate a revoked key." "already_revoked"
    else do
      old.revoke revokedAt
      createApiKey user old.name i

def replaceKey (old : APIKey) : Service IssuedKey := do
  old.revoke revokedAt
  createApiKey user old.name i

-- The states of a call of `rotate_api_key`, inside of which `create_api_key` is called.
inductive Rotating : Session Database Write Exn IssuedKey → Prop
  | start     : Rotating ⟨(rotateApiKey user keyId revokedAt i).program, []⟩
  | opened    : Rotating ⟨(findAndReplaceKey user keyId revokedAt i).program.closed, [[]]⟩
  | locked {old} (ho : isActiveKeyOf user old) :
    Rotating ⟨(replaceKey user revokedAt i old).program.closed, [[lockKey old]]⟩
  | creating {old p fs x} (ho : isActiveKeyOf user old) (hp : p.IsCommand)
      (hc : Creating user old.name i limit [[lockKey old, revokeKey revokedAt old]] ⟨p, fs⟩ x) :
    Rotating ⟨p.closed, fs⟩
  | created {old} (ho : isActiveKeyOf user old) :
    Rotating ⟨(return ⟨i.plaintext, newApiKey user old.name i⟩ : Service IssuedKey).program.closed,
      [[lockKey old, revokeKey revokedAt old, insertKey user old.name i]]⟩
  | returned k : Rotating ⟨.ret k, []⟩
  | failed e f : Rotating ⟨(raise e : Service IssuedKey).program.closed, [f]⟩
  | raised e   : Rotating ⟨.raise e, []⟩

end Rotation

namespace Rotating

variable {user keyId : Uuid} {revokedAt : Instant} {i : Issuing} {limit : Nat}
  {ses : Session Database Write Exn IssuedKey} {d : Database}

theorem isHonest (h : Rotating user keyId revokedAt i limit ses) : ses.IsHonest := by
  cases h
  case opened =>
    have hw : Honest fun d => ((findKey d keyId user).map fun k => (⟨some <| .apiKey k, .apiKey k⟩ : Write)).toList :=
      honest_selectForUpdate fun _ _ h => (findKey_eq_some h).left
    exact (Session.IsHonest.stmt hw _ _).closed
  case locked old _ =>
    have hw : Honest fun d => (assign Database.apiKeys .apiKey (.apiKey old.id)
      (fun k => { k with revokedAt := some revokedAt }) d).toList := honest_assign fun _ => rfl
    exact (Session.IsHonest.stmt hw _ _).closed
  case creating hc => exact hc.isHonest.closed
  all_goals exact ⟨fun _ _ _ hp => by cases hp⟩

-- The states of a block inside of which `create_api_key` is called follow those of this call.
theorem of_creating {old : APIKey} {s : Session Database Write Exn IssuedKey} {x : IssuePhase}
    (ho : isActiveKeyOf user old)
    (h : Creating user old.name i limit [[lockKey old, revokeKey revokedAt old]] s x) :
    Rotating user keyId revokedAt i limit ⟨s.program.closed, s.frames⟩ := by
  cases h
  case returned => exact .created ho
  case raised e => exact .failed e _
  case start    => exact .creating ho trivial .start
  case opened   => exact .creating ho trivial .opened
  case loaded   => exact .creating ho trivial .loaded
  case passed   => exact .creating ho trivial .passed
  case saved    => exact .creating ho trivial .saved
  case failed e => exact .creating ho trivial (.failed e)

theorem advance (hl : planMax (getActiveSubscription d user) = limit) (hv : Valid d ses.pending)
    (h : Rotating user keyId revokedAt i limit ses) :
    Rotating user keyId revokedAt i limit (ses.advance d).2 ∧
    ((ses.advance d).1 = d ∨ ∃ old, isActiveKeyOf user old ∧
      Valid d [lockKey old, revokeKey revokedAt old, insertKey user old.name i] ∧
      (ses.advance d).1 =
        Store.applyAll d [lockKey old, revokeKey revokedAt old, insertKey user old.name i]) := by
  cases h
  case start  => exact ⟨.opened, .inl rfl⟩
  case opened =>
    rw [findAndReplaceKey, selectForUpdate, Session.advance_stmt_block]
    rw [show Store.applyAll d (Session.uncommitted [[]]) = d from rfl]
    cases hf : findKey d keyId user
    case none     => exact ⟨.failed apiKeyNotFound [], .inl rfl⟩
    case some old =>
      have hu := (findKey_eq_some hf).right.right
      rw [Option.map_some, Option.toList_some]
      split
      case h_1        => exact ⟨.failed _ _, .inl rfl⟩
      case h_3 he     => cases he
      case h_2 a _ he =>
        cases he
        dsimp only
        split
        case isTrue     => exact ⟨.failed _ _, .inl rfl⟩
        case isFalse ha =>
          exact ⟨.locked <| isActiveKeyOf_iff.mpr ⟨hu, by simpa [APIKey.isActive] using ha⟩, .inl rfl⟩
  case locked old ho =>
    have hk : (Store.applyAll d (Session.uncommitted [[lockKey old]])).apiKeys.lookup (.apiKey old.id) =
      some old := Table.lookup_put_self d.apiKeys old
    have ha : assign Database.apiKeys .apiKey (.apiKey old.id)
        (fun k => { k with revokedAt := some revokedAt })
        (Store.applyAll d (Session.uncommitted [[lockKey old]])) = some (revokeKey revokedAt old) := by
      rw [assign, hk]
      rfl
    rw [replaceKey, APIKey.revoke, save, Session.advance_stmt_block, ha, hk]
    rw [Option.toList_some, Option.isSome_some, if_pos rfl]
    split
    case h_1        => exact ⟨.failed _ _, .inl rfl⟩
    case h_3 he     => cases he
    case h_2 a _ he => exact ⟨.creating ho trivial .start, .inl rfl⟩
  case creating old p fs _ ho hp hc =>
    have hl : planMax (getActiveSubscription (Store.applyAll d <| Session.uncommitted
        [[lockKey old, revokeKey revokedAt old]]) user) = limit :=
      (congrArg planMax <| getActiveSubscription_congr rfl rfl user).trans hl
    have hv : Valid d (Session.pending (⟨p, fs⟩ : Session Database Write Exn IssuedKey)) := hv
    obtain ⟨y, hc, ha⟩ := hc.advance hl hv
    rw [Session.advance_closed hp]
    exact ⟨of_creating ho hc, .inl <| ha.db_eq <| List.cons_ne_nil _ _⟩
  case created old ho => exact ⟨.returned _, .inr ⟨old, ho, hv, rfl⟩⟩
  case returned k     => exact ⟨.returned k, .inl rfl⟩
  case failed e f     => exact ⟨.raised e, .inl rfl⟩
  case raised e       => exact ⟨.raised e, .inl rfl⟩

theorem fails (h : Rotating user keyId revokedAt i limit ses) (e : Exn) :
    Rotating user keyId revokedAt i limit (ses.fails e) := by
  cases h
  case start      => exact .start
  case opened     => exact .failed e _
  case locked     => exact .failed e _
  case creating ho hp hc =>
    rw [Session.fails_closed hp]
    obtain ⟨_, hc, _⟩ := hc.fails e
    exact of_creating ho hc
  case created    => exact .raised e
  case returned k => exact .returned k
  case failed e f => exact .failed e f
  case raised e   => exact .raised e

-- A rotation replaces one key by another.
theorem currentActive_committed {old : APIKey} (ho : isActiveKeyOf user old)
    (hv : Valid d [lockKey old, revokeKey revokedAt old, insertKey user old.name i]) :
    currentActive (Store.applyAll d [lockKey old, revokeKey revokedAt old, insertKey user old.name i])
      user = currentActive d user := by
  obtain ⟨hm, _⟩ := accepts_old hv.left
  have hd : d.put (.apiKey old) = d :=
    congrArg (fun t => { d with apiKeys := t }) <| Table.put_of_mem hm
  have ha : Accepts ((d.put <| .apiKey old).put (revokeKey revokedAt old).new)
    ⟨none, .apiKey <| newApiKey user old.name i⟩ := hv.right.right.left
  have hr := currentActive_revoke hm revokedAt user
  rw [ho] at hr
  rw [hd] at ha
  change currentActive (((d.put <| .apiKey old).put (revokeKey revokedAt old).new).put
    (.apiKey <| newApiKey user old.name i)) user = _
  rw [hd, currentActive_put_new ha user, isActiveKeyOf_newApiKey]
  exact hr

end Rotating

namespace KeyIssue

-- The states of a call outside of all other blocks.
def InPhase (user : Uuid) (limit : Nat) :
    KeyIssue → Session Database Write Exn IssuedKey → IssuePhase → Prop
  | create name i,    s, x => Creating user name i limit [] s x
  | rotate keyId t i, s, x => x = .rotating ∧ Rotating user keyId t i limit s

-- What a call may do next.
inductive Advances (d : Database) (user : Uuid) : IssuePhase → IssuePhase → Database → Prop
  | stay x  : Advances d user x x d
  | pass    : Advances d user .counting .passed d
  | refuse  : Advances d user .counting .ended d
  | fail    : Advances d user .passed .ended d
  | create {d'} (hn : currentActive d' user = currentActive d user + 1) :
    Advances d user .passed .ended d'
  | rotate {d'} (hn : currentActive d' user = currentActive d user) :
    Advances d user .rotating .rotating d'

variable {user : Uuid} {limit : Nat} {c : KeyIssue} {ses : Session Database Write Exn IssuedKey}
  {x : IssuePhase} {d : Database}

theorem InPhase.start (user : Uuid) (limit : Nat) (c : KeyIssue) :
    c.InPhase user limit ⟨(c.service user).program, []⟩
      (if c.isCreate then .counting else .rotating) := by
  cases c
  case create => exact Creating.start
  case rotate => exact ⟨rfl, Rotating.start⟩

theorem InPhase.isHonest (h : c.InPhase user limit ses x) : ses.IsHonest := by
  cases c
  case create => exact Creating.isHonest h
  case rotate => exact h.right.isHonest

theorem InPhase.engaged_iff (h : c.InPhase user limit ses x) :
    c.isCreate ∧ (ses.next d ≠ [] ∨ ses.pending ≠ []) ↔ x = .passed := by
  cases c
  case create => exact (and_iff_right rfl).trans <| Creating.engaged_iff h
  case rotate => simp [h.left, isCreate]

theorem InPhase.advance (hl : planMax (getActiveSubscription d user) = limit)
    (hv : Valid d ses.pending) (h : c.InPhase user limit ses x) :
    ∃ y, c.InPhase user limit (ses.advance d).2 y ∧ Advances d user x y (ses.advance d).1 ∧
      getActiveSubscription (ses.advance d).1 user = getActiveSubscription d user := by
  cases c
  case create name i =>
    have hl : planMax (getActiveSubscription (Store.applyAll d <| Session.uncommitted []) user) = limit :=
      hl
    have ⟨y, hc, ha⟩ := Creating.advance hl hv h
    refine ⟨y, hc, ?_⟩
    generalize (ses.advance d).1 = d' at ha
    cases ha
    case stay       => exact ⟨.stay _, rfl⟩
    case pass       => exact ⟨.pass, rfl⟩
    case refuse     => exact ⟨.refuse, rfl⟩
    case fail       => exact ⟨.fail, rfl⟩
    case commit hw  =>
      have hn := currentActive_put_new hw.left user
      rw [isActiveKeyOf_newApiKey] at hn
      exact ⟨.create hn, getActiveSubscription_congr rfl rfl user⟩
  case rotate keyId t i =>
    have ⟨hx, h⟩ := h
    have ⟨hr, ha⟩ := h.advance hl hv
    subst hx
    refine ⟨.rotating, ⟨rfl, hr⟩, .rotate ?_, ?_⟩
    · cases ha
      case inl ha => rw [ha]
      case inr ha =>
        have ⟨old, ho, hw, ha⟩ := ha
        rw [ha, Rotating.currentActive_committed ho hw]
    · cases ha
      case inl ha => rw [ha]
      case inr ha =>
        have ⟨old, _, _, ha⟩ := ha
        rw [ha]
        exact getActiveSubscription_congr rfl rfl user

theorem InPhase.fails (h : c.InPhase user limit ses x) (e : Exn) :
    ∃ y, c.InPhase user limit (ses.fails e) y ∧ (y = x ∨ y = .ended) := by
  cases c
  case create => exact Creating.fails h e
  case rotate => exact ⟨.rotating, ⟨rfl, h.right.fails e⟩, .inl h.left.symm⟩

end KeyIssue

section System

open System

variable {ι : Type} [Fintype ι] [DecidableEq ι]

-- A call of `create_api_key` only finds the number of keys below the limit while there is room for
-- its key, besides the keys of those calls which have done so before and have not ended.
def LeavesRoomForKey (user : Uuid) (limit : Nat) (cs : ι → KeyIssue) (σ : Backend ι IssuedKey)
    (a : Action ι Exn) : Prop :=
  ∀ i, (cs i).isCreate → ¬σ.Engaged i → (σ.step a).Engaged i →
    currentActive σ.db user + #{j | (cs j).isCreate ∧ σ.Engaged j} < limit

instance (user : Uuid) (limit : Nat) (cs : ι → KeyIssue) (σ : Backend ι IssuedKey)
    (a : Action ι Exn) : Decidable (LeavesRoomForKey user limit cs σ a) :=
  inferInstanceAs <| Decidable (∀ _, _)

-- There is room for the keys which are about to be committed.
structure Bounded (user : Uuid) (limit : Nat) (cs : ι → KeyIssue)
    (σ : Backend ι IssuedKey) (phase : ι → IssuePhase) : Prop where
  consistent : σ.Consistent
  plan       : planMax (getActiveSubscription σ.db user) = limit
  phases     : σ.InPhase (fun i => (cs i).InPhase user limit) phase
  bound      : currentActive σ.db user + count phase .passed ≤ limit

namespace Bounded

variable {d : Database} {user : Uuid} {limit : Nat} {cs : ι → KeyIssue} {σ : Backend ι IssuedKey}
  {phase : ι → IssuePhase}

omit [DecidableEq ι] in
theorem start (hl : planMax (getActiveSubscription d user) = limit)
    (hb : currentActive d user ≤ limit) (cs : ι → KeyIssue) :
    Bounded user limit cs (.start d fun i => (cs i).service user)
      fun i => if (cs i).isCreate then .counting else .rotating where
  consistent := .start ..
  plan       := hl
  phases i   := .start user limit (cs i)
  bound      := by
    have h : count (fun i => if (cs i).isCreate then IssuePhase.counting else .rotating) .passed = 0 := by
      simp only [count, Finset.card_eq_zero, Finset.filter_eq_empty_iff]
      intro i _
      split <;> simp
    rw [h]
    exact hb

omit [DecidableEq ι] in
theorem engaged_card (h : Bounded user limit cs σ phase) :
    #{j | (cs j).isCreate ∧ σ.Engaged j} = count phase .passed :=
  congrArg Finset.card <| Finset.filter_congr fun j _ => (h.phases j).engaged_iff

theorem room (h : Bounded user limit cs σ phase) {i : ι} {a : Action ι Exn}
    (hr : LeavesRoomForKey user limit cs σ a) (hi : phase i ≠ .passed)
    (ha : (cs i).isCreate ∧ (σ.step a).Engaged i) :
    currentActive σ.db user + count phase .passed < limit := by
  have hn : ¬σ.Engaged i := fun he => hi <| (h.phases i).engaged_iff.mp ⟨ha.left, he⟩
  exact h.engaged_card ▸ hr i ha.left hn ha.right

theorem step (h : Bounded user limit cs σ phase) {a : Action ι Exn}
    (hr : LeavesRoomForKey user limit cs σ a) :
    ∃ phase, Bounded user limit cs (σ.step a) phase := by
  have hc := h.consistent.step (fun i => (h.phases i).isHonest) a
  cases step_cases (σ := σ) a
  case inl ha => exact ⟨phase, ha.symm ▸ h⟩
  case inr ha =>
    cases ha
    case inl ha =>
      have ⟨i, _, _, ha⟩ := ha
      have ⟨y, hp, hy, hd⟩ := (h.phases i).advance h.plan (h.consistent.valid i)
      have hroom : phase i = .counting → y = .passed →
          currentActive σ.db user + count phase .passed < limit := by
        intro hi hp'
        refine h.room (i := i) hr (by simp [hi]) ?_
        rw [ha]
        simp only [Engaged, Function.update_self]
        exact hp.engaged_iff.mpr hp'
      have hcount := count_update phase i .passed y
      have hb := h.bound
      refine ⟨Function.update phase i y, hc, ?_, ?_, ?_⟩
      · rw [ha]
        exact (congrArg planMax hd).trans h.plan
      · rw [ha]
        exact h.phases.update hp
      · rw [ha]
        generalize (Session.advance (σ.session i) σ.db).1 = d' at hy
        generalize phase i = x at hy hroom hcount
        cases hy <;> simp at hcount hroom ⊢ <;> omega
    case inr ha =>
      have ⟨i, e, _, ha⟩ := ha
      have ⟨y, hp, hy⟩ := (h.phases i).fails e
      have hcount := count_update phase i .passed y
      have hb := h.bound
      refine ⟨Function.update phase i y, hc, ha ▸ h.plan, ha ▸ h.phases.update hp, ?_⟩
      rw [ha]
      simp only
      cases hy
      case inl hy => rw [hy] at hcount ⊢; omega
      case inr hy => rw [hy] at hcount ⊢; simp at hcount; omega

end Bounded

-- The limit is kept in every interleaving of calls which leaves room for the keys that are about to be
-- committed. Rotations may happen at any time.
theorem key_limit_kept (d : Database) (user : Uuid) (limit : Nat) (cs : ι → KeyIssue)
    (as : List (Action ι Exn)) (hl : planMax (getActiveSubscription d user) = limit)
    (hb : currentActive d user ≤ limit)
    (hr : Along (LeavesRoomForKey user limit cs) (.start d fun i => (cs i).service user) as) :
    currentActive ((System.start d fun i => (cs i).service user).run as).db user ≤ limit := by
  have ⟨phase, h⟩ : ∃ phase, Bounded user limit cs
      ((System.start d fun i => (cs i).service user).run as) phase :=
    run_induction_along (P := fun σ => ∃ phase, Bounded user limit cs σ phase) hr
      ⟨_, .start hl hb cs⟩ fun _ _ hr ⟨_, h⟩ => h.step hr
  exact Nat.le_of_add_right_le h.bound

end System

section Example

-- Two keys are requested under the free plan, which allows one.
def exampleKeyIssues (i : Fin 2) : KeyIssue :=
  if i.val = 0 then .create "first" ⟨"a", 1⟩ else .create "second" ⟨"b", 2⟩

-- The second call counts the keys only after the first one has committed its key.
theorem key_limit_kept_in_turn :
    currentActive ((System.start Seed.enrolled fun i => (exampleKeyIssues i).service 1).run
      (.replicate 5 (.go 0) ++ .replicate 4 (.go 1))).db 1 ≤ 1 :=
  key_limit_kept Seed.enrolled 1 1 exampleKeyIssues _ (by decide) (by decide) (by decide +kernel)

-- Both calls find that the user has no key before either of them has committed one.
theorem key_limit_overrun :
    planMax (getActiveSubscription Seed.enrolled 1) = 1 ∧ currentActive Seed.enrolled 1 ≤ 1 ∧
    ¬currentActive ((System.start Seed.enrolled fun i => (exampleKeyIssues i).service 1).run
      (.replicate 3 (.go 0) ++ .replicate 3 (.go 1) ++ .replicate 2 (.go 0) ++ .replicate 2 (.go 1))).db 1 ≤ 1 := by
  decide +kernel

end Example
end SaasBackend
