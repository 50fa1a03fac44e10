import SaasBackend.Authentication.Services
import SaasBackend.Subscriptions.Seed
import SaasBackend.Statements

open Calendar ReadCommitted ReadCommitted.Service

namespace SaasBackend

open Service

-- What a call of `confirm_password_reset` is given besides the token.
structure Reset where
  newPassword : String
  now         : Instant
  usedAt      : Instant

namespace Reset

def service (token : String) (c : Reset) : Service User :=
  confirmPasswordReset token c.newPassword c.now c.usedAt

-- The program of the transaction, up to the check of the token.
def check (token : String) (c : Reset) : Service User := do
  match ← select (findResetToken · <| hashToken token) with
  | none        => raise invalidResetToken
  | some (t, u) =>
    if !t.isValid c.now then raise invalidResetToken
    else useResetToken t u c.newPassword c.usedAt

end Reset

theorem findResetToken_eq_some {d : Database} {hash : Sha256} {t : PasswordResetToken} {u : User}
    (h : findResetToken d hash = some (t, u)) :
    t ∈ d.resetTokens ∧ t.tokenHash = hash ∧ u ∈ d.users ∧ u.id = t.userId := by
  obtain ⟨r, hr, h⟩ := List.exists_of_findSome?_eq_some h
  split at h
  case isFalse    => cases h
  case isTrue hk  =>
    obtain ⟨u', hl, he⟩ := Option.map_eq_some_iff.mp h
    obtain ⟨hu, hi⟩ := Table.lookup_eq_some.mp hl
    cases he
    exact ⟨hr, hk, hu, Key.user.inj hi⟩

-- A token of the database and its user, as they are found by a call.
structure IsResetToken (d : Database) (token : String) (t : PasswordResetToken) (u : User) : Prop where
  found  : findResetToken d (hashToken token) = some (t, u)
  unique : ∀ r ∈ d.resetTokens, r.tokenHash = hashToken token → r = t
  fits   : (Row.user u).fits

namespace Reset

variable {d : Database} {token : String} {t : PasswordResetToken} {u : User} {c : Reset}

def setPassword (c : Reset) (u : User) : Write :=
  ⟨some <| .user u, .user { u with password := ⟨c.newPassword⟩ }⟩

def setUsed (c : Reset) (t : PasswordResetToken) : Write :=
  ⟨some <| .resetToken t, .resetToken { t with usedAt := some c.usedAt }⟩

def setOthersUsed (c : Reset) (d : Database) (t : PasswordResetToken) (u : User) : List Write :=
  useOtherTokens t u.id c.usedAt <| Store.applyAll d [c.setPassword u, c.setUsed t]

-- The database once the transaction is committed.
def committed (c : Reset) (d : Database) (t : PasswordResetToken) (u : User) : Database :=
  Store.applyAll d <| [c.setPassword u, c.setUsed t] ++ c.setOthersUsed d t u

theorem found_mem (h : IsResetToken d token t u) :
    t ∈ d.resetTokens ∧ t.tokenHash = hashToken token ∧ u ∈ d.users :=
  have ⟨ht, hh, hu, _⟩ := findResetToken_eq_some h.found
  ⟨ht, hh, hu⟩

-- The password is set, and the token is not valid anymore.
structure IsSettled (d : Database) (token : String) (u : User) (c : Reset) (v : Database) : Prop where
  users  : v.users = d.users.put { u with password := ⟨c.newPassword⟩ }
  tokens : ∀ r ∈ v.resetTokens, r.tokenHash = hashToken token → r.usedAt ≠ none

theorem isSettled_committed (h : IsResetToken d token t u) (c : Reset) :
    IsSettled d token u c (c.committed d t u) := by
  rw [committed, Store.applyAll_append]
  have hv : IsSettled d token u c (Store.applyAll d [c.setPassword u, c.setUsed t]) := by
    refine ⟨rfl, fun r hr hh => ?_⟩
    cases Table.mem_put.mp hr
    case inl he => simp [he]
    case inr hn =>
      have hk : Entity.key r = Entity.key t := congrArg _ <| h.unique r hn.left hh
      exact (hn.right hk).elim
  have hw : ∀ w ∈ c.setOthersUsed d t u, ∃ r : PasswordResetToken,
      w.new = .resetToken r ∧ r.usedAt ≠ none := by
    intro w hw
    have ⟨r, _, he⟩ := List.mem_map.mp hw
    rw [←he]
    exact ⟨_, rfl, by simp⟩
  generalize c.setOthersUsed d t u = ws at hw
  generalize Store.applyAll d [c.setPassword u, c.setUsed t] = v at hv
  induction ws generalizing v
  case nil          => exact hv
  case cons w ws hi =>
    have ⟨r, hr, hu⟩ := hw w List.mem_cons_self
    refine hi (fun w hm => hw w <| List.mem_cons_of_mem _ hm) _ ?_
    change IsSettled d token u c (v.put w.new)
    rw [hr]
    refine ⟨hv.users, fun r' hr' hh => ?_⟩
    cases Table.mem_put.mp hr'
    case inl he => exact he ▸ hu
    case inr hn => exact hv.tokens r' hn.left hh

-- Marking tokens as used violates no constraint.
theorem check_setOthersUsed (v : Database) : Store.check v (c.setOthersUsed d t u) = none := by
  refine Store.check_eq_none (fun w hw v => ?_) v
  have ⟨r, _, he⟩ := List.mem_map.mp hw
  rw [←he]
  exact violation_replace rfl (List.Subset.refl _) v

end Reset

-- How far a call has got: it has not checked the token yet, it is about to use the token which it has
-- found to be valid, or it has ended.
inductive ResetPhase
  | reading
  | writing
  | returned
  | refused
  deriving DecidableEq

-- The states of a call, as long as nothing else uses the token.
inductive Resetting (d : Database) (token : String) (t : PasswordResetToken) (u : User) (c : Reset) :
    Session Database Write Exn User → ResetPhase → Prop
  | start       : Resetting d token t u c ⟨(c.service token).program, []⟩ .reading
  | opened      : Resetting d token t u c ⟨(c.check token).program.closed, [[]]⟩ .reading
  | valid       : Resetting d token t u c
      ⟨(useResetToken t u c.newPassword c.usedAt).program.closed, [[]]⟩ .writing
  | changed     : Resetting d token t u c
      ⟨(do consume t c.usedAt; execute <| useOtherTokens t u.id c.usedAt;
           return { u with password := ⟨c.newPassword⟩ } : Service User).program.closed,
        [[c.setPassword u]]⟩ .writing
  | consumed    : Resetting d token t u c
      ⟨(do execute <| useOtherTokens t u.id c.usedAt;
           return { u with password := ⟨c.newPassword⟩ } : Service User).program.closed,
        [[c.setPassword u, c.setUsed t]]⟩ .writing
  | finished    : Resetting d token t u c
      ⟨(return { u with password := ⟨c.newPassword⟩ } : Service User).program.closed,
        [[c.setPassword u, c.setUsed t] ++ c.setOthersUsed d t u]⟩ .writing
  | returned a  : Resetting d token t u c ⟨.ret a, []⟩ .returned
  | invalid     : Resetting d token t u c
      ⟨(raise invalidResetToken : Service User).program.closed, [[]]⟩ .refused
  | refused     : Resetting d token t u c ⟨.raise invalidResetToken, []⟩ .refused

namespace Resetting

variable {d : Database} {token : String} {t : PasswordResetToken} {u : User} {c : Reset}
  {ses : Session Database Write Exn User} {x : ResetPhase}

theorem advance_check {v : Database} :
    Session.advance ⟨(c.check token).program.closed, [[]]⟩ v =
      (v, ⟨(match findResetToken v (hashToken token) with
            | none        => raise invalidResetToken
            | some (t, u) =>
              if !t.isValid c.now then raise invalidResetToken
              else useResetToken t u c.newPassword c.usedAt : Service User).program.closed, [[]]⟩) :=
  Session.advance_select_closed ..

theorem advance_valid (h : IsResetToken d token t u) :
    Session.advance ⟨(useResetToken t u c.newPassword c.usedAt).program.closed, [[]]⟩ d =
      (d, ⟨(do consume t c.usedAt; execute <| useOtherTokens t u.id c.usedAt;
               return { u with password := ⟨c.newPassword⟩ } : Service User).program.closed,
        [[c.setPassword u]]⟩) :=
  advance_save_closed _ (Table.lookup_eq_some.mpr ⟨(Reset.found_mem h).right.right, rfl⟩) h.fits <|
    List.Subset.refl _

theorem advance_changed (h : IsResetToken d token t u) :
    Session.advance
      ⟨(do consume t c.usedAt; execute <| useOtherTokens t u.id c.usedAt;
           return { u with password := ⟨c.newPassword⟩ } : Service User).program.closed,
        [[c.setPassword u]]⟩ d =
      (d, ⟨(do execute <| useOtherTokens t u.id c.usedAt;
               return { u with password := ⟨c.newPassword⟩ } : Service User).program.closed,
        [[c.setPassword u, c.setUsed t]]⟩) :=
  advance_save_closed _ (Table.lookup_eq_some.mpr ⟨(Reset.found_mem h).left, rfl⟩) rfl <|
    List.Subset.refl _

theorem advance_consumed :
    Session.advance
      ⟨(do execute <| useOtherTokens t u.id c.usedAt;
           return { u with password := ⟨c.newPassword⟩ } : Service User).program.closed,
        [[c.setPassword u, c.setUsed t]]⟩ d =
      (d, ⟨(return { u with password := ⟨c.newPassword⟩ } : Service User).program.closed,
        [[c.setPassword u, c.setUsed t] ++ c.setOthersUsed d t u]⟩) :=
  Session.advance_stmt_closed (q := fun _ => .ok ()) _ (Reset.check_setOthersUsed _) rfl

-- While nothing is committed, a call which has found the token to be valid proceeds to commit.
theorem advance (ht : IsResetToken d token t u) (h : Resetting d token t u c ses x) :
    ∃ y, Resetting d token t u c (ses.advance d).2 y ∧
      ((ses.advance d).1 = d ∧ (y = x ∨ x = .reading ∧ y = .refused) ∨
       (ses.advance d).1 = d ∧ x = .reading ∧ y = .writing ∨
       (ses.advance d).1 = c.committed d t u ∧ x = .writing ∧ y = .returned) := by
  cases h
  case start => exact ⟨_, .opened, .inl ⟨rfl, .inl rfl⟩⟩
  case opened =>
    rw [advance_check, ht.found]
    cases hv : t.isValid c.now <;> dsimp only <;> rw [hv]
    case false  => exact ⟨_, .invalid, .inl ⟨rfl, .inr ⟨rfl, rfl⟩⟩⟩
    case true   => exact ⟨_, .valid, .inr <| .inl ⟨rfl, rfl, rfl⟩⟩
  case valid =>
    rw [advance_valid ht]
    exact ⟨_, .changed, .inl ⟨rfl, .inl rfl⟩⟩
  case changed =>
    rw [advance_changed ht]
    exact ⟨_, .consumed, .inl ⟨rfl, .inl rfl⟩⟩
  case consumed =>
    rw [advance_consumed]
    exact ⟨_, .finished, .inl ⟨rfl, .inl rfl⟩⟩
  case finished   => exact ⟨_, .returned _, .inr <| .inr ⟨rfl, rfl, rfl⟩⟩
  case returned a => exact ⟨_, .returned a, .inl ⟨rfl, .inl rfl⟩⟩
  case invalid    => exact ⟨_, .refused, .inl ⟨rfl, .inl rfl⟩⟩
  case refused    => exact ⟨_, .refused, .inl ⟨rfl, .inl rfl⟩⟩

-- Once the token is used, it is refused.
theorem advance_settled {c' : Reset} {v : Database} (hv : Reset.IsSettled d token u c' v)
    (h : Resetting d token t u c ses x) (hx : x ≠ .writing) :
    ∃ y, Resetting d token t u c (ses.advance v).2 y ∧ (ses.advance v).1 = v ∧
      (y = x ∨ x = .reading ∧ y = .refused) := by
  cases h
  case start => exact ⟨_, .opened, rfl, .inl rfl⟩
  case opened =>
    rw [advance_check]
    cases hf : findResetToken v (hashToken token)
    case none => exact ⟨_, .invalid, rfl, .inr ⟨rfl, rfl⟩⟩
    case some f =>
      have hn : f.1.isValid c.now = false := by
        obtain ⟨r, hr, hf⟩ := List.exists_of_findSome?_eq_some hf
        split at hf
        case isFalse    => cases hf
        case isTrue hk  =>
          obtain ⟨_, _, hf⟩ := Option.map_eq_some_iff.mp hf
          cases hf
          simp [Token.isValid, hv.tokens r hr hk]
      dsimp only
      rw [hn]
      exact ⟨_, .invalid, rfl, .inr ⟨rfl, rfl⟩⟩
  case returned a => exact ⟨_, .returned a, rfl, .inl rfl⟩
  case invalid    => exact ⟨_, .refused, rfl, .inl rfl⟩
  case refused    => exact ⟨_, .refused, rfl, .inl rfl⟩
  all_goals exact (hx rfl).elim

theorem not_engaged (h : Resetting d token t u c ses .reading) (v : Database) :
    ¬(ses.next v ≠ [] ∨ ses.pending ≠ []) := by
  cases h
  all_goals exact fun h => h.elim (· rfl) (· rfl)

theorem engaged (ht : IsResetToken d token t u) (h : Resetting d token t u c ses .writing) :
    ses.next d ≠ [] ∨ ses.pending ≠ [] := by
  cases h
  case valid =>
    have hn : Session.next (⟨(useResetToken t u c.newPassword c.usedAt).program.closed, [[]]⟩ :
      Session Database Write Exn User) d = (assign Database.users .user (.user u.id)
        (fun r => { r with password := ⟨c.newPassword⟩ }) d).toList := rfl
    have hl : d.users.lookup (.user u.id) = some u :=
      Table.lookup_eq_some.mpr ⟨(Reset.found_mem ht).right.right, rfl⟩
    exact .inl <| by simp [hn, assign, hl]
  all_goals exact .inr <| by simp [Session.pending]

theorem of_returned {a : User} (h : Resetting d token t u c ses x) (hr : ses.program = .ret a) :
    x = .returned := by
  cases h
  case returned => rfl
  all_goals cases hr

theorem of_raised {e : Exn} (h : Resetting d token t u c ses x) (hr : ses.program = .raise e) :
    e = invalidResetToken := by
  cases h
  case refused => exact (Program.raise.inj hr).symm
  all_goals cases hr

end Resetting

section System

open System

variable {ι : Type} [Fintype ι] [DecidableEq ι]

-- No statement fails, and a call only finds the token to be valid while no other call is about to
-- use it.
def Exclusively (σ : Backend ι User) (a : Action ι Exn) : Prop :=
  a.isGo ∧ ∀ i, ¬σ.Engaged i → (σ.step a).Engaged i → ∀ j, ¬σ.Engaged j

instance (σ : Backend ι User) (a : Action ι Exn) : Decidable (Exclusively σ a) :=
  inferInstanceAs <| Decidable (_ ∧ _)

-- Either nothing has been committed and at most one call is about to use the token, or exactly one
-- call has used it.
inductive OneShot (d : Database) (token : String) (u : User) (cs : ι → Reset) :
    Database → (ι → ResetPhase) → Prop
  | pending {phase} (hr : ∀ i, phase i ≠ .returned)
      (hw : ∀ i j, phase i = .writing → phase j = .writing → i = j) : OneShot d token u cs d phase
  | settled {v phase} (i) (hv : Reset.IsSettled d token u (cs i) v)
      (hr : ∀ j, phase j = .returned ↔ j = i) (hw : ∀ j, phase j ≠ .writing) :
      OneShot d token u cs v phase

namespace OneShot

variable {d : Database} {token : String} {t : PasswordResetToken} {u : User} {cs : ι → Reset}
  {σ : Backend ι User} {phase : ι → ResetPhase}

omit [Fintype ι] in
-- A call which neither starts nor finishes to use the token.
theorem update_of_ne {v : Database} (h : OneShot d token u cs v phase) {i : ι} {y : ResetPhase}
    (hy : y = phase i ∨ phase i = .reading ∧ y = .refused) :
    OneShot d token u cs v (Function.update phase i y) := by
  have hu : ∀ j, (Function.update phase i y j = phase j) ∨
      (phase j = .reading ∧ Function.update phase i y j = .refused) := by
    intro j
    by_cases hj : j = i
    case pos => subst hj; simpa using hy
    case neg => exact .inl <| Function.update_of_ne hj ..
  have hw : ∀ j, Function.update phase i y j = .writing → phase j = .writing := by
    intro j hj
    cases hu j <;> simp_all
  have hr : ∀ j, Function.update phase i y j = .returned ↔ phase j = .returned := by
    intro j
    cases hu j <;> simp_all
  cases h
  case pending hr' hw'      =>
    exact .pending (fun j hj => hr' j <| (hr j).mp hj) fun j k hj hk => hw' j k (hw j hj) (hw k hk)
  case settled i' hv hr' hw'  =>
    exact .settled i' hv (fun j => (hr j).trans (hr' j)) fun j hj => hw' j <| hw j hj

omit [Fintype ι] in
-- A call starts to use the token.
theorem start_writing (hr : ∀ i, phase i ≠ .returned) (hw : ∀ i, phase i ≠ .writing) (i : ι) :
    OneShot d token u cs d (Function.update phase i .writing) := by
  have h : ∀ j, Function.update phase i .writing j = .writing → j = i :=
    (Function.forall_update_iff phase fun j x => x = .writing → j = i).mpr
      ⟨fun _ => rfl, fun j _ hj => (hw j hj).elim⟩
  refine .pending ?_ fun j k hj hk => (h j hj).trans (h k hk).symm
  exact (Function.forall_update_iff phase fun _ x => x ≠ .returned).mpr ⟨by simp, fun j _ => hr j⟩

omit [Fintype ι] in
-- The call which has started to use the token commits.
theorem finish_writing {v : Database} {i : ι} (hv : Reset.IsSettled d token u (cs i) v)
    (hr : ∀ i, phase i ≠ .returned)
    (hw : ∀ i j, phase i = .writing → phase j = .writing → i = j) (hi : phase i = .writing) :
    OneShot d token u cs v (Function.update phase i .returned) := by
  refine .settled i hv ?_ ?_
  · exact (Function.forall_update_iff phase fun j x => x = .returned ↔ j = i).mpr
      ⟨iff_of_true rfl rfl, fun j hj => iff_of_false (hr j) hj⟩
  · exact (Function.forall_update_iff phase fun _ x => x ≠ .writing).mpr
      ⟨by simp, fun j hj hj' => hj <| hw j i hj' hi⟩

theorem step (ht : IsResetToken d token t u) (h : OneShot d token u cs σ.db phase)
    (hp : σ.InPhase (fun i => Resetting d token t u (cs i)) phase) {a : Action ι Exn}
    (ha : Exclusively σ a) :
    ∃ phase, (σ.step a).InPhase (fun i => Resetting d token t u (cs i)) phase ∧
      OneShot d token u cs (σ.step a).db phase := by
  cases step_cases (σ := σ) a
  case inl hs => exact ⟨phase, hs.symm ▸ hp, hs.symm ▸ h⟩
  case inr hs =>
    cases hs
    case inr hs =>
      have ⟨i, e, hs, _⟩ := hs
      rw [hs] at ha
      cases ha.left
    case inl hs =>
      have ⟨i, _, _, hs⟩ := hs
      generalize hv : σ.db = v at h
      cases h
      case settled i' hv' hr hw =>
        have ⟨y, hc, hd, hy⟩ := (hp i).advance_settled (hv.symm ▸ hv') (hw i)
        rw [hs]
        refine ⟨_, hp.update hc, ?_⟩
        simp only [hd]
        exact (OneShot.settled i' (hv.symm ▸ hv') hr hw).update_of_ne hy
      case pending hr hw =>
        have ⟨y, hc, hy⟩ := (hp i).advance ht
        rw [hs, hv]
        refine ⟨_, hp.update hc, ?_⟩
        cases hy
        case inl hy =>
          have ⟨hd, hy⟩ := hy
          simp only [hd]
          exact (OneShot.pending hr hw).update_of_ne hy
        case inr hy =>
          cases hy
          case inl hy =>
            have ⟨hd, hi, hy⟩ := hy
            simp only [hd]
            rw [hy] at hc ⊢
            refine start_writing hr (fun j hj => ha.right i ((hi ▸ hp i).not_engaged _) ?_ j ?_) i
            · rw [hs, hv]
              simp only [Engaged, Function.update_self, hd]
              exact hc.engaged ht
            · rw [Engaged, hv]
              exact (hj ▸ hp j).engaged ht
          case inr hy =>
            have ⟨hd, hi, hy⟩ := hy
            rw [hd, hy]
            exact finish_writing (Reset.isSettled_committed ht _) hr hw hi

end OneShot

-- A token is one-shot in every interleaving of calls in which no call finds it to be valid while
-- another call is about to use it.
theorem reset_token_one_shot (d : Database) (token : String) (t : PasswordResetToken) (u : User)
    (cs : ι → Reset) (as : List (Action ι Exn)) (ht : IsResetToken d token t u)
    (ha : Along Exclusively (.start d fun i => (cs i).service token) as) :
    let σ := (System.start d fun i => (cs i).service token).run as
    (∀ i j a b, σ.Returned i a → σ.Returned j b → i = j) ∧
    (∀ i e, σ.Raised i e → e = invalidResetToken) ∧
    (∀ i a, σ.Returned i a → ∀ r ∈ σ.db.users, r.id = u.id → r.password = ⟨(cs i).newPassword⟩) := by
  intro σ
  have ⟨phase, hp, h⟩ : ∃ phase, σ.InPhase (fun i => Resetting d token t u (cs i)) phase ∧
      OneShot d token u cs σ.db phase :=
    run_induction_along (P := fun σ => ∃ phase, σ.InPhase (fun i => Resetting d token t u (cs i)) phase ∧
      OneShot d token u cs σ.db phase) ha
      ⟨fun _ => .reading, fun _ => .start, .pending nofun nofun⟩
      fun _ _ ha ⟨_, hp, h⟩ => h.step ht hp ha
  have hr : ∀ i a, σ.Returned i a → phase i = .returned := fun i a hi => (hp i).of_returned hi
  generalize hv : σ.db = v at h
  refine ⟨fun i j a b hi hj => ?_, fun i e => (hp i).of_raised, fun i a hi r hm hk => ?_⟩
  · cases h
    case pending hn _     => exact (hn i <| hr i a hi).elim
    case settled _ hs _   => exact ((hs i).mp <| hr i a hi).trans ((hs j).mp <| hr j b hj).symm
  · cases h
    case pending hn _       => exact (hn i <| hr i a hi).elim
    case settled k hw hs _  =>
      rw [(hs i).mp <| hr i a hi]
      rw [hw.users] at hm
      cases Table.mem_put.mp hm
      case inl he => rw [he]
      case inr hn => exact (hn.right <| congrArg Key.user hk).elim

end System

section Example

def exampleToken : PasswordResetToken where
  id        := 1
  userId    := 1
  tokenHash := hashToken "token"
  expiresAt := .midnight 739001
  usedAt    := none

def exampleResets : Database :=
  { Database.empty with
    users       := .put .empty Seed.user
    resetTokens := .put .empty exampleToken }

-- Two calls with the same token and different passwords.
def exampleReset (i : Fin 2) : Reset :=
  ⟨if i = 0 then "first-password" else "second-password", .midnight 739000, .midnight 739000⟩

theorem exampleResets_isResetToken : IsResetToken exampleResets "token" exampleToken Seed.user where
  found   := rfl
  unique  := by decide
  fits    := by decide

-- The second call checks the token only after the first one has committed.
theorem reset_token_used_in_turn :
    let σ := (System.start exampleResets fun i => (exampleReset i).service "token").run
      (.replicate 6 (.go 0) ++ .replicate 3 (.go 1))
    (∀ i j a b, σ.Returned i a → σ.Returned j b → i = j) ∧
    (∀ i e, σ.Raised i e → e = invalidResetToken) ∧
    (∀ i a, σ.Returned i a → ∀ r ∈ σ.db.users, r.id = 1 → r.password = ⟨(exampleReset i).newPassword⟩) :=
  reset_token_one_shot exampleResets "token" exampleToken Seed.user exampleReset _
    exampleResets_isResetToken <| by decide

-- Both calls check the token before either of them has committed, and both return normally.
theorem reset_token_used_twice :
    IsResetToken exampleResets "token" exampleToken Seed.user ∧
    let σ := (System.start exampleResets fun i => (exampleReset i).service "token").run
      (.replicate 2 (.go 0) ++ .replicate 2 (.go 1) ++ .replicate 4 (.go 0) ++ .replicate 4 (.go 1))
    ¬∀ i j a b, σ.Returned i a → σ.Returned j b → i = j :=
  ⟨exampleResets_isResetToken, fun h => absurd
    (h 0 1 { Seed.user with password := ⟨"first-password"⟩ }
      { Seed.user with password := ⟨"second-password"⟩ } (by decide +kernel) (by decide +kernel)) <| by decide⟩

end Example
end SaasBackend
