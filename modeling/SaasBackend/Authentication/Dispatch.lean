import SaasBackend.Authentication.Signup
import SaasBackend.ReadCommitted.Phases
import SaasBackend.ReadCommitted.Runs

open Calendar ReadCommitted ReadCommitted.Service

namespace SaasBackend

open Service

structure Mail where
  subject   : String
  address   : String
  template  : String
  verifyUrl : String
  ttlHours  : Nat
  deriving DecidableEq

-- `send_verification_email`, where SMTP succeeds. It ends without a mail if the user is not found.
def sendVerificationEmail (frontendUrl : String) (d : Database) (message : Message) : Option Mail :=
  (d.users.lookup <| .user message.user).map fun user => {
    subject   := "Verify your email address"
    address   := user.email
    template  := "verification"
    verifyUrl := .ofList (frontendUrl.toList.rdropWhile (· = '/')) ++ "/verify-email?token=" ++ message.token
    ttlHours  := emailVerificationTokenTtlHours
  }

-- The part of `register_user` that precedes the message.
def prepareRegistration (p : Platform) (email password firstName lastName : String) (e : Enrollment)
    (i : TokenIssue) : Service (User × Message) := do
  let user ← createUser p email password firstName lastName .customer e
  let message ← createVerificationToken user.id i
  return (user, message)

section Prepare

variable {p : Platform} {email password firstName lastName : String} {e : Enrollment} {i : TokenIssue}
  {d d' : Database} {u : User} {m : Message}

theorem registerUser_eq : registerUser p email password firstName lastName e i = atomic do
    let x ← prepareRegistration p email password firstName lastName e i
    x.2.delay
    return x.1 := by
  simp only [registerUser, prepareRegistration, issueVerificationToken, bind_assoc, pure_bind]

theorem registerUser_run_of_prepare
    (h : (prepareRegistration p email password firstName lastName e i).run d = (.ok (u, m), d')) :
    (registerUser p email password firstName lastName e i).run d = (.ok u, d') := by
  rw [registerUser_eq]
  refine run_atomic_eq_ok.mpr ?_
  rw [run_bind_of_ok h]
  rfl

-- The user is not known before the registration.
theorem prepareRegistration_run_eq_ok
    (h : (prepareRegistration p email password firstName lastName e i).run d = (.ok (u, m), d')) :
    m = ⟨.emailVerification, u.id, i.token⟩ ∧ u ∈ d'.users ∧ ∀ r ∈ d.users, r.id ≠ u.id := by
  obtain ⟨user, d₁, h₁, h⟩ := run_bind_eq_ok.mp h
  obtain ⟨message, d₂, h₂, h⟩ := run_bind_eq_ok.mp h
  obtain ⟨exp, d₃, h₃, h₅⟩ := run_bind_eq_ok.mp h₂
  obtain ⟨_, d₄, h₄, h₆⟩ := run_bind_eq_ok.mp h₅
  obtain ⟨_, hd₃⟩ := run_ofExcept_eq_ok.mp h₃
  obtain ⟨_, _, ha, _, hb⟩ := createUser_run_eq_ok h₁
  obtain ⟨_, hd⟩ := run_create_eq_ok h₄
  cases h₆
  cases h
  refine ⟨rfl, ?_, fun r hr hi => accepts_new ha r hr <| congrArg Key.user hi⟩
  have hu : d₁.users = d.users.put u := by
    rw [hb]
    rfl
  have hp : u ∈ d₃.users := hd₃ ▸ hu ▸ Table.mem_put_self ..
  have hp : u ∈ d₄.users := hd ▸ hp
  exact hp

end Prepare

-- The transaction of `register_user`: it executes its statements, it has handed the message over to
-- the broker, it is committed or it is rolled back.
inductive Registration
  | body (s : Session Database Write Exn (User × Message))
  | handedOver (user : User) (writes : List Write)
  | committed (user : User)
  | rolledBack

-- The message to the task `send_verification_email`.
inductive Delivery
  | idle
  | queued (message : Message)
  | taken (message : Message)
  | done (message : Message) (mail : Option Mail)

def Delivery.message? : Delivery → Option Message
  | idle                          => none
  | queued m | taken m | done m _ => some m

def Delivery.isTaken : Delivery → Bool
  | taken _ => true
  | _       => false

-- The task has ended without a mail.
def Delivery.isLost : Delivery → Bool
  | done _ none => true
  | _           => false

def Registration.isCommitted : Registration → Bool
  | committed _ => true
  | _           => false

structure Dispatch where
  db           : Database
  registration : Registration
  delivery     : Delivery

namespace Dispatch

-- A statement of the transaction, the hand-over to the broker, the end of the transaction, and what a
-- worker does.
inductive Event
  | statement
  | delay
  | commit
  | rollback
  | take
  | send
  deriving DecidableEq

def start (s : Service (User × Message)) (d : Database) : Dispatch where
  db           := d
  registration := .body ⟨s.program, [[]]⟩
  delivery     := .idle

-- An event for which it is not the time has no effect.
def step (frontendUrl : String) (σ : Dispatch) : Event → Dispatch
  | .statement  =>
    match σ.registration with
    | .body s => { σ with db := (s.advance σ.db).1, registration := .body (s.advance σ.db).2 }
    | _       => σ
  | .delay      =>
    match σ.registration with
    | .body ⟨.ret (user, message), frames⟩ =>
      { σ with registration := .handedOver user (Session.uncommitted frames), delivery := .queued message }
    | _                                    => σ
  | .commit     =>
    match σ.registration with
    | .handedOver user ws => { σ with db := Store.applyAll σ.db ws, registration := .committed user }
    | _                   => σ
  | .rollback   =>
    match σ.registration with
    | .body _ | .handedOver _ _ => { σ with registration := .rolledBack }
    | _                         => σ
  | .take       =>
    match σ.delivery with
    | .queued message => { σ with delivery := .taken message }
    | _               => σ
  | .send       =>
    match σ.delivery with
    | .taken message  => { σ with delivery := .done message <| sendVerificationEmail frontendUrl σ.db message }
    | _               => σ

def run (frontendUrl : String) (σ : Dispatch) (es : List Event) : Dispatch :=
  es.foldl (step frontendUrl) σ

-- A worker runs the task only when the transaction has committed.
def SendsCommitted (σ : Dispatch) (event : Event) : Prop :=
  event = .send → σ.delivery.isTaken → σ.registration.isCommitted

instance (σ : Dispatch) (event : Event) : Decidable (σ.SendsCommitted event) :=
  inferInstanceAs <| Decidable (_ → _ → _)

-- What the database and the message are, as the transaction goes on. The service is the one that
-- prepares the registration in the database `d`.
def Inv (s : Service (User × Message)) (d : Database) (σ : Dispatch) : Prop :=
  match σ.registration with
  | .body t             => σ.db = d ∧ σ.delivery = .idle ∧ t.Leads d ((s.run d).1, [d], (s.run d).2)
  | .handedOver user ws => σ.db = d ∧
      ∃ m, s.run d = (.ok (user, m), Store.applyAll d ws) ∧ σ.delivery.message? = some m
  | .committed user     => ∃ m, s.run d = (.ok (user, m), σ.db) ∧ σ.delivery.message? = some m
  | .rolledBack         => True

section Run

variable {s : Service (User × Message)} {d : Database} {σ : Dispatch} {frontendUrl : String}

theorem Inv.start (s : Service (User × Message)) (d : Database) : Inv s d (start s d) :=
  ⟨rfl, rfl, .start s d⟩

theorem Inv.step (h : Inv s d σ) (event : Event) : Inv s d (σ.step frontendUrl event) := by
  obtain ⟨db, registration, delivery⟩ := σ
  cases registration
  case body t =>
    obtain ⟨hd, hi, hl⟩ := h
    dsimp only at hd hi
    subst hd hi
    cases event
    case statement  =>
      obtain ⟨hd, hl⟩ := hl.advance
      exact ⟨hd, rfl, hl⟩
    case delay      =>
      obtain ⟨p, fs⟩ := t
      cases p
      case ret x  =>
        obtain ⟨hr, hv⟩ := hl.ended rfl
        exact ⟨rfl, x.2, Prod.ext hr hv, rfl⟩
      all_goals exact ⟨rfl, rfl, hl⟩
    case rollback   => trivial
    all_goals exact ⟨rfl, rfl, hl⟩
  case handedOver u ws =>
    obtain ⟨hd, m, hs, hm⟩ := h
    dsimp only at hd hm
    subst hd
    cases event
    case statement | delay  => exact ⟨rfl, m, hs, hm⟩
    case commit             => exact ⟨m, hs, hm⟩
    case rollback           => trivial
    case take | send        => cases delivery <;> exact ⟨rfl, m, hs, hm⟩
  case committed u =>
    obtain ⟨m, hs, hm⟩ := h
    cases event
    case take | send  => cases delivery <;> exact ⟨m, hs, hm⟩
    all_goals exact ⟨m, hs, hm⟩
  case rolledBack => cases event <;> cases delivery <;> trivial

theorem Inv.run (h : Inv s d σ) (es : List Event) : Inv s d (σ.run frontendUrl es) := by
  induction es generalizing σ
  case nil              => exact h
  case cons event es hi => exact hi <| h.step event

-- What is needed of the service: the message is about a user who is new in the database.
def AddsUser (s : Service (User × Message)) (d : Database) : Prop :=
  ∀ u m d', s.run d = (.ok (u, m), d') →
    (d.users.lookup <| .user m.user) = none ∧ (d'.users.lookup <| .user m.user).isSome

-- A transaction which has been rolled back stays so.
theorem not_isCommitted_run (h : σ.registration = .rolledBack) (es : List Event) :
    ¬(σ.run frontendUrl es).registration.isCommitted := by
  induction es generalizing σ
  case nil              =>
    rw [run, List.foldl_nil, h]
    exact Bool.false_ne_true
  case cons event es hi =>
    refine hi ?_
    cases event <;> simp only [Dispatch.step, h] <;> split <;> first | exact h | rfl

-- Only the task itself can lose a mail.
theorem isLost_step_of_not_send (h : Inv s d σ) {event : Event} (hs : event = .send → ¬σ.delivery.isTaken) :
    (σ.step frontendUrl event).delivery.isLost = σ.delivery.isLost := by
  obtain ⟨db, registration, delivery⟩ := σ
  cases event
  case send       =>
    cases delivery
    case taken m  => exact (hs rfl rfl).elim
    all_goals rfl
  case take       => cases delivery <;> rfl
  case delay      =>
    cases registration
    case body t   =>
      obtain ⟨_, hi, _⟩ := h
      dsimp only at hi
      subst hi
      obtain ⟨p, fs⟩ := t
      cases p <;> rfl
    all_goals rfl
  case statement | commit | rollback => cases registration <;> rfl

theorem isLost_send (m : Message) (registration : Registration) (db : Database) :
    (step frontendUrl ⟨db, registration, .taken m⟩ .send).delivery.isLost ↔
      db.users.lookup (.user m.user) = none := by
  cases hl : db.users.lookup (.user m.user) <;> simp [step, sendVerificationEmail, hl, Delivery.isLost]

-- A mail is lost exactly if the task is run before the transaction has committed.
theorem isLost_step_iff (ha : AddsUser s d) (h : Inv s d σ) (hr : σ.registration ≠ .rolledBack) (event : Event) :
    ¬(σ.step frontendUrl event).delivery.isLost ↔ ¬σ.delivery.isLost ∧ σ.SendsCommitted event := by
  by_cases hs : event = .send ∧ σ.delivery.isTaken
  case neg =>
    have hc : σ.SendsCommitted event := fun he ht => (hs ⟨he, ht⟩).elim
    rw [isLost_step_of_not_send h fun he ht => hs ⟨he, ht⟩]
    exact (and_iff_left hc).symm
  case pos =>
    obtain ⟨db, registration, delivery⟩ := σ
    obtain ⟨rfl, ht⟩ := hs
    cases delivery
    case taken m  =>
      rw [isLost_send]
      refine Iff.trans ?_ (and_iff_right Bool.false_ne_true).symm
      cases registration
      case body             => cases h.right.left
      case rolledBack       => exact (hr rfl).elim
      case handedOver u ws  =>
        obtain ⟨hd, m', hs, hm⟩ := h
        dsimp only at hd
        cases hm
        cases hd
        exact iff_of_false (not_not_intro (ha _ _ _ hs).left) fun hc => Bool.false_ne_true <| hc rfl rfl
      case committed u      =>
        obtain ⟨m', hs, hm⟩ := h
        cases hm
        exact iff_of_true (Option.isSome_iff_ne_none.mp (ha _ _ _ hs).right) fun _ _ => rfl
    all_goals cases ht

-- For a run which commits, step by step.
theorem isLost_run_iff (ha : AddsUser s d) (h : Inv s d σ) {es : List Event}
    (hc : (σ.run frontendUrl es).registration.isCommitted) :
    ¬(σ.run frontendUrl es).delivery.isLost ↔ ¬σ.delivery.isLost ∧ Throughout (step frontendUrl) SendsCommitted σ es := by
  induction es generalizing σ
  case nil              => exact (and_iff_left trivial).symm
  case cons event es hi =>
    have hr : σ.registration ≠ .rolledBack := fun hr => not_isCommitted_run hr (event :: es) hc
    refine (hi (h.step event) hc).trans ?_
    rw [isLost_step_iff ha h hr, and_assoc]
    rfl

end Run

end Dispatch

theorem prepareRegistration_addsUser (p : Platform) (email password firstName lastName : String)
    (e : Enrollment) (i : TokenIssue) (d : Database) :
    Dispatch.AddsUser (prepareRegistration p email password firstName lastName e i) d := by
  intro u m d' h
  obtain ⟨rfl, hu, hn⟩ := prepareRegistration_run_eq_ok h
  constructor
  case left   =>
    refine Option.eq_none_iff_forall_ne_some.mpr fun r hr => ?_
    obtain ⟨hr, hk⟩ := Table.lookup_eq_some.mp hr
    exact hn r hr <| Key.user.inj hk
  case right  => exact Option.isSome_iff_exists.mpr ⟨u, Table.lookup_eq_some.mpr ⟨hu, rfl⟩⟩

-- What is committed is what a registration that nobody interferes with leads to.
theorem registration_committed (p : Platform) (frontendUrl email password firstName lastName : String)
    (e : Enrollment) (i : TokenIssue) (d : Database) (es : List Dispatch.Event) :
    let σ := (Dispatch.start (prepareRegistration p email password firstName lastName e i) d).run frontendUrl es
    ∀ u, σ.registration = .committed u →
      (registerUser p email password firstName lastName e i).run d = (.ok u, σ.db) := by
  intro σ u hu
  have h : Dispatch.Inv _ d σ := (Dispatch.Inv.start _ d).run es
  unfold Dispatch.Inv at h
  rw [hu] at h
  obtain ⟨m, hs, _⟩ := h
  exact registerUser_run_of_prepare hs

-- In a run in which the registration is committed, its mail is not lost exactly if no worker runs the
-- task before that.
theorem verification_mail_sent_iff (p : Platform) (frontendUrl email password firstName lastName : String)
    (e : Enrollment) (i : TokenIssue) (d : Database) (es : List Dispatch.Event)
    (hc : ((Dispatch.start (prepareRegistration p email password firstName lastName e i) d).run
      frontendUrl es).registration.isCommitted) :
    let σ := Dispatch.start (prepareRegistration p email password firstName lastName e i) d
    ¬(σ.run frontendUrl es).delivery.isLost ↔ Throughout (Dispatch.step frontendUrl) Dispatch.SendsCommitted σ es := by
  intro σ
  have ha := prepareRegistration_addsUser p email password firstName lastName e i d
  exact (Dispatch.isLost_run_iff ha (.start _ d) hc).trans <| and_iff_right Bool.false_ne_true

section Example

def exampleDispatch : Dispatch :=
  .start (prepareRegistration .ascii "user@example.com" "StrongPass!123" "A" "" exampleEnrollment exampleIssue)
    Seed.database

def statements : List Dispatch.Event :=
  .replicate 10 .statement

theorem mail_sent_after_commit :
    ¬(exampleDispatch.run "https://example.com/" <| statements ++ [.delay, .take, .commit, .send]).delivery.isLost := by
  refine (verification_mail_sent_iff _ _ _ _ _ _ _ _ _ _ ?_).mpr ?_ <;> decide +kernel

-- The worker is faster than the commit, and finds no user.
theorem mail_lost_before_commit :
    ¬∀ (p : Platform) (frontendUrl email password firstName lastName : String) (e : Enrollment)
      (i : TokenIssue) (d : Database) (es : List Dispatch.Event),
      let σ := Dispatch.start (prepareRegistration p email password firstName lastName e i) d
      (σ.run frontendUrl es).registration.isCommitted → ¬(σ.run frontendUrl es).delivery.isLost := by
  intro h
  have h := h .ascii "https://example.com/" "user@example.com" "StrongPass!123" "A" "" exampleEnrollment
    exampleIssue Seed.database (statements ++ [.delay, .take, .send, .commit]) (by decide +kernel)
  exact h <| by decide +kernel

end Example

end SaasBackend
