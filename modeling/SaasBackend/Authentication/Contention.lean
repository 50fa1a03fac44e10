import SaasBackend.Authentication.Accounts
import SaasBackend.Authentication.Resets
import SaasBackend.ReadCommitted.Unhandled
import SaasBackend.Subscriptions.Seed
import SaasBackend.Users.Addresses

open Calendar ReadCommitted ReadCommitted.Service

namespace SaasBackend

open Service

section Enrolled

variable {R : Type} [Entity R Key]

-- The row is the only one of its kind.
def IsOnly (t : Table R) (P : R → Prop) (r : R) : Prop :=
  ∀ x, x ∈ t ∧ P x ↔ x = r

theorem isOnly_put {t : Table R} {P : R → Prop} {n : R} (h : ∀ r ∈ t, ¬P r) (hn : P n) :
    IsOnly (t.put n) P n := by
  intro x
  rw [Table.mem_put]
  constructor
  case mp   => exact fun ⟨hx, hp⟩ => hx.elim id fun hx => (h x hx.left hp).elim
  case mpr  => exact fun hx => ⟨.inl hx, hx ▸ hn⟩

-- The references between rows are intact.
structure IsLinked (d : Database) : Prop where
  subscriptions : ∀ s ∈ d.subscriptions, ∃ u ∈ d.users, u.id = s.userId
  quotas        : ∀ q ∈ d.quotas, ∃ s ∈ d.subscriptions, s.id = q.subscriptionId
  tokens        : ∀ t ∈ d.verificationTokens, ∃ u ∈ d.users, u.id = t.userId

-- What belongs to a user who has just registered.
structure IsEnrolled (u : User) (s : Subscription) (q : UsageQuota) (t : EmailVerificationToken) (d : Database) :
    Prop where
  user         : u ∈ d.users
  subscription : IsOnly d.subscriptions (·.userId = u.id) s
  active       : s.status = .active
  plan         : ∃ plan ∈ d.plans, plan.slug = PlanSlug.free ∧ s.planId = plan.id
  quota        : IsOnly d.quotas (·.subscriptionId = s.id) q
  unused       : q.requestsUsed = 0
  token        : IsOnly d.verificationTokens (·.userId = u.id) t

variable {d d' : Database} {user : Uuid} {s : LoadedSubscription} {u : User}

theorem createSubscription_run_opens {plan : Plan} {expires : Bool} {o : Opening}
    (h : (createSubscription user plan expires o).run d = (.ok s, d')) :
    ∃ q : UsageQuota, q.subscriptionId = s.id ∧ q.requestsUsed = 0 ∧
      d' = (d.put <| .subscription s.toSubscription).put (.usageQuota q) := by
  obtain ⟨w, d₁, h₁, h⟩ := run_bind_eq_ok.mp h
  obtain ⟨start, finish⟩ := w
  obtain ⟨_, d₂, h₂, h⟩ := run_bind_eq_ok.mp h
  obtain ⟨periodEnd, d₃, h₃, h⟩ := run_bind_eq_ok.mp h
  obtain ⟨_, d₄, h₄, h⟩ := run_bind_eq_ok.mp h
  obtain ⟨_, rfl⟩ := run_ofExcept_eq_ok.mp h₁
  obtain ⟨_, rfl⟩ := run_create_eq_ok h₂
  obtain ⟨_, rfl⟩ := run_ofExcept_eq_ok.mp h₃
  obtain ⟨_, rfl⟩ := run_create_eq_ok h₄
  cases h
  exact ⟨_, rfl, rfl, rfl⟩

theorem enrollInFreePlan_run_opens {o : Opening} (h : (enrollInFreePlan user o).run d = (.ok s, d')) :
    Accepts d ⟨none, .subscription s.toSubscription⟩ ∧ s.userId = user ∧ s.status = .active ∧
    (∃ plan ∈ d.plans, plan.slug = PlanSlug.free ∧ s.planId = plan.id) ∧
    ∃ q : UsageQuota, q.subscriptionId = s.id ∧ q.requestsUsed = 0 ∧
      d' = (d.put <| .subscription s.toSubscription).put (.usageQuota q) := by
  obtain ⟨plan, d₁, h₁, h⟩ := run_bind_eq_ok.mp <| run_atomic_eq_ok.mp h
  obtain ⟨hp, rfl⟩ := run_select_eq_ok.mp h₁
  cases plan
  case none      => cases h
  case some plan =>
    obtain ⟨ha, hu, hs, hi, _⟩ := createSubscription_run_eq_ok h
    obtain ⟨hm, hf, _⟩ := getPlanBySlug_eq_some hp
    exact ⟨ha, hu, hs, ⟨plan, hm, hf, hi⟩, createSubscription_run_opens h⟩

end Enrolled

section Unhandled

theorem unhandled_ofExcept {α : Type} (r : Except Exn α) : (ofExcept r).Unhandled := by
  cases r
  case ok a     => exact .pure a
  case error e  => exact .raise e

theorem createSubscription_unhandled (user : Uuid) (plan : Plan) (expires : Bool) (o : Opening) :
    (createSubscription user plan expires o).Unhandled :=
  .bind (unhandled_ofExcept _) fun _ => .bind (.execute _) fun _ => .bind (unhandled_ofExcept _) fun _ =>
    .bind (.execute _) fun _ => .pure _

theorem enrollInFreePlan_unhandled (user : Uuid) (o : Opening) : (enrollInFreePlan user o).Unhandled := by
  refine .atomic <| .bind (.select _) fun plan => ?_
  cases plan
  case none   => exact .raise _
  case some   => exact createSubscription_unhandled ..

theorem issueVerificationToken_unhandled (user : Uuid) (i : TokenIssue) :
    (issueVerificationToken user i).Unhandled := by
  refine .bind ?_ fun m => .bind (.select _) fun _ => .pure _
  exact .bind (unhandled_ofExcept _) fun _ => .bind (.execute _) fun _ => .pure _

end Unhandled

-- What a call of `register_user` is given, and what it takes from its environment.
structure SignUp where
  email      : String
  password   : String
  firstName  : String
  lastName   : String
  enrollment : Enrollment
  issue      : TokenIssue

def emailTaken : Exn :=
  .conflict "An account with this email already exists." "email_taken"

namespace SignUp

variable (p : Platform) (c : SignUp)

def service : Service User :=
  registerUser p c.email c.password c.firstName c.lastName c.enrollment c.issue

-- The parts of the program: what follows once the address is found to be free, the block of
-- `create_user`, and the block of `register_user`.
def createAccount : Service User := do
  let user ← UserManager.createUser p c.email c.password (Text.strip c.firstName) (Text.strip c.lastName)
    .customer c.enrollment.id
  let _ ← enrollInFreePlan user.id c.enrollment.opening
  return user

def checkEmail : Service User := do
  match ← select (getUserByEmail p · c.email) with
  | some _  => raise emailTaken
  | none    => c.createAccount p

def finish (user : User) : Service User := do
  let _ ← issueVerificationToken user.id c.issue
  return user

def body : Service User := do
  let user ← atomic (c.checkEmail p)
  c.finish user

theorem createAccount_unhandled : (c.createAccount p).Unhandled := by
  refine .bind ?_ fun _ => .bind (enrollInFreePlan_unhandled ..) fun _ => .pure _
  unfold UserManager.createUser
  split
  case isTrue   => exact .raise _
  case isFalse  => exact .bind (.execute _) fun _ => .pure _

theorem finish_unhandled (user : User) : (c.finish user).Unhandled :=
  .bind (issueVerificationToken_unhandled ..) fun _ => .pure _

variable {p c} {d v : Database} {u : User}

-- What a successful registration that nobody interferes with does.
theorem service_run_eq_ok (h : (c.service p).run d = (.ok u, v)) :
    getUserByEmail p d c.email = none ∧ c.email ≠ "" ∧ v.users = d.users.put u ∧
    u.email = Text.lower p (normalizeEmail p c.email) ∧
    (IsLinked d → ∃ s q t, IsEnrolled u s q t v) := by
  obtain ⟨user, d₁, h₁, h₂⟩ := run_bind_eq_ok.mp <| run_atomic_eq_ok.mp h
  obtain ⟨found, d₂, h₃, h₄⟩ := run_bind_eq_ok.mp <| run_atomic_eq_ok.mp h₁
  obtain ⟨hf, rfl⟩ := run_select_eq_ok.mp h₃
  cases found
  case some => cases h₄
  case none =>
    obtain ⟨user', d₃, h₅, h₆⟩ := run_bind_eq_ok.mp h₄
    obtain ⟨s, d₄, h₇, h₈⟩ := run_bind_eq_ok.mp h₆
    obtain ⟨_, d₅, h₉, h₁₀⟩ := run_bind_eq_ok.mp h₂
    cases h₈
    cases h₁₀
    obtain ⟨hu, _, ha, rfl⟩ := UserManager.createUser_run_eq_ok h₅
    obtain ⟨has, hsu, hs, hpl, q, hq, hq', rfl⟩ := enrollInFreePlan_run_opens h₇
    obtain ⟨_, exp, hat, rfl⟩ := issueVerificationToken_run_eq_ok h₉
    refine ⟨hf, ?_, rfl, ?_, fun hl =>
      ⟨s.toSubscription, q, newToken _ u.id c.issue exp, ?_⟩⟩
    · rintro he
      rw [UserManager.createUser, if_pos he] at h₅
      cases h₅
    · rw [hu]
      rfl
    · have hn : ∀ r ∈ d.users, r.id ≠ u.id := fun r hr hi => accepts_new ha r hr <| congrArg Key.user hi
      constructor
      case user         => exact Table.mem_put_self ..
      case subscription =>
        refine isOnly_put (fun r hr hi => ?_) hsu
        obtain ⟨u', hu', hi'⟩ := hl.subscriptions r hr
        exact hn u' hu' <| hi'.trans hi
      case active       => exact hs
      case plan         => exact hpl
      case quota        =>
        refine isOnly_put (fun r hr hi => ?_) hq
        obtain ⟨s', hs', hi'⟩ := hl.quotas r hr
        exact accepts_new has s' hs' <| congrArg Key.subscription <| hi'.trans hi
      case unused       => exact hq'
      case token        =>
        refine isOnly_put (fun r hr hi => ?_) rfl
        obtain ⟨u', hu', hi'⟩ := hl.tokens r hr
        exact hn u' hu' <| hi'.trans hi

end SignUp

-- How far a call has got: it has not looked the address up yet, it has found the address to be free, or it
-- has ended. A call which is refused still has to leave its blocks.
inductive SignUpPhase
  | checking
  | creating
  | returned
  | refused
  deriving DecidableEq

-- The states of a call in the database `d`, as long as no other call creates an account at the same time.
inductive SigningUp (p : Platform) (d : Database) (c : SignUp) :
    Session Database Write Exn User → SignUpPhase → Prop
  | start       : SigningUp p d c ⟨(c.service p).program, []⟩ .checking
  | opened      : SigningUp p d c ⟨(c.body p).program.closed, [[]]⟩ .checking
  | entered     : SigningUp p d c
      ⟨((c.checkEmail p).program.closed.bind fun u => (c.finish u).program).closed, [[], []]⟩ .checking
  | creating {q fs} (hq : q.Unhandled)
      (hl : Session.Leads ⟨q, fs⟩ d (((c.body p).run d).fst, [d], ((c.body p).run d).snd))
      (he : Session.next ⟨q, fs⟩ d ≠ [] ∨ Session.pending (⟨q, fs⟩ : Session Database Write Exn User) ≠ []) :
    SigningUp p d c ⟨q.closed, fs⟩ .creating
  | returned u (hu : ((c.service p).run d).fst = .ok u) : SigningUp p d c ⟨.ret u, []⟩ .returned
  | taken       : SigningUp p d c ⟨.undo (.undo (.raise emailTaken)), [[], []]⟩ .refused
  | left        : SigningUp p d c ⟨.undo (.raise emailTaken), [[]]⟩ .refused
  | refused     : SigningUp p d c ⟨.raise emailTaken, []⟩ .refused

namespace SigningUp

variable {p : Platform} {d v : Database} {c : SignUp} {u : User} {ses : Session Database Write Exn User}
  {x : SignUpPhase}

theorem advance_entered (p : Platform) (c : SignUp) (v : Database) :
    Session.advance ⟨((c.checkEmail p).program.closed.bind fun u => (c.finish u).program).closed, [[], []]⟩ v =
      (v, ⟨((match getUserByEmail p v c.email with
            | some _  => raise emailTaken
            | none    => c.createAccount p : Service User).program.closed.bind fun u => (c.finish u).program).closed,
          [[], []]⟩) :=
  rfl

-- A call which has found the address to be free is about to create the account.
theorem of_free (h : (c.service p).run d = (.ok u, v)) :
    SigningUp p d c ⟨((c.createAccount p).program.closed.bind fun u => (c.finish u).program).closed, [[], []]⟩
      .creating := by
  obtain ⟨hn, he, _⟩ := SignUp.service_run_eq_ok h
  refine .creating ?_ ?_ ?_
  · exact (c.createAccount_unhandled p).program.closed.bind fun u => (c.finish_unhandled u).program
  · have hl := (Session.Leads.start (c.body p) d).advance.right.advance.right
    have ha : (Session.advance (Session.advance ⟨(c.body p).program, [[]]⟩ d).snd d).snd =
        ⟨(match getUserByEmail p d c.email with
          | some _  => raise emailTaken
          | none    => c.createAccount p : Service User).program.closed.bind fun u => (c.finish u).program,
        [[], []]⟩ := rfl
    rwa [ha, hn] at hl
  · refine .inl ?_
    unfold SignUp.createAccount UserManager.createUser
    rw [if_neg he]
    exact List.cons_ne_nil _ _

-- A call creates the account if nobody interferes.
theorem advance_creating {q : Program Database Write Exn User} {fs : List (List Write)}
    (h : (c.service p).run d = (.ok u, v)) (hq : q.Unhandled)
    (hl : Session.Leads ⟨q, fs⟩ d (((c.body p).run d).fst, [d], ((c.body p).run d).snd))
    (he : Session.next ⟨q, fs⟩ d ≠ [] ∨ Session.pending (⟨q, fs⟩ : Session Database Write Exn User) ≠ []) :
    ∃ y, SigningUp p d c (Session.advance ⟨q.closed, fs⟩ d).snd y ∧
      ((Session.advance ⟨q.closed, fs⟩ d).fst = d ∧ y = .creating ∨
       (Session.advance ⟨q.closed, fs⟩ d).fst = v ∧ y = .returned) := by
  have hr : (c.body p).run d = (.ok u, v) := run_atomic_eq_ok.mp h
  have hstep : q.IsCommand → ∃ y, SigningUp p d c (Session.advance ⟨q.closed, fs⟩ d).snd y ∧
      ((Session.advance ⟨q.closed, fs⟩ d).fst = d ∧ y = .creating ∨
       (Session.advance ⟨q.closed, fs⟩ d).fst = v ∧ y = .returned) := by
    intro hc
    obtain ⟨hd, hl'⟩ := hl.advance
    obtain ⟨hq', hp⟩ := hl.advance_unhandled (congrArg Prod.fst hr) hq
    rw [Session.advance_closed hc]
    refine ⟨_, .creating hq' hl' (.inr ?_), .inl ⟨hd, rfl⟩⟩
    rw [hp]
    exact fun hn => he.elim (· (List.append_eq_nil_iff.mp hn).right) (· (List.append_eq_nil_iff.mp hn).left)
  cases q
  case ret a    =>
    obtain ⟨ha, hv⟩ := hl.ended rfl
    obtain ⟨⟨n, hn, hz⟩, _⟩ := hl
    cases hz
    obtain ⟨f, rfl⟩ := List.length_eq_one_iff.mp hn
    dsimp only at ha hv
    rw [hr] at ha hv
    refine ⟨_, .returned a ?_, .inr ⟨hv.symm, rfl⟩⟩
    rw [h, ha]
  case raise e  =>
    have hx := hl.exec
    rw [hr] at hx
    cases hx
  all_goals exact hstep trivial

-- While the address is free, a call which looks it up goes on to create the account.
theorem advance (hs : (c.service p).run d = (.ok u, v)) (h : SigningUp p d c ses x) (hx : x ≠ .refused) :
    ∃ y, SigningUp p d c (ses.advance d).snd y ∧
      ((ses.advance d).fst = d ∧ (y = x ∨ x = .checking ∧ y = .creating) ∨
       (ses.advance d).fst = v ∧ x = .creating ∧ y = .returned) := by
  cases h
  case start              => exact ⟨_, .opened, .inl ⟨rfl, .inl rfl⟩⟩
  case opened             => exact ⟨_, .entered, .inl ⟨rfl, .inl rfl⟩⟩
  case entered            =>
    rw [advance_entered, (SignUp.service_run_eq_ok hs).left]
    exact ⟨_, of_free hs, .inl ⟨rfl, .inr ⟨rfl, rfl⟩⟩⟩
  case creating hq hl he  =>
    obtain ⟨y, hy, h⟩ := advance_creating hs hq hl he
    rcases h with ⟨hd, rfl⟩ | ⟨hd, rfl⟩
    · exact ⟨_, hy, .inl ⟨hd, .inl rfl⟩⟩
    · exact ⟨_, hy, .inr ⟨hd, rfl, rfl⟩⟩
  case returned u hu      => exact ⟨_, .returned u hu, .inl ⟨rfl, .inl rfl⟩⟩
  all_goals exact (hx rfl).elim

-- Once the address is taken, a call is refused.
theorem advance_taken {w : Database} (hw : (getUserByEmail p w c.email).isSome) (h : SigningUp p d c ses x)
    (hx : x ≠ .creating) :
    ∃ y, SigningUp p d c (ses.advance w).snd y ∧ (ses.advance w).fst = w ∧
      (y = x ∨ x = .checking ∧ y = .refused) := by
  cases h
  case start          => exact ⟨_, .opened, rfl, .inl rfl⟩
  case opened         => exact ⟨_, .entered, rfl, .inl rfl⟩
  case entered        =>
    obtain ⟨u, hu⟩ := Option.isSome_iff_exists.mp hw
    rw [advance_entered, hu]
    exact ⟨_, .taken, rfl, .inr ⟨rfl, rfl⟩⟩
  case creating       => exact (hx rfl).elim
  case returned u hu  => exact ⟨_, .returned u hu, rfl, .inl rfl⟩
  case taken          => exact ⟨_, .left, rfl, .inl rfl⟩
  case left           => exact ⟨_, .refused, rfl, .inl rfl⟩
  case refused        => exact ⟨_, .refused, rfl, .inl rfl⟩

theorem not_engaged (h : SigningUp p d c ses .checking) (w : Database) :
    ¬(ses.next w ≠ [] ∨ ses.pending ≠ []) := by
  cases h
  all_goals exact fun h => h.elim (· rfl) (· rfl)

theorem engaged (h : SigningUp p d c ses .creating) : ses.next d ≠ [] ∨ ses.pending ≠ [] := by
  cases h
  case creating q fs _ _ he =>
    refine he.imp_left fun hn => ?_
    cases q <;> exact hn

theorem of_returned {a : User} (h : SigningUp p d c ses x) (hr : ses.program = .ret a) :
    x = .returned ∧ ((c.service p).run d).fst = .ok a := by
  cases h
  case returned u hu    => cases hr; exact ⟨rfl, hu⟩
  case creating q _ _ _ _ => cases q <;> cases hr
  all_goals cases hr

theorem program_of_returned (h : SigningUp p d c ses .returned) (hr : (c.service p).run d = (.ok u, v)) :
    ses.program = .ret u := by
  cases h
  case returned u' hu =>
    rw [hr] at hu
    cases hu
    rfl

theorem of_raised {e : Exn} (h : SigningUp p d c ses x) (hr : ses.program = .raise e) :
    x = .refused ∧ e = emailTaken := by
  cases h
  case refused          => cases hr; exact ⟨rfl, rfl⟩
  case creating q _ _ _ _ => cases q <;> cases hr
  all_goals cases hr

end SigningUp

section System

open System

variable {ι : Type} [Fintype ι] [DecidableEq ι]

-- Calls with the same address, each of which would succeed if it was the only one.
structure Rivals (p : Platform) (d : Database) (cs : ι → SignUp) : Prop where
  address  : ∀ i, IsAddress (cs i).email
  same     : ∀ i j, SameAddress (cs i).email (cs j).email
  succeeds : ∀ i, ∃ u v, ((cs i).service p).run d = (.ok u, v)

-- Either nothing has been committed and at most one call is about to create the account, or exactly one call
-- has created it.
inductive OneAccount (p : Platform) (d : Database) (cs : ι → SignUp) : Database → (ι → SignUpPhase) → Prop
  | free {phase} (hp : ∀ i, phase i = .checking ∨ phase i = .creating)
      (hc : ∀ i j, phase i = .creating → phase j = .creating → i = j) : OneAccount p d cs d phase
  | taken {v phase} (i u) (hr : ((cs i).service p).run d = (.ok u, v)) (hi : phase i = .returned)
      (ho : ∀ j, j ≠ i → phase j = .checking ∨ phase j = .refused) : OneAccount p d cs v phase

omit [Fintype ι] [DecidableEq ι] in
-- The account is found by each of the calls, and only the account.
theorem Rivals.isOnly {p : Platform} {d v : Database} {cs : ι → SignUp} (h : Rivals p d cs) (hp : p.IgnoresCase)
    {i : ι} {u : User} (hr : ((cs i).service p).run d = (.ok u, v)) (j : ι) :
    IsOnly v.users (fun r => p.iexact r.email (Text.strip (cs j).email)) u := by
  obtain ⟨_, _, hu, he, _⟩ := SignUp.service_run_eq_ok hr
  obtain ⟨_, _, hj⟩ := h.succeeds j
  have hn := (SignUp.service_run_eq_ok hj).left
  rw [hu]
  refine isOnly_put (fun r hm hi => ?_) ?_
  · exact List.find?_eq_none.mp hn r hm hi
  · rw [he]
    exact hp.iexact_stored (h.address i) (h.address j) (h.same i j)

omit [Fintype ι] [DecidableEq ι] in
theorem Rivals.found {p : Platform} {d v : Database} {cs : ι → SignUp} (h : Rivals p d cs) (hp : p.IgnoresCase)
    {i : ι} {u : User} (hr : ((cs i).service p).run d = (.ok u, v)) (j : ι) :
    (getUserByEmail p v (cs j).email).isSome := by
  obtain ⟨hm, hi⟩ := (h.isOnly hp hr j u).mpr rfl
  exact List.find?_isSome.mpr ⟨u, hm, hi⟩

namespace OneAccount

variable {p : Platform} {d v : Database} {cs : ι → SignUp} {σ : Backend ι User} {phase : ι → SignUpPhase}

omit [Fintype ι] in
-- A call finds the address to be free.
theorem start_creating (hp : ∀ i, phase i = .checking ∨ phase i = .creating) (hc : ∀ j, phase j ≠ .creating)
    (i : ι) : OneAccount p d cs d (Function.update phase i .creating) := by
  have hi : ∀ j, Function.update phase i .creating j = .creating → j = i :=
    (Function.forall_update_iff phase fun j x => x = .creating → j = i).mpr
      ⟨fun _ => rfl, fun j _ hj => (hc j hj).elim⟩
  refine .free ?_ fun j k hj hk => (hi j hj).trans (hi k hk).symm
  exact (Function.forall_update_iff phase fun _ x => x = .checking ∨ x = .creating).mpr ⟨.inr rfl, fun j _ => hp j⟩

omit [Fintype ι] in
-- The call which has found the address to be free commits.
theorem finish_creating {i : ι} {u : User} (hp : ∀ i, phase i = .checking ∨ phase i = .creating)
    (hc : ∀ i j, phase i = .creating → phase j = .creating → i = j) (hi : phase i = .creating)
    (hr : ((cs i).service p).run d = (.ok u, v)) : OneAccount p d cs v (Function.update phase i .returned) := by
  refine .taken i u hr (Function.update_self ..) fun j hj => .inl ?_
  rw [Function.update_of_ne hj]
  exact (hp j).resolve_right fun hc' => hj <| hc j i hc' hi

omit [Fintype ι] in
-- A call finds the address to be taken.
theorem refuse {i k : ι} {u : User} (hr : ((cs k).service p).run d = (.ok u, v)) (hk : phase k = .returned)
    (ho : ∀ j, j ≠ k → phase j = .checking ∨ phase j = .refused) (hi : phase i = .checking) :
    OneAccount p d cs v (Function.update phase i .refused) := by
  have hn : k ≠ i := by
    rintro rfl
    cases hi.symm.trans hk
  refine .taken k u hr ((Function.update_of_ne hn ..).trans hk) ?_
  exact (Function.forall_update_iff phase fun j x => j ≠ k → x = .checking ∨ x = .refused).mpr
    ⟨fun _ => .inr rfl, fun j _ => ho j⟩

theorem step (hc : Rivals p d cs) (hp : p.IgnoresCase) (h : OneAccount p d cs σ.db phase)
    (hs : σ.InPhase (fun i => SigningUp p d (cs i)) phase) {a : Action ι Exn} (ha : Exclusively σ a) :
    ∃ phase, (σ.step a).InPhase (fun i => SigningUp p d (cs i)) phase ∧ OneAccount p d cs (σ.step a).db phase := by
  rcases step_cases (σ := σ) a with h' | ⟨i, _, _, h'⟩ | ⟨i, e, rfl, _⟩
  · exact ⟨phase, h'.symm ▸ hs, h'.symm ▸ h⟩
  · generalize hv : σ.db = v at h
    cases h
    case free hp' hc' =>
      obtain ⟨u, v, hr⟩ := hc.succeeds i
      have hx : phase i ≠ .refused := fun hx => by cases hx ▸ hp' i <;> simp_all
      obtain ⟨y, hy, hd⟩ := (hs i).advance hr hx
      rw [h', hv]
      refine ⟨_, hs.update hy, ?_⟩
      rcases hd with ⟨hd, rfl | ⟨hi, rfl⟩⟩ | ⟨hd, hi, rfl⟩
      · simp only [hd, Function.update_eq_self]
        exact .free hp' hc'
      · simp only [hd]
        refine start_creating hp' (fun j hj => ha.right i ((hi ▸ hs i).not_engaged _) ?_ j ?_) i
        · rw [h', hv]
          simp only [Engaged, Function.update_self, hd]
          exact hy.engaged
        · rw [Engaged, hv]
          exact (hj ▸ hs j).engaged
      · simp only [hd]
        exact finish_creating hp' hc' hi hr
    case taken k u hr hk ho =>
      have hx : phase i ≠ .creating := by
        intro hx
        by_cases hi : i = k
        case pos => cases hx.symm.trans <| hi ▸ hk
        case neg => cases hx ▸ ho i hi <;> simp_all
      obtain ⟨y, hy, hd, hxy⟩ := (hs i).advance_taken (hc.found hp hr i) hx
      rw [h', hv]
      refine ⟨_, hs.update hy, ?_⟩
      simp only [hd]
      rcases hxy with rfl | ⟨hi, rfl⟩
      · rw [Function.update_eq_self]
        exact .taken k u hr hk ho
      · exact refuse hr hk ho hi
  · cases ha.left

end OneAccount

-- In every interleaving in which no call finds the address to be free while another call is about to create
-- the account, exactly one call creates it, and the others are told that the address is taken.
theorem registered_once (p : Platform) (d : Database) (cs : ι → SignUp) (as : List (Action ι Exn))
    (hp : p.IgnoresCase) (hd : IsLinked d) (hc : Rivals p d cs)
    (ha : Along Exclusively (.start d fun i => (cs i).service p) as) :
    let σ := (System.start d fun i => (cs i).service p).run as
    (σ.db = d ∧ ∀ i, (∀ u, ¬σ.Returned i u) ∧ ∀ e, ¬σ.Raised i e) ∨
    ∃ i u, σ.Returned i u ∧ ((cs i).service p).run d = (.ok u, σ.db) ∧
      (∀ j, IsOnly σ.db.users (fun r => p.iexact r.email (Text.strip (cs j).email)) u) ∧
      (∃ s q t, IsEnrolled u s q t σ.db) ∧
      ∀ j, j ≠ i → (∀ w, ¬σ.Returned j w) ∧ ∀ e, σ.Raised j e → e = emailTaken := by
  intro σ
  obtain ⟨phase, hs, h⟩ : ∃ phase, σ.InPhase (fun i => SigningUp p d (cs i)) phase ∧
      OneAccount p d cs σ.db phase :=
    run_induction_along (P := fun σ => ∃ phase, σ.InPhase (fun i => SigningUp p d (cs i)) phase ∧
      OneAccount p d cs σ.db phase) ha
      ⟨fun _ => .checking, fun _ => .start, .free (fun _ => .inl rfl) fun _ _ h => by cases h⟩
      fun _ _ ha ⟨_, hs, h⟩ => h.step hc hp hs ha
  generalize hv : σ.db = v at h
  cases h
  case free hp' _ =>
    refine .inl ⟨rfl, fun i => ⟨fun u hu => ?_, fun e he => ?_⟩⟩
    · have hi := ((hs i).of_returned hu).left
      cases hi ▸ hp' i <;> simp_all
    · have hi := ((hs i).of_raised he).left
      cases hi ▸ hp' i <;> simp_all
  case taken i u hr hi ho =>
    obtain ⟨_, _, _, _, hn⟩ := SignUp.service_run_eq_ok hr
    have hu : σ.Returned i u := (hi ▸ hs i).program_of_returned hr
    refine .inr ⟨i, u, hu, hr, hc.isOnly hp hr, hn hd, fun j hj => ⟨fun w hw => ?_, ?_⟩⟩
    · have hj' := ((hs j).of_returned hw).left
      cases hj' ▸ ho j hj <;> simp_all
    · exact fun e he => ((hs j).of_raised he).right

end System

section Example

-- Two registrations with the same address, which is spelled in different ways.
def exampleSignUps (i : Fin 2) : SignUp :=
  if i.val = 0 then
    ⟨"user@example.com", "first-password", "A", "", ⟨1, ⟨.midnight 739000, 1, 1⟩⟩, ⟨"first", 1, .midnight 739000⟩⟩
  else
    ⟨" User@Example.com", "second-password", "A", "", ⟨2, ⟨.midnight 739000, 2, 2⟩⟩, ⟨"second", 2, .midnight 739000⟩⟩

theorem ascii_ignoresCase : Platform.ascii.IgnoresCase where
  iexact_iff _ _ _ _ := decide_eq_true_iff

theorem seed_isLinked : IsLinked Seed.database where
  subscriptions := by decide
  quotas        := by decide
  tokens        := by decide

theorem exampleSignUps_rivals : Rivals .ascii Seed.database exampleSignUps where
  address i   := by
    have h : ∀ i, (Text.strip (exampleSignUps i).email).toList.all Text.isAscii := by decide +kernel
    exact ⟨List.all_eq_true.mp <| h i, by revert i; decide +kernel⟩
  same        := by unfold SameAddress; decide +kernel
  succeeds i  := by
    have h : ((((exampleSignUps i).service .ascii).run Seed.database).fst.toOption).isSome := by
      revert i
      decide +kernel
    obtain ⟨u, hu⟩ := Option.isSome_iff_exists.mp h
    exact ⟨u, _, run_eq_ok hu⟩

-- The second call only looks the address up after the first one has committed.
theorem registered_in_turn :
    let σ := (System.start Seed.database fun i => (exampleSignUps i).service .ascii).run
      (.replicate 14 (.go 0) ++ .replicate 5 (.go 1))
    (σ.db = Seed.database ∧ ∀ i, (∀ u, ¬σ.Returned i u) ∧ ∀ e, ¬σ.Raised i e) ∨
    ∃ i u, σ.Returned i u ∧ ((exampleSignUps i).service .ascii).run Seed.database = (.ok u, σ.db) ∧
      (∀ j, IsOnly σ.db.users (fun r => Platform.ascii.iexact r.email (Text.strip (exampleSignUps j).email)) u) ∧
      (∃ s q t, IsEnrolled u s q t σ.db) ∧
      ∀ j, j ≠ i → (∀ w, ¬σ.Returned j w) ∧ ∀ e, σ.Raised j e → e = emailTaken :=
  registered_once .ascii Seed.database exampleSignUps _ ascii_ignoresCase seed_isLinked exampleSignUps_rivals <| by
    decide +kernel

def isIntegrityError : Program Database Write Exn User → Bool
  | .raise .integrityError  => true
  | _                       => false

-- Both calls look the address up before either of them has committed. The unique index refuses the second
-- account, which `create_user` does not translate.
theorem registered_with_integrity_error :
    Rivals .ascii Seed.database exampleSignUps ∧
    ¬∀ as : List (Action (Fin 2) Exn), (∀ a ∈ as, a.isGo) →
      let σ := (System.start Seed.database fun i => (exampleSignUps i).service .ascii).run as
      ∀ i e, σ.Raised i e → e = emailTaken := by
  refine ⟨exampleSignUps_rivals, fun h => ?_⟩
  have h := h (.replicate 3 (.go 1) ++ .replicate 14 (.go 0) ++ .replicate 3 (.go 1)) (by decide) 1 .integrityError
  have hr : isIntegrityError <| (((System.start Seed.database fun i => (exampleSignUps i).service .ascii).run
    (.replicate 3 (.go 1) ++ .replicate 14 (.go 0) ++ .replicate 3 (.go 1))).session 1).program := by
      decide +kernel
  unfold isIntegrityError at hr
  split at hr
  case h_1 he => cases h he
  case h_2    => cases hr

end Example
end SaasBackend
