import SaasBackend.Authentication.ResetHistory
import SaasBackend.Authentication.Serializers
import SaasBackend.Common.ExceptionHandler
import SaasBackend.Subscriptions.Seed

open Calendar ReadCommitted ReadCommitted.Service

namespace SaasBackend

open Service

-- The envelope of all responses that report success.
def success (data : Option Json) (message : String) (status : Nat := 200) : Response where
  data   := .obj <| ("success", .bool true) ::
              (if message = "" then [] else [("message", .str message)]) ++
              (data.map fun d => ("data", d)).toList
  status := status

-- What comes of handing a message over to the broker, which may raise.
abbrev Handover := Except Exn Unit

-- `delay`, where the broker may raise.
def Message.delayTo (broker : Handover) (m : Message) : Service Unit := do
  m.delay
  ofExcept broker

-- `issue_verification_token`, where the broker may raise.
def issueVerificationTokenTo (broker : Handover) (user : Uuid) (i : TokenIssue) : Service String := do
  let message ← createVerificationToken user i
  message.delayTo broker
  return message.token

-- `resend_verification`, where the broker may raise.
def resendVerificationTo (broker : Handover) (p : Platform) (email : String) (i : TokenIssue) :
    Service Unit := do
  match ← select (getUserByEmail p · email) with
  | none   => return ()
  | some u =>
    if u.isVerified then return ()
    else do
      let _ ← issueVerificationTokenTo broker u.id i
      return ()

-- `request_password_reset`, where the broker may raise.
def requestPasswordResetTo (broker : Handover) (p : Platform) (email : String) (i : TokenIssue) :
    Service Unit := do
  match ← select (getUserByEmail p · email) with
  | none   => return ()
  | some u =>
    if !u.isActive then return ()
    else do
      let expiresAt ← ofExcept <| defaultExpiry i.now passwordResetTokenTtlHours
      create <| .resetToken <| newToken _ u.id i expiresAt
      Message.delayTo broker ⟨.passwordReset, u.id, i.token⟩

-- `validate` of both `ResendVerificationSerializer` and `PasswordResetRequestSerializer`
def EmailSerializer.validate (p : Platform) (email : String) : Except Exn String := do
  let email ← EmailField.validate p email
  return Text.lower p (Text.strip email)

-- What a view without authentication answers, where `invalid` are the errors of its serializer.
def answer (isPrintable : Char → Bool) (invalid : Detail) : Except Exn Response → Except HandlerError Response
  | .ok response          => .ok response
  | .error (.domain e)    => customExceptionHandler isPrintable (.apiException e.toAPIException : Raised Exn)
  | .error .invalidInput  =>
    customExceptionHandler isPrintable (.apiException ⟨400, "invalid", invalid, []⟩ : Raised Exn)
  | .error e              => customExceptionHandler isPrintable (.other e)

def ResendVerificationView.post (p : Platform) (broker : Handover) (email : String) (i : TokenIssue) :
    Service Response := do
  let email ← ofExcept <| EmailSerializer.validate p email
  resendVerificationTo broker p email i
  return success none "If the email is registered and unverified, a new link has been sent."

def PasswordResetRequestView.post (p : Platform) (broker : Handover) (email : String) (i : TokenIssue) :
    Service Response := do
  let email ← ofExcept <| EmailSerializer.validate p email
  requestPasswordResetTo broker p email i
  return success none "If the email is registered, a reset link has been sent."

-- What is generated for a token is not in use yet.
structure TokenIssue.IsFresh (i : TokenIssue) (d : Database) : Prop where
  verification : ∀ t ∈ d.verificationTokens, t.id ≠ i.id ∧ t.tokenHash ≠ hashToken i.token
  reset        : ∀ t ∈ d.resetTokens, t.id ≠ i.id ∧ t.tokenHash ≠ hashToken i.token

section Broker

-- The services are those which do not consider that the broker may raise, if it does not.
theorem resendVerificationTo_ok (p : Platform) (email : String) (i : TokenIssue) :
    resendVerificationTo (.ok ()) p email i = resendVerification p email i := by
  rfl

theorem requestPasswordResetTo_ok (p : Platform) (email : String) (i : TokenIssue) :
    requestPasswordResetTo (.ok ()) p email i = requestPasswordReset p email i := by
  rfl

end Broker

section Answer

variable {isPrintable : Char → Bool} {invalid : Detail} {response : Response}

theorem status_of_customExceptionHandler {e : APIException} {r : Response}
    (h : customExceptionHandler isPrintable (.apiException e : Raised Exn) = .ok r) :
    r.status = e.statusCode := by
  simp only [customExceptionHandler, translate] at h
  obtain ⟨_, _, h⟩ := except_bind_eq_ok.mp h
  cases h
  rfl

-- No error is answered like a success.
theorem answer_error_ne (hs : response.status = 200) (e : Exn) :
    answer isPrintable invalid (.error e) ≠ .ok response := by
  intro h
  cases e
  case domain e     =>
    have h := (status_of_customExceptionHandler h).symm.trans hs
    revert h
    cases hk : e.kind <;> simp [DomainError.toAPIException, hk, DomainError.Kind.statusCode]
  case invalidInput =>
    have h := (status_of_customExceptionHandler h).symm.trans hs
    simp at h
  all_goals
    cases h
    simp [internalError] at hs

-- If only one of two requests goes on to `x`, then they are answered alike if and only if `x` succeeds.
theorem answer_eq_iff (hs : response.status = 200) (x : Except Exn Unit) (p₁ p₂ : Prop) [Decidable p₁] [Decidable p₂] :
    answer isPrintable invalid (if p₁ then x.map fun _ => response else .ok response) =
      answer isPrintable invalid (if p₂ then x.map fun _ => response else .ok response) ↔
        x = .ok () ∨ (p₁ ↔ p₂) := by
  cases x
  case ok         => simp [Except.map]
  case error e    =>
    have he : answer isPrintable invalid (.error e) ≠ .ok response := answer_error_ne hs e
    by_cases h₁ : p₁ <;> by_cases h₂ : p₂ <;> simp only [h₁, h₂, if_true, if_false, Except.map] <;> simp
    · exact he
    · exact he.symm

end Answer

-- What the issue of a token comes to, where its expiry cannot be represented at the end of the calendar.
def issueOutcome (broker : Handover) (i : TokenIssue) (hours : Nat) : Except Exn Unit := do
  let _ ← defaultExpiry i.now hours
  broker

section Run

variable {p : Platform} {broker : Handover} {email : String} {i : TokenIssue} {d : Database} {user : Uuid}

theorem create_newToken_run {kind : TokenKind} {table : Database → Table (Token kind)} {row : Token kind → Row}
    [IsTable table row] (hf : ∀ t, (row t).fits)
    (h : ∀ t ∈ table d, t.id ≠ i.id ∧ t.tokenHash ≠ hashToken i.token) (expiresAt : Instant) :
    (create <| row <| newToken kind user i expiresAt).run d =
      (.ok (), d.put <| row <| newToken kind user i expiresAt) := by
  refine run_create_of_fits (hf _) (fun t ht hk => (h t ht).left (Key.token.inj hk).right) ?_
  intro t ht k hk hk'
  have hk := (List.mem_singleton.mp hk).symm.trans <| List.mem_singleton.mp hk'
  exact (h t ht).right (Key.tokenHash.inj hk).right.symm

theorem ofExcept_run_error {α : Type} (e : Exn) (d : Database) :
    (ofExcept (.error e) : Service α).run d = (.error e, d) := by
  rfl

-- What comes of a token that is inserted and handed over.
theorem issue_run_fst {kind : TokenKind} {table : Database → Table (Token kind)} {row : Token kind → Row}
    [IsTable table row] (hf : ∀ t, (row t).fits)
    (h : ∀ t ∈ table d, t.id ≠ i.id ∧ t.tokenHash ≠ hashToken i.token) (hours : Nat) (m : Message) :
    ((do
      let expiresAt ← ofExcept <| defaultExpiry i.now hours
      create <| row <| newToken kind user i expiresAt
      m.delayTo broker : Service Unit).run d).1 = issueOutcome broker i hours := by
  rw [issueOutcome]
  generalize defaultExpiry i.now hours = expiry
  cases expiry
  case error e  => rw [run_bind_of_error _ (ofExcept_run_error e d)]; rfl
  case ok exp   =>
    rw [run_bind_of_ok <| run_ofExcept_eq_ok.mpr ⟨rfl, rfl⟩, run_bind_of_ok <| create_newToken_run hf h exp]
    rw [Message.delayTo, Message.delay, run_bind_of_ok (run_select ..)]
    cases broker <;> rfl

theorem resendVerificationTo_run_fst (hi : i.IsFresh d) :
    ((resendVerificationTo broker p email i).run d).1 =
      if (unverifiedUser p d email).isSome then issueOutcome broker i emailVerificationTokenTtlHours else .ok () := by
  have hu : ∀ u : User, (issueVerificationTokenTo broker u.id i >>= fun _ => pure ()).run d = (do
      let expiresAt ← ofExcept <| defaultExpiry i.now emailVerificationTokenTtlHours
      create <| .verificationToken <| newToken _ u.id i expiresAt
      Message.delayTo broker ⟨.emailVerification, u.id, i.token⟩ : Service Unit).run d := by
    intro u
    simp only [issueVerificationTokenTo, createVerificationToken, bind_assoc, pure_bind, bind_pure_unit]
  rw [resendVerificationTo, run_bind_of_ok (run_select ..), unverifiedUser]
  cases getUserByEmail p d email
  case none   => rfl
  case some u =>
    cases hv : u.isVerified
    case true   => simp [hv, Option.filter_some]
    case false  =>
      simp only [hv, Bool.false_eq_true, if_false, Option.filter_some, Bool.not_false, if_true, Option.isSome_some]
      rw [hu]
      exact issue_run_fst (fun _ => rfl) hi.verification ..

theorem requestPasswordResetTo_run_fst (hi : i.IsFresh d) :
    ((requestPasswordResetTo broker p email i).run d).1 =
      if (resettableUser p d email).isSome then issueOutcome broker i passwordResetTokenTtlHours else .ok () := by
  rw [requestPasswordResetTo, run_bind_of_ok (run_select ..), resettableUser]
  cases getUserByEmail p d email
  case none   => rfl
  case some u =>
    cases ha : u.isActive
    case false  => simp [ha, Option.filter_some]
    case true   =>
      simp only [ha, Bool.false_eq_true, if_false, Option.filter_some, Bool.not_true, if_true, Option.isSome_some]
      exact issue_run_fst (fun _ => rfl) hi.reset ..

end Run

section Enumeration

variable {isPrintable : Char → Bool} {invalid : Detail} {p : Platform} {broker : Handover}
  {email address : String} {i : TokenIssue} {d d₁ d₂ : Database} {response : Response}

-- A view whose serializer accepts the email address answers according to what the service comes to.
theorem post_run_fst {s : String → Service Unit} (hv : EmailSerializer.validate p email = .ok address)
    {q : Prop} [Decidable q] {x : Except Exn Unit} (hs : ((s address).run d).1 = if q then x else .ok ()) :
    ((do
      let email ← ofExcept <| EmailSerializer.validate p email
      s email
      return response : Service Response).run d).1 =
        if q then x.map fun _ => response else .ok response := by
  rw [run_bind_of_ok <| run_ofExcept_eq_ok.mpr ⟨hv, rfl⟩, run_bind]
  cases hr : (s address).run d
  case mk y _ =>
    rw [hr] at hs
    dsimp only at hs
    subst hs
    by_cases hq : q
    case pos =>
      rw [if_pos hq, if_pos hq]
      cases x <;> rfl
    case neg =>
      rw [if_neg hq, if_neg hq]
      rfl

theorem issueOutcome_eq_ok {hours : Nat} :
    issueOutcome broker i hours = .ok () ↔ broker = .ok () ∧ ∃ exp, defaultExpiry i.now hours = .ok exp := by
  rw [issueOutcome]
  cases defaultExpiry i.now hours
  case error  => simp [Bind.bind, Except.bind]
  case ok     => simp [Bind.bind, Except.bind]

-- Whether an address is registered cannot be told as long as the broker accepts the messages.
theorem accounts_enumerated_iff (isPrintable : Char → Bool) (invalid : Detail) (p : Platform)
    (broker : Handover) (email address : String) (i : TokenIssue) (d₁ d₂ : Database)
    (hv : EmailSerializer.validate p email = .ok address) (h₁ : i.IsFresh d₁) (h₂ : i.IsFresh d₂) :
    (answer isPrintable invalid ((ResendVerificationView.post p broker email i).run d₁).1 =
        answer isPrintable invalid ((ResendVerificationView.post p broker email i).run d₂).1 ↔
      (broker = .ok () ∧ ∃ exp, defaultExpiry i.now emailVerificationTokenTtlHours = .ok exp) ∨
        ((unverifiedUser p d₁ address).isSome ↔ (unverifiedUser p d₂ address).isSome)) ∧
    (answer isPrintable invalid ((PasswordResetRequestView.post p broker email i).run d₁).1 =
        answer isPrintable invalid ((PasswordResetRequestView.post p broker email i).run d₂).1 ↔
      (broker = .ok () ∧ ∃ exp, defaultExpiry i.now passwordResetTokenTtlHours = .ok exp) ∨
        ((resettableUser p d₁ address).isSome ↔ (resettableUser p d₂ address).isSome)) := by
  constructor
  case left   =>
    rw [ResendVerificationView.post, post_run_fst hv <| resendVerificationTo_run_fst h₁,
      post_run_fst hv <| resendVerificationTo_run_fst h₂, ←issueOutcome_eq_ok]
    exact answer_eq_iff rfl ..
  case right  =>
    rw [PasswordResetRequestView.post, post_run_fst hv <| requestPasswordResetTo_run_fst h₁,
      post_run_fst hv <| requestPasswordResetTo_run_fst h₂, ←issueOutcome_eq_ok]
    exact answer_eq_iff rfl ..

end Enumeration

section Example

def registered : Database :=
  { Seed.database with users := .put .empty Seed.user }

def exampleTokenIssue : TokenIssue :=
  ⟨"token", 1, .midnight 739000⟩

def exampleAddress := "user@example.com"

theorem exampleAddress_valid : EmailSerializer.validate .ascii exampleAddress = .ok exampleAddress := by
  rfl

theorem exampleTokenIssue_fresh : exampleTokenIssue.IsFresh registered ∧ exampleTokenIssue.IsFresh Seed.database := by
  refine ⟨⟨?_, ?_⟩, ⟨?_, ?_⟩⟩ <;> decide +kernel

-- The broker accepts the message.
theorem registered_address_concealed :
    answer (fun _ => true) (.list [])
      ((PasswordResetRequestView.post .ascii (.ok ()) exampleAddress exampleTokenIssue).run registered).1 =
    answer (fun _ => true) (.list [])
      ((PasswordResetRequestView.post .ascii (.ok ()) exampleAddress exampleTokenIssue).run Seed.database).1 := by
  have he : ∃ exp, defaultExpiry exampleTokenIssue.now passwordResetTokenTtlHours = .ok exp := by
    have hs : (exampleTokenIssue.now.addHours passwordResetTokenTtlHours).isSome := by decide +kernel
    obtain ⟨exp, he⟩ := Option.isSome_iff_exists.mp hs
    exact ⟨exp, by rw [defaultExpiry, he]; rfl⟩
  exact (accounts_enumerated_iff (fun _ => true) (.list []) .ascii (.ok ()) exampleAddress exampleAddress
    exampleTokenIssue registered Seed.database exampleAddress_valid exampleTokenIssue_fresh.left
    exampleTokenIssue_fresh.right).right.mpr <| .inl ⟨rfl, he⟩

-- The broker is down, which is only noticed by the request for a registered address.
theorem registered_address_revealed :
    answer (fun _ => true) (.list [])
      ((PasswordResetRequestView.post .ascii (.error .operationalError) exampleAddress exampleTokenIssue).run
        registered).1 ≠
    answer (fun _ => true) (.list [])
      ((PasswordResetRequestView.post .ascii (.error .operationalError) exampleAddress exampleTokenIssue).run
        Seed.database).1 := by
  intro h
  have hs := congrArg (·.toOption.map (·.status)) h
  revert hs
  decide +kernel

end Example
end SaasBackend
