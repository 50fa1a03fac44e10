import SaasBackend.Authentication.Tokens
import SaasBackend.Users.Services

open Calendar ReadCommitted

namespace SaasBackend

open Service

-- A message to one of the Celery tasks which send tokens by email.
structure Message where
  kind  : TokenKind
  user  : Uuid
  token : String
  deriving DecidableEq

-- `send_verification_email.delay(...)` and `send_password_reset_email.delay(...)`. The message is
-- handed over to the broker at once, which the database does not notice.
def Message.delay (_ : Message) : Service Unit :=
  select fun _ => ()

-- What the issue of a token takes from its environment: the random token, the generated id, and the
-- time from which the token is valid.
structure TokenIssue where
  token : String
  id    : Uuid
  now   : Instant

def emailVerificationTokenTtlHours := 24
def passwordResetTokenTtlHours := 1

-- `default_expiry`
def defaultExpiry (now : Instant) (hours : Nat) : Except Exn Instant :=
  (now.addHours hours).elim (.error .overflowError) .ok

def newToken (kind : TokenKind) (user : Uuid) (i : TokenIssue) (expiresAt : Instant) : Token kind where
  id        := i.id
  userId    := user
  tokenHash := hashToken i.token
  expiresAt := expiresAt
  usedAt    := none

section Registration

-- The part of `issue_verification_token` which concerns the database.
def createVerificationToken (user : Uuid) (i : TokenIssue) : Service Message := do
  let expiresAt ← ofExcept <| defaultExpiry i.now emailVerificationTokenTtlHours
  create <| .verificationToken <| newToken _ user i expiresAt
  return ⟨.emailVerification, user, i.token⟩

def issueVerificationToken (user : Uuid) (i : TokenIssue) : Service String := do
  let message ← createVerificationToken user i
  message.delay
  return message.token

def registerUser (p : Platform) (email password firstName lastName : String) (e : Enrollment)
    (i : TokenIssue) : Service User :=
  atomic do
    let user ← createUser p email password firstName lastName .customer e
    let _ ← issueVerificationToken user.id i
    return user

-- The token with the given hash, joined with its user.
def findVerificationToken (d : Database) (hash : Sha256) : Option (EmailVerificationToken × User) :=
  d.verificationTokens.rows.findSome? fun t =>
    if t.tokenHash = hash then (d.users.lookup <| .user t.userId).map fun u => (t, u) else none

def invalidVerificationToken : Exn :=
  .validationError "Invalid or expired verification token." "invalid_token"

-- The part of `verify_email` that follows once the token is found to be valid.
def useVerificationToken (t : EmailVerificationToken) (u : User) (usedAt : Instant) : Service Unit :=
  atomic do
    save Database.verificationTokens .verificationToken (.token .emailVerification t.id) fun r =>
      { r with usedAt := some usedAt }
    if !u.isVerified then
      save Database.users .user (.user u.id) fun r => { r with isVerified := true }
    else
      return ()

-- The clock reads `now` when the token is checked, and `usedAt` when it is consumed.
def verifyEmail (token : String) (now usedAt : Instant) : Service User := do
  match ← select (findVerificationToken · <| hashToken token) with
  | none        => raise invalidVerificationToken
  | some (t, u) =>
    if !t.isValid now then raise invalidVerificationToken
    else do
      useVerificationToken t u usedAt
      return { u with isVerified := true }

-- Nothing is said about whether there is an account.
def resendVerification (p : Platform) (email : String) (i : TokenIssue) : Service Unit := do
  match ← select (getUserByEmail p · email) with
  | none   => return ()
  | some u =>
    if u.isVerified then return ()
    else do
      let _ ← issueVerificationToken u.id i
      return ()

end Registration

section PasswordReset

def requestPasswordReset (p : Platform) (email : String) (i : TokenIssue) : Service Unit := do
  match ← select (getUserByEmail p · email) with
  | none   => return ()
  | some u =>
    if !u.isActive then return ()
    else do
      let expiresAt ← ofExcept <| defaultExpiry i.now passwordResetTokenTtlHours
      create <| .resetToken <| newToken _ u.id i expiresAt
      Message.delay ⟨.passwordReset, u.id, i.token⟩

-- The token with the given hash, joined with its user.
def findResetToken (d : Database) (hash : Sha256) : Option (PasswordResetToken × User) :=
  d.resetTokens.rows.findSome? fun t =>
    if t.tokenHash = hash then (d.users.lookup <| .user t.userId).map fun u => (t, u) else none

-- The other outstanding tokens of a user are marked as used as well.
def useOtherTokens (t : PasswordResetToken) (user : Uuid) (usedAt : Instant) (d : Database) :
    List Write :=
  (d.resetTokens.rows.filter fun r => r.userId = user ∧ r.usedAt = none ∧ r.id ≠ t.id).map fun r =>
    ⟨some <| .resetToken r, .resetToken { r with usedAt := some usedAt }⟩

def invalidResetToken : Exn :=
  .validationError "Invalid or expired reset token." "invalid_token"

def consume (t : PasswordResetToken) (usedAt : Instant) : Service Unit :=
  save Database.resetTokens .resetToken (.token .passwordReset t.id) fun r =>
    { r with usedAt := some usedAt }

-- The part of `confirm_password_reset` that follows once the token is found to be valid.
def useResetToken (t : PasswordResetToken) (u : User) (newPassword : String) (usedAt : Instant) :
    Service User := do
  save Database.users .user (.user u.id) fun r => { r with password := ⟨newPassword⟩ }
  consume t usedAt
  execute <| useOtherTokens t u.id usedAt
  return { u with password := ⟨newPassword⟩ }

-- The clock reads `now` when the token is checked, and `usedAt` when it is consumed.
def confirmPasswordReset (token newPassword : String) (now usedAt : Instant) : Service User :=
  atomic do
    match ← select (findResetToken · <| hashToken token) with
    | none        => raise invalidResetToken
    | some (t, u) =>
      if !t.isValid now then raise invalidResetToken
      else useResetToken t u newPassword usedAt

end PasswordReset

section SessionTracking

def recordSession (user : Uuid) (refreshToken : RefreshToken) (userAgent ipAddress : String)
    (id : Uuid) : Service UserSession := do
  let session : UserSession := {
    id         := id
    userId     := user
    refreshJti := refreshToken.jti
    userAgent  := Text.truncate userAgent 512
    ipAddress  := if ipAddress = "" then none else some ipAddress
    revokedAt  := none
  }
  create <| .session session
  return session

def revoke (session : UserSession) (revokedAt : Instant) : Service Unit :=
  save Database.sessions .session (.session session.id) fun s => { s with revokedAt := some revokedAt }

def findOpenSession (d : Database) (jti : String) : Option UserSession :=
  d.sessions.rows.find? fun s => s.refreshJti = jti ∧ s.revokedAt = none

-- The clock reads `now` when the token is checked, and `revokedAt` when the session is revoked.
def logout (presented : Presented) (now revokedAt : Instant) : Service Unit := do
  let token ← handle (RefreshToken.verify presented now) fun e =>
    match e with
    | .tokenError => raise <| .authenticationFailed "Invalid refresh token." "invalid_refresh_token"
    | _           => raise e
  token.blacklist
  match ← select (findOpenSession · token.jti) with
  | some session => revoke session revokedAt
  | none         => return ()

def findSession (d : Database) (id user : Uuid) : Option UserSession :=
  d.sessions.rows.find? fun s => s.id = id ∧ s.userId = user

def revokeSession (user sessionId : Uuid) (revokedAt : Instant) : Service Unit := do
  match ← select (findSession · sessionId user) with
  | none         => raise <| .notFound "Session not found." "session_not_found"
  | some session =>
    if session.revokedAt.isSome then
      raise <| .conflict "Session already revoked." "already_revoked"
    else
      revoke session revokedAt

end SessionTracking
end SaasBackend
