import SaasBackend.Common.Lower
import SaasBackend.Subscriptions.Services

open Calendar ReadCommitted

namespace SaasBackend

open Service

-- The latest user whose email address matches, without regard to the case.
def getUserByEmail (p : Platform) (d : Database) (email : String) : Option User :=
  d.users.rows.find? fun u => p.iexact u.email (Text.strip email)

-- The domain of an email address is converted to lower case.
def normalizeEmail (p : Platform) (email : String) : String :=
  let cs := (Text.strip email).toList
  if '@' ∈ cs then
    let domain := (cs.reverse.takeWhile (· ≠ '@')).reverse
    let name   := ((cs.reverse.dropWhile (· ≠ '@')).drop 1).reverse
    .ofList name ++ "@" ++ Text.lower p (.ofList domain)
  else
    email

-- What the creation of a user takes from its environment: the generated id, and the opening of the
-- first subscription.
structure Enrollment where
  id      : Uuid
  opening : Opening

namespace UserManager

def newUser (p : Platform) (email password firstName lastName : String) (role : UserRole) (id : Uuid) :
    User where
  id          := id
  email       := Text.lower p (normalizeEmail p email)
  password    := ⟨password⟩
  firstName   := firstName
  lastName    := lastName
  role        := role
  isActive    := true
  isVerified  := false
  lastLogin   := none
  lastLoginAt := none

def createUser (p : Platform) (email password firstName lastName : String) (role : UserRole)
    (id : Uuid) : Service User := do
  if email = "" then raise .valueError
  else do
    let user := newUser p email password firstName lastName role id
    create <| .user user
    return user

end UserManager

def createUser (p : Platform) (email password firstName lastName : String) (role : UserRole)
    (e : Enrollment) : Service User :=
  atomic do
    match ← select (getUserByEmail p · email) with
    | some _ => raise <| .conflict "An account with this email already exists." "email_taken"
    | none   => do
      let user ← UserManager.createUser p email password (Text.strip firstName) (Text.strip lastName)
        role e.id
      let _ ← enrollInFreePlan user.id e.opening
      return user

-- A name which is none is not among the fields that are given.
def updateProfile (user : User) (firstName lastName : Option String) : Service User := do
  save Database.users .user (.user user.id) fun u =>
    { u with firstName := firstName.getD u.firstName, lastName := lastName.getD u.lastName }
  return { user with
    firstName := firstName.getD user.firstName, lastName := lastName.getD user.lastName }

-- The user is given as it was loaded for the request.
def changePassword (user : User) (currentPassword newPassword : String) : Service Unit := do
  if user.password ≠ ⟨currentPassword⟩ then
    raise <| .authenticationFailed "Current password is incorrect." "invalid_password"
  else
    save Database.users .user (.user user.id) fun u => { u with password := ⟨newPassword⟩ }

end SaasBackend
