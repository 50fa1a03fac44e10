import SaasBackend.Authentication.Services
import SaasBackend.Common.Fields

open Calendar ReadCommitted

namespace SaasBackend

open Service

-- A name which is none is not given. The values are either those of a request, or the validated ones.
structure RegistrationData where
  email     : String
  password  : String
  firstName : Option String
  lastName  : Option String

namespace RegistrationSerializer

def validatePassword (p : Platform) (value : String) : Except Exn String :=
  match validateStrongPassword p value with
  | .ok _    => .ok value
  | .error _ => .error .invalidInput

def validateEmail (p : Platform) (value : String) : String :=
  Text.lower p (Text.strip value)

def validateName (name : Option String) : Except Exn (Option String) :=
  match name with
  | none      => .ok none
  | some name => (CharField.validate { allowBlank := true, maxLength := some 120 } name).map some

def validate (p : Platform) (data : RegistrationData) : Except Exn RegistrationData := do
  let email     ← EmailField.validate p data.email
  let password  ← CharField.validate { minLength := 10 } data.password
  let password  ← validatePassword p password
  let firstName ← validateName data.firstName
  let lastName  ← validateName data.lastName
  return ⟨validateEmail p email, password, firstName, lastName⟩

end RegistrationSerializer

-- The view registers the user whom the serializer describes.
def RegisterView.post (p : Platform) (data : RegistrationData) (e : Enrollment) (i : TokenIssue) :
    Service User := do
  let data ← ofExcept <| RegistrationSerializer.validate p data
  registerUser p data.email data.password (data.firstName.getD "") (data.lastName.getD "") e i

end SaasBackend
