import SaasBackend.Common.Exceptions
import SaasBackend.Common.Nested
import Mathlib.Data.List.Basic

namespace SaasBackend

-- `rest_framework.exceptions.ErrorDetail`, which is a string.
structure ErrorDetail where
  string : String
  code   : Option String
  deriving DecidableEq

abbrev Detail := Nested ErrorDetail

-- What is raised in a view. The details which are added by a `DomainError` are absent otherwise.
structure APIException where
  statusCode   : Nat
  defaultCode  : String
  detail       : Detail
  extraDetails : List (String × Json)

inductive Raised (ε : Type)
  | apiException (e : APIException)
  | http404
  | permissionDenied
  | other (e : ε)

-- What the exception handler itself can end with.
inductive HandlerError
  | indexError
  deriving DecidableEq

structure Response where
  data   : Json
  status : Nat

def DomainError.toAPIException (e : DomainError) : APIException where
  statusCode   := e.kind.statusCode
  defaultCode  := e.kind.defaultCode
  detail       := .leaf ⟨e.detail, some e.code⟩
  extraDetails := e.details

section Str

-- `str.isprintable` on a single character beyond ASCII.
variable (isPrintable : Char → Bool)

def hexEscape (letter : Char) (width : Nat) (c : Char) : List Char :=
  '\x5c' :: letter :: (Nat.toDigits 16 c.toNat).leftpad width '0'

def reprChar (quote c : Char) : List Char :=
  if c = quote ∨ c = '\x5c' then ['\x5c', c]
  else if c = '\x09' then ['\x5c', 't']
  else if c = '\x0a' then ['\x5c', 'n']
  else if c = '\x0d' then ['\x5c', 'r']
  else if c.toNat < 32 ∨ c.toNat = 127 then hexEscape 'x' 2 c
  else if c.toNat < 127 ∨ isPrintable c then [c]
  else if c.toNat < 256 then hexEscape 'x' 2 c
  else if c.toNat < 65536 then hexEscape 'u' 4 c
  else hexEscape 'U' 8 c

-- `repr` of a string, which is put in double quotes only if it contains single ones and no double ones.
def reprString (s : String) : String :=
  let quote := if '\x27' ∈ s.toList ∧ '\x22' ∉ s.toList then '\x22' else '\x27'
  .ofList <| quote :: s.toList.flatMap (reprChar isPrintable quote) ++ [quote]

def ErrorDetail.repr (e : ErrorDetail) : String :=
  let code := match e.code with
    | none      => "None"
    | some code => reprString isPrintable code
  "ErrorDetail(string=" ++ reprString isPrintable e.string ++ ", code=" ++ code ++ ")"

mutual

def Detail.repr : Nested ErrorDetail → String
  | .leaf e      => e.repr isPrintable
  | .list items  => "[" ++ ", ".intercalate (Detail.reprItems items) ++ "]"
  | .dict fields => "\x7b" ++ ", ".intercalate (Detail.reprFields fields) ++ "\x7d"

def Detail.reprItems : List (Nested ErrorDetail) → List String
  | []            => []
  | item :: items => Detail.repr item :: Detail.reprItems items

def Detail.reprFields : List (String × Nested ErrorDetail) → List String
  | []                     => []
  | (key, value) :: fields =>
    (reprString isPrintable key ++ ": " ++ Detail.repr value) :: Detail.reprFields fields

end

-- `str(detail)`
def Detail.str : Detail → String
  | .leaf e => e.string
  | detail  => Detail.repr isPrintable detail

mutual

def Detail.toJson : Nested ErrorDetail → Json
  | .leaf e      => .str e.string
  | .list items  => .arr (Detail.toJsonItems items)
  | .dict fields => .obj (Detail.toJsonFields fields)

def Detail.toJsonItems : List (Nested ErrorDetail) → List Json
  | []            => []
  | item :: items => Detail.toJson item :: Detail.toJsonItems items

def Detail.toJsonFields : List (String × Nested ErrorDetail) → List (String × Json)
  | []                     => []
  | (key, value) :: fields => (key, Detail.toJson value) :: Detail.toJsonFields fields

end

-- The error of an empty dictionary is handled, and that of an empty list in a dictionary is not.
def normalizeDetails : Detail → Except HandlerError (String × List (String × Json))
  | .dict []                         => .ok ("Invalid input.", [])
  | .dict ((_, .list []) :: _)       => .error .indexError
  | .dict ((firstField, .list (firstMessage :: errs)) :: fields) =>
    .ok (firstField ++ ": " ++ Detail.str isPrintable firstMessage,
      [("fields", Detail.toJson <| .dict <| (firstField, .list <| firstMessage :: errs) :: fields)])
  | .dict ((firstField, firstErrs) :: fields) =>
    .ok (firstField ++ ": " ++ Detail.str isPrintable firstErrs,
      [("fields", Detail.toJson <| .dict <| (firstField, firstErrs) :: fields)])
  | .list []                         => .ok ("Invalid input.", [("errors", .arr [])])
  | .list (item :: items)            =>
    .ok (Detail.str isPrintable item, [("errors", Detail.toJson <| .list <| item :: items)])
  | .leaf e                          => .ok (e.string, [])

-- `getattr(detail, "code", None)`
def Detail.code? : Detail → Option String
  | .leaf e => e.code
  | _       => none

-- The code of the first error of a field, if that error is not nested.
def Detail.innerCode : Detail → Option String
  | .list (first :: _) => Detail.code? first
  | fieldErrs          => Detail.code? fieldErrs

def APIException.code (exc : APIException) : String :=
  match Detail.code? exc.detail with
  | some detailCode => detailCode
  | none            =>
    match exc.detail with
    | .dict fields => (fields.findSome? fun f => Detail.innerCode f.2).getD exc.defaultCode
    | _            => exc.defaultCode

-- `{**a, **b}`
def mergeDicts (a b : List (String × Json)) : List (String × Json) :=
  (a.map fun m => (m.1, (b.lookup m.1).getD m.2)) ++ b.filter fun m => (a.lookup m.1).isNone

def envelope (code message : String) (details : List (String × Json)) : Json :=
  .obj [("error", .obj [("code", .str code), ("message", .str message), ("details", .obj details)])]

def internalError : Response where
  data   := envelope "internal_error" "An unexpected error occurred." []
  status := 500

-- Errors of Django are translated, so that they are not among the unhandled ones.
def translate {ε : Type} : Raised ε → Raised ε
  | .http404          => .apiException ⟨404, "error", .leaf ⟨"Resource not found.", some "not_found"⟩, []⟩
  | .permissionDenied =>
    .apiException ⟨403, "error", .leaf ⟨"Permission denied.", some "permission_denied"⟩, []⟩
  | exc               => exc

def customExceptionHandler {ε : Type} (exc : Raised ε) : Except HandlerError Response :=
  match translate exc with
  | .apiException exc => do
    let (message, details) ← normalizeDetails isPrintable exc.detail
    return ⟨envelope exc.code message (mergeDicts details exc.extraDetails), exc.statusCode⟩
  | _                 => .ok internalError

end Str

section Answered

variable {isPrintable : Char → Bool} {ε : Type}

-- The first field has no errors.
def HasEmptyFirstField (detail : Detail) : Prop :=
  ∃ firstField fields, detail = .dict ((firstField, .list []) :: fields)

-- The response which an exception is answered with has the form that all errors have.
def IsAnswer : Raised ε → Response → Prop
  | .apiException e,   r => r.status = e.statusCode ∧ ∃ code message details, r.data = envelope code message details
  | .http404,          r => r.status = 404 ∧ ∃ code message details, r.data = envelope code message details
  | .permissionDenied, r => r.status = 403 ∧ ∃ code message details, r.data = envelope code message details
  | .other _,          r => r = internalError

def Raised.detail? : Raised ε → Option Detail
  | .apiException e => some e.detail
  | _               => none

theorem normalizeDetails_eq_ok_iff (isPrintable : Char → Bool) (detail : Detail) :
    (∃ r, normalizeDetails isPrintable detail = .ok r) ↔ ¬HasEmptyFirstField detail := by
  unfold normalizeDetails HasEmptyFirstField
  split
  case h_4 hn _ => simpa using hn
  all_goals simp

theorem customExceptionHandler_of_ok {e : APIException} {message : String} {details : List (String × Json)}
    (h : normalizeDetails isPrintable e.detail = .ok (message, details)) :
    customExceptionHandler isPrintable (.apiException e : Raised ε) =
      .ok ⟨envelope e.code message (mergeDicts details e.extraDetails), e.statusCode⟩ := by
  simp only [customExceptionHandler, translate, h]
  rfl

theorem customExceptionHandler_apiException (e : APIException) :
    (∃ r, customExceptionHandler isPrintable (.apiException e : Raised ε) = .ok r ∧
      IsAnswer (.apiException e : Raised ε) r) ↔ ¬HasEmptyFirstField e.detail := by
  rw [←normalizeDetails_eq_ok_iff isPrintable]
  cases hn : normalizeDetails isPrintable e.detail
  case error  => simp [customExceptionHandler, translate, hn, bind, Except.bind]
  case ok r   => exact iff_of_true ⟨_, customExceptionHandler_of_ok hn, rfl, _, _, _, rfl⟩ ⟨r, rfl⟩

-- Every exception is answered in the same form, except for those that name a field without errors first.
theorem exceptions_answered_iff (isPrintable : Char → Bool) (exc : Raised ε) :
    (∃ r, customExceptionHandler isPrintable exc = .ok r ∧ IsAnswer exc r) ↔
      ¬∃ detail, exc.detail? = some detail ∧ HasEmptyFirstField detail := by
  cases exc
  case apiException e =>
    rw [customExceptionHandler_apiException]
    simp [Raised.detail?]
  case other e => exact iff_of_true ⟨_, rfl, rfl⟩ (by simp [Raised.detail?])
  all_goals exact iff_of_true ⟨_, rfl, rfl, _, _, _, rfl⟩ (by simp [Raised.detail?])

-- The field is named, but does not have any errors.
def emptyField : APIException where
  statusCode   := 400
  defaultCode  := "invalid"
  detail       := .dict [("name", .list [])]
  extraDetails := []

theorem emptyField_not_answered :
    ¬∀ (isPrintable : Char → Bool) (exc : Raised Unit),
      ∃ r, customExceptionHandler isPrintable exc = .ok r ∧ IsAnswer exc r := by
  intro h
  obtain ⟨_, hr, _⟩ := h (fun _ => true) (.apiException emptyField)
  cases hr

end Answered
end SaasBackend
