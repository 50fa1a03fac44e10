import SaasBackend.ApiKeys.Serial

open Calendar ReadCommitted ReadCommitted.Service

namespace SaasBackend

-- The values of headers are bytes other than NUL, which are decoded as ISO 8859-1.
def HttpRequest.IsDecoded (request : HttpRequest) : Prop :=
  ∀ name value, request.header name = some value → ∀ c ∈ value.toList, 0 < c.toNat ∧ c.toNat < 256

namespace APIKeyAuthentication

-- `request.META.get('HTTP_AUTHORIZATION', '')`
def authorization (request : HttpRequest) : List Char :=
  ((request.header "HTTP_AUTHORIZATION").getD "").toList

-- The `Authorization` header is looked at, and consists of two words the first of which is not in ASCII.
def HasForeignScheme (request : HttpRequest) : Prop :=
  (request.header headerName).getD "" = "" ∧
  ∃ scheme key, Text.words (authorization request) = [scheme, key] ∧ scheme.any (128 ≤ ·.toNat)

-- A request is accepted, left to other classes or refused, without any other exception.
def Handled {α : Type} (r : Except Exn α) : Prop :=
  (∃ a, r = .ok a) ∨ ∃ detail, r = .error (.unauthenticated detail)

variable {request : HttpRequest} {now : Instant} {d : Database}

@[simp]
theorem handled_ok {α : Type} (a : α) : Handled (.ok a) :=
  .inl ⟨a, rfl⟩

@[simp]
theorem handled_unauthenticated {α : Type} (detail : String) :
    Handled (.error (.unauthenticated detail) : Except Exn α) :=
  .inr ⟨detail, rfl⟩

@[simp]
theorem not_handled_valueError {α : Type} : ¬Handled (.error .valueError : Except Exn α) := by
  simp [Handled]

theorem authorization_isDecoded (h : request.IsDecoded) :
    ¬(authorization request).any (256 ≤ ·.toNat) := by
  intro ha
  have ⟨c, hc, hn⟩ := List.any_eq_true.mp ha
  cases hr : request.header "HTTP_AUTHORIZATION"
  case none       => simp [authorization, hr] at hc
  case some value =>
    have hc : c ∈ value.toList := by simpa [authorization, hr] using hc
    exact absurd (h _ _ hr c hc).right <| not_lt.mpr <| of_decide_eq_true hn

-- Only the second of the two words is decoded with care.
theorem extractFromAuthorization_handled_iff (h : request.IsDecoded) :
    Handled (extractFromAuthorization request) ↔
      ¬∃ scheme key, Text.words (authorization request) = [scheme, key] ∧
        scheme.any (128 ≤ ·.toNat) := by
  have ha := authorization_isDecoded h
  have he : ((request.header "HTTP_AUTHORIZATION").getD "").toList = authorization request := rfl
  simp only [extractFromAuthorization, he]
  rw [if_neg ha]
  split
  case h_1 scheme key hw =>
    cases hs : scheme.any (128 ≤ ·.toNat)
    case true   => simpa [hw] using hs
    case false  =>
      have hn : ¬∃ scheme key, Text.words (authorization request) = [scheme, key] ∧
          scheme.any (128 ≤ ·.toNat) := by
        rintro ⟨_, _, hw', hs'⟩
        cases hw.symm.trans hw'
        exact Bool.false_ne_true <| hs.symm.trans hs'
      refine iff_of_true ?_ hn
      split
      case isTrue hs' => simp at hs'
      case isFalse    => split <;> (try split) <;> simp
  case h_2 hw =>
    refine iff_of_true (handled_ok _) ?_
    rintro ⟨scheme, key, hw', _⟩
    exact hw scheme key hw'

theorem extractKey_handled_iff (h : request.IsDecoded) :
    Handled (extractKey request) ↔ ¬HasForeignScheme request := by
  have ha := extractFromAuthorization_handled_iff h
  cases hr : request.header headerName
  case none       => simpa [extractKey, HasForeignScheme, hr] using ha
  case some value =>
    by_cases hv : value = ""
    case pos => simpa [extractKey, HasForeignScheme, hr, hv] using ha
    case neg => simp [extractKey, HasForeignScheme, hr, hv]

theorem compareCandidates_handled (hash : Sha256) (now : Instant) (cs : List (APIKey × User))
    (d : Database) : Handled ((compareCandidates hash now cs).run d).fst := by
  rw [compareCandidates_run]
  cases cs.find? (·.1.keyHash = hash)
  case none   => simp [answerFor]
  case some c =>
    simp only [answerFor]
    split <;> simp

-- Once the key is extracted, nothing but the key itself can be refused.
theorem authenticate_handled_iff :
    Handled ((authenticate request now).run d).fst ↔ Handled (extractKey request) := by
  cases he : extractKey request
  case error e =>
    rw [authenticate, he]
    cases e <;> simp [Service.ofExcept, run_bind, Handled]
  case ok p    =>
    refine iff_of_true ?_ (handled_ok _)
    cases p
    case none   => rw [authenticate, he]; exact handled_ok _
    case some p =>
      by_cases hp : p = ""
      case pos => subst hp; rw [authenticate, he]; exact handled_ok _
      case neg =>
        rw [authenticate_run he hp, run_bind]
        have hc := compareCandidates_handled (computeHash p) now (candidates d <| splitPrefix p) d
        split
        case h_1          => exact handled_ok _
        case h_2 e d' hr  =>
          rw [hr] at hc
          cases hc
          case inl hc => cases hc.choose_spec
          case inr hc => exact Except.error.inj hc.choose_spec ▸ handled_unauthenticated _

-- A header is never answered with another error than a failed authentication, unless it names a scheme
-- that is not in ASCII.
theorem headers_handled_iff (request : HttpRequest) (now : Instant) (d : Database)
    (h : request.IsDecoded) :
    Handled ((authenticate request now).run d).fst ↔ ¬HasForeignScheme request :=
  authenticate_handled_iff.trans <| extractKey_handled_iff h

section Example

def requestWith (headers : List (String × String)) : HttpRequest where
  method               := some "GET"
  path                 := "/api/v1/users/me/"
  headers              := headers
  user                 := none
  auth                 := none
  subscription         := none
  subscriptionPlanSlug := none
  durationMs           := none

theorem requestWith_isDecoded {name value : String} 
    (h : value.toList.all fun c => 0 < c.toNat ∧ c.toNat < 256) : (requestWith [(name, value)]).IsDecoded := by
  intro n v hv
  simp only [HttpRequest.header, requestWith, List.lookup] at hv
  split at hv
  case h_1 => exact Option.some.inj hv ▸ fun c hc => of_decide_eq_true <| List.all_eq_true.mp h c hc
  case h_2 => cases hv

-- The name of the scheme starts with U+00E9.
def foreignScheme : HttpRequest :=
  requestWith [("HTTP_AUTHORIZATION", "éApi-Key sk_live_x")]

theorem foreignScheme_not_handled :
    ¬∀ (request : HttpRequest) (now : Instant) (d : Database), request.IsDecoded →
      Handled ((authenticate request now).run d).fst := by
  intro h
  have h := h foreignScheme (.midnight 739000) .empty <| requestWith_isDecoded <| by rfl
  rw [authenticate_handled_iff] at h
  revert h
  have he : extractKey foreignScheme = .error .valueError := by rfl
  simp [he]

theorem bearer_handled :
    Handled ((authenticate (requestWith [("HTTP_AUTHORIZATION", "Bearer x")]) (.midnight 739000)).run .empty).fst ↔
      ¬HasForeignScheme (requestWith [("HTTP_AUTHORIZATION", "Bearer x")]) :=
  headers_handled_iff _ _ _ <| requestWith_isDecoded <| by rfl

end Example
end APIKeyAuthentication
end SaasBackend
