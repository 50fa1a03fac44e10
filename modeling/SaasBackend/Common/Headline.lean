import SaasBackend.Common.ExceptionHandler

namespace SaasBackend

open Nested

-- Whether the leaves of a detail have a code, without the codes and texts themselves.
abbrev Shape := Nested Bool

def Detail.shape (detail : Detail) : Shape :=
  detail.map (·.code.isSome)

-- The first error stands alone, or it is the error of the first field or the first in a list of them.
def Shape.IsDirect : Shape → Prop
  | .leaf coded                                => coded
  | .dict ((_, .leaf coded) :: _)              => coded
  | .dict ((_, .list (.leaf coded :: _)) :: _) => coded
  | _                                          => False

-- The envelope reports the code of the first error, and the message contains the text of that error.
def IsAboutFirst (isPrintable : Char → Bool) (exc : APIException) : Prop :=
  ∃ first code message details r,
    exc.detail.firstLeaf = some first ∧ first.code = some code ∧
    customExceptionHandler isPrintable (.apiException exc : Raised Empty) = .ok r ∧
    r.data = envelope code message details ∧ first.string.toList <:+: message.toList

section IsAboutFirst

variable {isPrintable : Char → Bool} {exc : APIException} {first : ErrorDetail}

theorem isAboutFirst_of_normalizeDetails {code message : String} {details : List (String × Json)}
    (hf : exc.detail.firstLeaf = some first) (hc : first.code = some code) (he : exc.code = code)
    (hn : normalizeDetails isPrintable exc.detail = .ok (message, details))
    (hm : first.string.toList <:+: message.toList) : IsAboutFirst isPrintable exc :=
  ⟨first, code, message, _, _, hf, hc, customExceptionHandler_of_ok hn, by rw [he], hm⟩

theorem IsAboutFirst.code (h : IsAboutFirst isPrintable exc) :
    ∃ first, exc.detail.firstLeaf = some first ∧ first.code = some exc.code := by
  have ⟨first, code, message, details, r, hf, hc, hr, hd, _⟩ := h
  refine ⟨first, hf, hc.trans <| congrArg some ?_⟩
  cases hn : normalizeDetails isPrintable exc.detail
  case error => simp [customExceptionHandler, translate, hn, bind, Except.bind] at hr
  case ok n  =>
    have hr := hr.symm.trans <| customExceptionHandler_of_ok hn
    cases Except.ok.inj hr
    simp [envelope] at hd
    exact hd.left.symm

theorem infix_of_field (field text : String) : text.toList <:+: (field ++ ": " ++ text).toList := by
  rw [String.toList_append]
  exact (List.suffix_append ..).isInfix

-- Both walks find the first error.
theorem isAboutFirst_of_isDirect (h : Shape.IsDirect exc.detail.shape) :
    IsAboutFirst isPrintable exc := by
  obtain ⟨_, _, detail, _⟩ := exc
  cases detail
  case leaf e =>
    have ⟨c, hc⟩ := Option.isSome_iff_exists.mp h
    exact isAboutFirst_of_normalizeDetails rfl hc (by simp [APIException.code, Detail.code?, hc]) rfl
      List.infix_rfl
  case list => exact h.elim
  case dict fields =>
    cases fields
    case nil            => exact h.elim
    case cons f fields  =>
      obtain ⟨field, value⟩ := f
      cases value
      case dict       => exact h.elim
      case leaf e     =>
        have ⟨c, hc⟩ := Option.isSome_iff_exists.mp h
        exact isAboutFirst_of_normalizeDetails rfl hc
          (by simp [APIException.code, Detail.code?, Detail.innerCode, hc]) rfl (infix_of_field ..)
      case list items =>
        cases items
        case nil              => exact h.elim
        case cons item items  =>
          cases item
          case list | dict  => exact h.elim
          case leaf e       =>
            have ⟨c, hc⟩ := Option.isSome_iff_exists.mp h
            exact isAboutFirst_of_normalizeDetails rfl hc
              (by simp [APIException.code, Detail.code?, Detail.innerCode, hc]) rfl (infix_of_field ..)

end IsAboutFirst

section Relabeled

-- An error without a text, and with the given code if it has any.
def labeled (code : String) (coded : Bool) : ErrorDetail where
  string := ""
  code   := if coded then some code else none

-- The codes tell the first field, or a detail that has no fields, from the others.
def Shape.relabeled : Shape → Detail
  | .dict ((field, value) :: fields) =>
    .dict ((field, value.map (labeled "first")) :: mapFields (labeled "other") fields)
  | shape                            => shape.map (labeled "first")

def Shape.toAPIException (shape : Shape) : APIException where
  statusCode   := 400
  defaultCode  := "other"
  detail       := shape.relabeled
  extraDetails := []

variable {shape : Shape} {code : String}

theorem isSome_comp_labeled (code : String) : (fun e : ErrorDetail => e.code.isSome) ∘ labeled code = id := by
  funext coded
  cases coded <;> rfl

theorem shape_map_labeled (code : String) (shape : Shape) : Detail.shape (shape.map (labeled code)) = shape := by
  rw [Detail.shape, map_map, isSome_comp_labeled, map_id]

theorem shape_relabeled (shape : Shape) : Detail.shape shape.relabeled = shape := by
  unfold Shape.relabeled
  split
  case h_2 => exact shape_map_labeled ..
  case h_1 field value fields =>
    have hv : (value.map (labeled "first")).map (·.code.isSome) = value := shape_map_labeled ..
    simp only [Detail.shape, map, mapFields, hv, mapFields_mapFields, isSome_comp_labeled, mapFields_id]

theorem code_ne_of_firstLeaf_map {first : ErrorDetail}
    (h : (shape.map (labeled "first")).firstLeaf = some first) : first.code ≠ some "other" := by
  rw [firstLeaf_map] at h
  have ⟨coded, _, hf⟩ := Option.map_eq_some_iff.mp h
  rw [←hf]
  cases coded <;> decide

-- The first error is not among those which are labeled as others.
theorem code_ne_of_firstLeaf_relabeled {first : ErrorDetail} (h : shape.IsFull)
    (hf : shape.relabeled.firstLeaf = some first) : first.code ≠ some "other" := by
  unfold Shape.relabeled at hf
  split at hf
  case h_2 => exact code_ne_of_firstLeaf_map hf
  case h_1 field value fields =>
    have hv : (value.map (labeled "first")).firstLeaf.isSome := by
      rw [firstLeaf_map, Option.isSome_map]
      exact h.right.left.firstLeaf
    have ⟨first', hv⟩ := Option.isSome_iff_exists.mp hv
    simp only [firstLeaf, firstLeafOfFields, hv] at hf
    exact Option.some.inj hf ▸ code_ne_of_firstLeaf_map hv

theorem innerCode_map_labeled (code : String) (shape : Shape) :
    Detail.innerCode (shape.map (labeled code)) = none ∨
    Detail.innerCode (shape.map (labeled code)) = some code := by
  have hc : ∀ shape : Shape, Detail.code? (shape.map (labeled code)) = none ∨
      Detail.code? (shape.map (labeled code)) = some code := by
    intro shape
    cases shape
    case leaf coded   => cases coded <;> simp [map, Detail.code?, labeled]
    case list | dict  => exact .inl rfl
  cases shape
  case leaf coded   => exact hc (.leaf coded)
  case dict fields  => exact hc (.dict fields)
  case list items   =>
    cases items
    case nil            => exact .inl rfl
    case cons item _    => exact hc item

theorem findSome?_innerCode (fields : List (String × Shape)) :
    ((mapFields (labeled "other") fields).findSome? fun f => Detail.innerCode f.2).getD "other" = "other" := by
  induction fields
  case nil            => rfl
  case cons f fields hi =>
    simp only [mapFields, List.findSome?_cons]
    cases innerCode_map_labeled "other" f.2
    case inl h => rw [h]; exact hi
    case inr h => rw [h]; rfl

-- Without a direct first error, the code is taken from somewhere else.
theorem code_toAPIException (h : ¬shape.IsDirect) : shape.toAPIException.code = "other" := by
  cases shape
  case leaf coded =>
    cases coded
    case false  => rfl
    case true   => exact (h rfl).elim
  case list items => rfl
  case dict fields =>
    cases fields
    case nil            => rfl
    case cons f fields  =>
      obtain ⟨field, value⟩ := f
      have hv : Detail.innerCode (value.map (labeled "first")) = none := by
        cases value
        case dict       => rfl
        case leaf coded =>
          cases coded
          case false  => rfl
          case true   => exact (h rfl).elim
        case list items =>
          cases items
          case nil              => rfl
          case cons item items  =>
            cases item
            case list | dict  => rfl
            case leaf coded   =>
              cases coded
              case false  => rfl
              case true   => exact (h rfl).elim
      have hf := findSome?_innerCode fields
      simpa [Shape.toAPIException, Shape.relabeled, APIException.code, Detail.code?, hv] using hf

end Relabeled

-- The errors of a nested serializer.
def nestedErrors : APIException where
  statusCode   := 400
  defaultCode  := "invalid"
  detail       := .dict [("profile", .dict [("name", .list [.leaf ⟨"This field is required.", some "required"⟩])])]
  extraDetails := []

end SaasBackend
