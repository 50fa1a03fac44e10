import Mathlib.Data.List.Basic

-- Values which are nested in lists and in dictionaries with string keys.
inductive Nested (α : Type)
  | leaf (a : α)
  | list (items : List (Nested α))
  | dict (fields : List (String × Nested α))

namespace Nested

variable {α β γ : Type}

mutual

def map (f : α → β) : Nested α → Nested β
  | leaf a      => leaf (f a)
  | list items  => list (mapItems f items)
  | dict fields => dict (mapFields f fields)

def mapItems (f : α → β) : List (Nested α) → List (Nested β)
  | []            => []
  | item :: items => item.map f :: mapItems f items

def mapFields (f : α → β) : List (String × Nested α) → List (String × Nested β)
  | []                     => []
  | (key, value) :: fields => (key, value.map f) :: mapFields f fields

end

mutual

-- The leaf which comes first when lists and dictionaries are traversed in their order.
def firstLeaf : Nested α → Option α
  | leaf a      => some a
  | list items  => firstLeafOfItems items
  | dict fields => firstLeafOfFields fields

def firstLeafOfItems : List (Nested α) → Option α
  | []            => none
  | item :: items => item.firstLeaf <|> firstLeafOfItems items

def firstLeafOfFields : List (String × Nested α) → Option α
  | []                   => none
  | (_, value) :: fields => value.firstLeaf <|> firstLeafOfFields fields

end

mutual

-- Neither a list nor a dictionary is empty.
def IsFull : Nested α → Prop
  | leaf _      => True
  | list items  => items ≠ [] ∧ AreFullItems items
  | dict fields => fields ≠ [] ∧ AreFullFields fields

def AreFullItems : List (Nested α) → Prop
  | []            => True
  | item :: items => item.IsFull ∧ AreFullItems items

def AreFullFields : List (String × Nested α) → Prop
  | []                   => True
  | (_, value) :: fields => value.IsFull ∧ AreFullFields fields

end

mutual

theorem map_map (f : α → β) (g : β → γ) : ∀ t : Nested α, (t.map f).map g = t.map (g ∘ f)
  | leaf _      => rfl
  | list items  => congrArg list <| mapItems_mapItems f g items
  | dict fields => congrArg dict <| mapFields_mapFields f g fields

theorem mapItems_mapItems (f : α → β) (g : β → γ) :
    ∀ ts : List (Nested α), mapItems g (mapItems f ts) = mapItems (g ∘ f) ts
  | []            => rfl
  | item :: items => congrArg₂ List.cons (map_map f g item) (mapItems_mapItems f g items)

theorem mapFields_mapFields (f : α → β) (g : β → γ) :
    ∀ ts : List (String × Nested α), mapFields g (mapFields f ts) = mapFields (g ∘ f) ts
  | []                     => rfl
  | (key, value) :: fields =>
    congrArg₂ List.cons (congrArg (Prod.mk key) (map_map f g value)) (mapFields_mapFields f g fields)

end

mutual

theorem map_id : ∀ t : Nested α, t.map id = t
  | leaf _      => rfl
  | list items  => congrArg list <| mapItems_id items
  | dict fields => congrArg dict <| mapFields_id fields

theorem mapItems_id : ∀ ts : List (Nested α), mapItems id ts = ts
  | []            => rfl
  | item :: items => congrArg₂ List.cons (map_id item) (mapItems_id items)

theorem mapFields_id : ∀ ts : List (String × Nested α), mapFields id ts = ts
  | []                     => rfl
  | (key, value) :: fields =>
    congrArg₂ List.cons (congrArg (Prod.mk key) (map_id value)) (mapFields_id fields)

end

mutual

theorem firstLeaf_map (f : α → β) : ∀ t : Nested α, (t.map f).firstLeaf = t.firstLeaf.map f
  | leaf _      => rfl
  | list items  => firstLeafOfItems_mapItems f items
  | dict fields => firstLeafOfFields_mapFields f fields

theorem firstLeafOfItems_mapItems (f : α → β) :
    ∀ ts : List (Nested α), firstLeafOfItems (mapItems f ts) = (firstLeafOfItems ts).map f
  | []            => rfl
  | item :: items => by
    simp only [mapItems, firstLeafOfItems, firstLeaf_map f item, firstLeafOfItems_mapItems f items]
    cases item.firstLeaf <;> rfl

theorem firstLeafOfFields_mapFields (f : α → β) :
    ∀ ts : List (String × Nested α), firstLeafOfFields (mapFields f ts) = (firstLeafOfFields ts).map f
  | []                   => rfl
  | (_, value) :: fields => by
    simp only [mapFields, firstLeafOfFields, firstLeaf_map f value, firstLeafOfFields_mapFields f fields]
    cases value.firstLeaf <;> rfl

end

mutual

-- Where nothing is empty, there is a leaf.
theorem IsFull.firstLeaf : ∀ {t : Nested α}, t.IsFull → t.firstLeaf.isSome
  | Nested.leaf _, _      => rfl
  | Nested.list _, h      => AreFullItems.firstLeaf h.left h.right
  | Nested.dict _, h      => AreFullFields.firstLeaf h.left h.right

theorem AreFullItems.firstLeaf :
    ∀ {ts : List (Nested α)}, ts ≠ [] → AreFullItems ts → (firstLeafOfItems ts).isSome
  | [], hn, _         => (hn rfl).elim
  | item :: _, _, h   => by
    have hi := IsFull.firstLeaf h.left
    rw [firstLeafOfItems]
    cases hl : item.firstLeaf
    case none => simp [hl] at hi
    case some => rfl

theorem AreFullFields.firstLeaf :
    ∀ {ts : List (String × Nested α)}, ts ≠ [] → AreFullFields ts → (firstLeafOfFields ts).isSome
  | [], hn, _             => (hn rfl).elim
  | (_, value) :: _, _, h => by
    have hi := IsFull.firstLeaf h.left
    rw [firstLeafOfFields]
    cases hl : value.firstLeaf
    case none => simp [hl] at hi
    case some => rfl

end
end Nested
