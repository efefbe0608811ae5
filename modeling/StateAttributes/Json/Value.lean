import StateAttributes.Json.Number

namespace StateAttributes.Json

-- What stands before the first fault of a text is as written, and `broken` stands in the place of the fault. A text
-- without value is one that pairs no surrogates: well formed, but not decodable.
mutual
inductive Value where
  | broken
  | null
  | bool (b : Bool)
  | number (n : Number)
  | text (t : Option String)
  | list (items : Items)
  | object (fields : Fields)
-- The items of a list; `cut` where neither a further item nor the end follows.
inductive Items where
  | closed
  | cut
  | item (value : Value) (rest : Items)
-- The fields of an object; `cut` where neither a further field nor the end follows. A key without its
-- value is followed by a broken one.
inductive Fields where
  | closed
  | cut
  | field (key : Option String) (value : Value) (rest : Fields)
end

instance : Inhabited Value := ⟨.broken⟩
instance : Inhabited Items := ⟨.closed⟩
instance : Inhabited Fields := ⟨.closed⟩

mutual
def Value.isWhole : Value → Bool
  | .broken => false
  | .list items => items.isWhole
  | .object fields => fields.isWhole
  | _ => true
def Items.isWhole : Items → Bool
  | .closed => true
  | .cut => false
  | .item value rest => value.isWhole && rest.isWhole
def Fields.isWhole : Fields → Bool
  | .closed => true
  | .cut => false
  | .field _ value rest => value.isWhole && rest.isWhole
end

mutual
-- Whole, with every text decodable, every number in range, and nested at most `room` deep.
def Value.isReadable : Value → Nat → Bool
  | .broken, _ => false
  | .null, _ | .bool _, _ => true
  | .number n, _ =>
    match n.magnitude with
    | .outOfRange => false
    | _ => true
  | .text t, _ => t.isSome
  | .list items, room => 0 < room && items.areReadable (room - 1)
  | .object fields, room => 0 < room && fields.areReadable (room - 1)
def Items.areReadable : Items → Nat → Bool
  | .closed, _ => true
  | .cut, _ => false
  | .item value rest, room => value.isReadable room && rest.areReadable room
def Fields.areReadable : Fields → Nat → Bool
  | .closed, _ => true
  | .cut, _ => false
  | .field key value rest, room => key.isSome && value.isReadable room && rest.areReadable room
end

def Value.string (value : String) : Value := .text (some value)

def Value.ofOption : Option String → Value
  | none => .null
  | some value => .string value

def Items.ofList : List Value → Items
  | [] => .closed
  | value :: rest => .item value (ofList rest)

def Fields.ofList : List (String × Value) → Fields
  | [] => .closed
  | (key, value) :: rest => .field (some key) value (ofList rest)

def Value.strings (values : List String) : Value := .list (.ofList (values.map .string))

end StateAttributes.Json
