import StateAttributes.Forest
import StateAttributes.Json.Decode

namespace StateAttributes

open Json

def Targets.toJson : Targets → Value
  | .terminal => .null
  | .one name => .string name
  | .many names => .strings names

def Forest.toFields : Forest → Fields
  | .nil => .closed
  | .leaf name targets rest => .field (some name) targets.toJson rest.toFields
  | .group name children rest => .field (some name) (.object children.toFields) rest.toFields

def Forest.toJson (forest : Forest) : Value := .object forest.toFields

def Body.toJson : Body → Value
  | .leaf targets => targets.toJson
  | .group children => children.toJson

def Json.Items.names? : Items → Option (List StateName)
  | .closed => some []
  | .item (.text (some name)) rest => rest.names?.map (name :: ·)
  | _ => none

mutual
-- The body that a value stands for, if it has one of the four shapes throughout.
def Body.ofValue? : Value → Option Body
  | .null => some (.leaf .terminal)
  | .text (some name) => some (.leaf (.one name))
  | .list items => items.names?.map fun names => .leaf (.many names)
  | .object fields => (Forest.ofFields? fields).map .group
  | _ => none
def Forest.ofFields? : Fields → Option Forest
  | .closed => some .nil
  | .field (some name) value rest => do
    let body ← Body.ofValue? value
    return (← Forest.ofFields? rest).cons name body
  | _ => none
end

-- A body is read to its end before its shape is judged, so a fault of form anywhere inside comes
-- before a wrong shape.
def Body.read (room : Nat) (value : Value) : Read Body :=
  if value.isReadable room then
    match Body.ofValue? value with
    | some body => .ok body
    | none => refuse (.noVariant "TargetSpec")
  else malformed

def Forest.ofEntries (entries : List (StateName × Body)) : Forest :=
  entries.foldr (fun (name, body) rest => rest.cons name body) .nil

-- The entries of the outermost level are judged one by one, as they come.
def Forest.read (room : Nat) (value : Value) : Read Forest :=
  Forest.ofEntries <$>
    value.readEntries "a map of state names to targets" Body.read room

end StateAttributes
