import StateAttributes.Slots
import StateAttributes.History
import StateAttributes.Attribute

namespace StateAttributes

open Json

structure Values where
  current : Slots
  committed : Slots
  history : History
deriving DecidableEq, Repr, Inhabited

namespace Values

def empty : Values := ⟨.empty, .empty, .empty⟩

-- A new host: one slot per attribute at its default. Nothing is committed, so each counts as changed.
def initial (attributes : List Attribute) : Values :=
  { empty with current := .ofList (attributes.map fun attr => (attr.name, some attr.initial)) }

def get (values : Values) (name : String) : Option StateName := values.current.get name

def set (values : Values) (name : String) (value : Option StateName) : Values :=
  { values with current := values.current.insert name value }

def changes? (values : Values) (name : String) : Option (Option StateName × Option StateName) :=
  let old := values.committed.get name
  let new := values.get name
  if old = new then none else some (old, new)

-- The names of the current slots come first, then those that only the last commit knows.
def changedAttributes (values : Values) : List String :=
  (values.current.keys ++ values.committed.keys).foldl (fun names name =>
    if (values.changes? name).isSome && !names.contains name then names ++ [name] else names) []

def previous (values : Values) (name : String) : Option StateName :=
  (values.changes? name).bind (·.1)

def commit (values : Values) : Values := { values with committed := values.current }

def record (values : Values) (transition : Transition) : Values :=
  { values with history := values.history.record transition }

end Values

-- A host type gives access to the values that it carries.
class Stateful (H : Type) where
  values : H → Values
  setValues : H → Values → H

instance : Stateful Values := ⟨id, fun _ values => values⟩

def Slots.toJson (slots : Slots) : Value :=
  .object (.ofList (slots.entries.map fun (key, value) => (key, .ofOption value)))

def Slots.read (room : Nat) (value : Value) : Read Slots :=
  Slots.ofList <$>
    value.readEntries "a map" (fun _ => Value.readOption Value.readString) room

namespace Values

def toJson (values : Values) : Value :=
  .object (.ofList [
    ("current", values.current.toJson),
    ("persisted", values.committed.toJson),
    ("history", values.history.toJson)])

structure Gathered where
  current : Option Slots := none
  committed : Option Slots := none
  history : Option History := none

def form (room : Nat) : RecordForm Gathered where
  type := "StateValues"
  keys := ["current", "persisted", "history"]
  empty := {}
  fill key draft :=
    match key with
    | "current" => some (once key draft.current (Slots.read room) fun x => { draft with current := some x })
    | "persisted" =>
      some (once key draft.committed (Slots.read room) fun x => { draft with committed := some x })
    | "history" => some (once key draft.history (History.read room) fun x => { draft with history := some x })
    | _ => none

def read (room : Nat) (value : Value) : Read Values := do
  let (draft, origin) ← RecordForm.read form room value
  return {
    current := ← origin.require "current" draft.current
    committed := draft.committed.getD .empty
    history := draft.history.getD .empty }

def toText (values : Values) : String := values.toJson.render

def ofText (text : String) : Read Values := Read.ofText read text

end Values
end StateAttributes
