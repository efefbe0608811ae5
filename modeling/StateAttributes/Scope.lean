import StateAttributes.Attribute
import StateAttributes.Json.Decode

namespace StateAttributes

open Json

structure Scope where
  name : String
  attributeName : String
  states : List StateName
deriving DecidableEq, Repr, Inhabited

namespace Scope

def ofState (state : State) : Scope :=
  ⟨state.owner.options.scopePrefix ++ state.name, state.owner.name, state.leaves⟩

def of? (attr : Attribute) (name : StateName) : Option Scope := (attr.state? name).map ofState

def all (attr : Attribute) : List Scope := attr.states.filterMap fun state => of? attr state.name

def admits (scope : Scope) (value : Option StateName) : Bool := value.any scope.states.contains

def isSingle (scope : Scope) : Bool := scope.states.length == 1

def toJson (scope : Scope) : Value :=
  .object (.ofList [
    ("name", .string scope.name),
    ("attribute", .string scope.attributeName),
    ("states", .strings scope.states)])

structure Gathered where
  name : Option String := none
  attributeName : Option String := none
  states : Option (List StateName) := none

def form (room : Nat) : RecordForm Gathered where
  type := "Scope"
  keys := ["name", "attribute", "states"]
  empty := {}
  fill key draft :=
    match key with
    | "name" => some (once key draft.name Value.readString fun x => { draft with name := some x })
    | "attribute" =>
      some (once key draft.attributeName Value.readString
        fun x => { draft with attributeName := some x })
    | "states" =>
      some (once key draft.states (Value.readList (fun _ => Value.readString) room)
        fun x => { draft with states := some x })
    | _ => none

def read (room : Nat) (value : Value) : Read Scope := do
  let (draft, origin) ← RecordForm.read form room value
  return {
    name := ← origin.require "name" draft.name
    attributeName := ← origin.require "attribute" draft.attributeName
    states := ← origin.require "states" draft.states }

def toText (scope : Scope) : String := scope.toJson.render

def ofText (text : String) : Read Scope := Read.ofText read text

end Scope
end StateAttributes
