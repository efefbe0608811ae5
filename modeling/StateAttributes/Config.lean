import StateAttributes.Attribute
import StateAttributes.Forest.Json

namespace StateAttributes

open Json

structure Config where
  name : String
  initial : StateName
  events : List String
  states : Forest
  scopePrefix : String
  allowNil : Bool
  message : Option String
deriving DecidableEq, Repr, Inhabited

namespace Config

def options (config : Config) : Options := ⟨config.scopePrefix, config.allowNil, config.message⟩

def toDraft (config : Config) : Draft :=
  { name := config.name
    initial? := some config.initial
    events := config.events
    states? := some config.states
    options := config.options }

def compile (config : Config) : Except CompileError Attribute := config.toDraft.compile

-- An absent message is left out.
def toJson (config : Config) : Value :=
  .object (.ofList ([
    ("name", .string config.name),
    ("default", .string config.initial),
    ("events", .strings config.events),
    ("states", config.states.toJson),
    ("prefix", .string config.scopePrefix),
    ("allow_nil", .bool config.allowNil)]
    ++ (config.message.map fun message => ("message", .string message)).toList))

structure Gathered where
  name : Option String := none
  initial : Option StateName := none
  events : Option (List String) := none
  states : Option Forest := none
  scopePrefix : Option String := none
  allowNil : Option Bool := none
  message : Option (Option String) := none

def form (room : Nat) : RecordForm Gathered where
  type := "AttributeConfig"
  keys := ["name", "default", "events", "states", "prefix", "allow_nil", "message"]
  empty := {}
  fill key draft :=
    match key with
    | "name" => some (once key draft.name Value.readString fun x => { draft with name := some x })
    | "default" => some (once key draft.initial Value.readString fun x => { draft with initial := some x })
    | "events" =>
      some (once key draft.events (Value.readList (fun _ => Value.readString) room)
        fun x => { draft with events := some x })
    | "states" => some (once key draft.states (Forest.read room) fun x => { draft with states := some x })
    | "prefix" =>
      some (once key draft.scopePrefix Value.readString fun x => { draft with scopePrefix := some x })
    | "allow_nil" => some (once key draft.allowNil Value.readBool fun x => { draft with allowNil := some x })
    | "message" =>
      some (once key draft.message (Value.readOption Value.readString)
        fun x => { draft with message := some x })
    | _ => none

def read (room : Nat) (value : Value) : Read Config := do
  let (draft, origin) ← RecordForm.read form room value
  return {
    name := ← origin.require "name" draft.name
    initial := ← origin.require "default" draft.initial
    events := draft.events.getD []
    states := ← origin.require "states" draft.states
    scopePrefix := draft.scopePrefix.getD ""
    allowNil := draft.allowNil.getD false
    message := draft.message.getD none }

def ofText (text : String) : Read Config := Read.ofText read text

def listOfText (text : String) : Read (List Config) := Read.ofText (Value.readList read) text

def toText (config : Config) : String := config.toJson.render

end Config

-- What precedes the account of a declaration text that does not read.
def invalidDeclaration : String := "Invalid attribute declaration: "

end StateAttributes
