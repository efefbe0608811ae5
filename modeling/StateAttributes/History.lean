import StateAttributes.Forest
import StateAttributes.Instant.Text
import StateAttributes.Json.Decode

namespace StateAttributes

open Json

-- A transition that was carried out. An empty slot has no source.
structure Transition where
  attributeName : String
  source : Option StateName
  target : StateName
  timestamp : Instant
deriving DecidableEq, Repr, Inhabited

structure History where
  transitions : List Transition
deriving DecidableEq, Repr, Inhabited

namespace History

def empty : History := ⟨[]⟩

def record (history : History) (transition : Transition) : History :=
  ⟨history.transitions ++ [transition]⟩

def length (history : History) : Nat := history.transitions.length

def isEmpty (history : History) : Bool := history.transitions.isEmpty

def forAttribute (history : History) (name : String) : List Transition :=
  history.transitions.filter (·.attributeName == name)

-- The states that one attribute went through: where its first transition started, if it started
-- anywhere, and then every target.
def path (history : History) (name : String) : List StateName :=
  let steps := history.forAttribute name
  (steps.head?.bind (·.source)).toList ++ steps.map (·.target)

-- The time from the first to the last transition, whatever their attributes.
def duration? (history : History) : Option Elapsed := do
  let first ← history.transitions.head?
  let last ← history.transitions.getLast?
  first.timestamp.elapsed? last.timestamp

end History

def Instant.readJson (value : Value) : Read Instant :=
  match value with
  | .text (some t) =>
    match Instant.parse? t with
    | some instant => .ok instant
    | none => .error .badInstant
  | value => value.unexpected "an RFC 3339 formatted date and time string"

namespace Transition

def toJson (transition : Transition) : Value :=
  .object (.ofList [
    ("attribute", .string transition.attributeName),
    ("from", .ofOption transition.source),
    ("to", .string transition.target),
    ("timestamp", .string transition.timestamp.render)])

structure Gathered where
  attributeName : Option String := none
  source : Option (Option StateName) := none
  target : Option StateName := none
  timestamp : Option Instant := none

def form (_room : Nat) : RecordForm Gathered where
  type := "StateTransition"
  keys := ["attribute", "from", "to", "timestamp"]
  empty := {}
  fill key draft :=
    match key with
    | "attribute" =>
      some (once key draft.attributeName Value.readString
        fun x => { draft with attributeName := some x })
    | "from" =>
      some (once key draft.source (Value.readOption Value.readString)
        fun x => { draft with source := some x })
    | "to" => some (once key draft.target Value.readString fun x => { draft with target := some x })
    | "timestamp" =>
      some (once key draft.timestamp Instant.readJson fun x => { draft with timestamp := some x })
    | _ => none

def read (room : Nat) (value : Value) : Read Transition := do
  let (draft, origin) ← RecordForm.read form room value
  return {
    attributeName := ← origin.require "attribute" draft.attributeName
    source := ← origin.optional "from" draft.source
    target := ← origin.require "to" draft.target
    timestamp := ← origin.require "timestamp" draft.timestamp }

end Transition

namespace History

def toJson (history : History) : Value :=
  .object (.ofList [("transitions", .list (.ofList (history.transitions.map Transition.toJson)))])

structure Gathered where
  transitions : Option (List Transition) := none

def form (room : Nat) : RecordForm Gathered where
  type := "StateHistory"
  keys := ["transitions"]
  empty := {}
  fill key draft :=
    match key with
    | "transitions" =>
      some (once key draft.transitions (Value.readList Transition.read room)
        fun x => { draft with transitions := some x })
    | _ => none

def read (room : Nat) (value : Value) : Read History := do
  let (draft, origin) ← RecordForm.read form room value
  return ⟨← origin.require "transitions" draft.transitions⟩

def toText (history : History) : String := history.toJson.render

def ofText (text : String) : Read History := Read.ofText read text

end History

end StateAttributes
