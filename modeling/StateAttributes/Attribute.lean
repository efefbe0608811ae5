import StateAttributes.Compile
import StateAttributes.Table.Expansion

namespace StateAttributes

-- Options for storage. They have no bearing on transitions.
structure Options where
  scopePrefix : String := ""
  allowNil : Bool := false
  message : Option String := none
deriving DecidableEq, Repr, Inhabited

structure Attribute where
  name : String
  initial : StateName
  events : List String
  options : Options
  table : Table
deriving DecidableEq, Repr, Inhabited

-- A declaration under construction. The default and the states have to be given before it compiles.
structure Draft where
  name : String
  initial? : Option StateName := none
  events : List String := []
  states? : Option Forest := none
  options : Options := {}
deriving DecidableEq, Repr, Inhabited

def Attribute.compile (name : String) (initial : StateName) (events : List String)
    (options : Options) (states : Forest) : Except CompileError Attribute :=
  match Table.ofForest states initial with
  | .ok table => .ok ⟨name, initial, events, options, table⟩
  | .error fault => .error ⟨name, fault⟩

-- A draft that lacks both is told of the default first.
def Draft.compile (draft : Draft) : Except CompileError Attribute :=
  match draft.initial?, draft.states? with
  | none, _ => .error ⟨draft.name, .missingDefault⟩
  | some _, none => .error ⟨draft.name, .missingStates⟩
  | some initial, some states =>
    Attribute.compile draft.name initial draft.events draft.options states

structure NotALeaf where
  name : StateName
deriving DecidableEq, Repr, Inhabited

def NotALeaf.message (error : NotALeaf) : String :=
  "'" ++ error.name ++ "' is a group state; only leaf states have transitions"

structure State where
  owner : Attribute
  id : Nat
  node : Node
deriving DecidableEq, Repr, Inhabited

namespace Attribute

variable (attr : Attribute)

def stateAt? (id : Nat) : Option State :=
  (attr.table.nodes[id]?).map (State.mk attr id)

def state? (name : StateName) : Option State :=
  (attr.table.find? name).bind attr.stateAt?

def states : List State :=
  (List.range attr.table.size).filterMap attr.stateAt?

def values : List StateName := attr.table.leaves.toList

def size : Nat := attr.table.size

def contains (name : StateName) : Bool := attr.table.contains name

def isLeaf (name : StateName) : Bool := attr.table.isLeaf name

-- The leaves that a name stands for; nothing for a name that is not declared.
def flatten? (name : StateName) : Option (List StateName) :=
  (attr.table.find? name).map attr.table.flatten

end Attribute

namespace State

variable (state : State)

def name : StateName := state.node.name

def isLeaf : Bool := state.node.isLeaf

def isGroup : Bool := !state.node.isLeaf

def parent? : Option State := state.node.parent.bind state.owner.stateAt?

def children : List State := state.node.children.filterMap state.owner.stateAt?

-- Whether the state is called `name` or lies at any depth inside the group of that name.
def isWithin (name : StateName) : Bool := state.owner.table.isWithin state.id name

-- The leaves reachable in one step. A group is never current, so it has none to answer.
def transitions : Except NotALeaf (List StateName) :=
  match state.owner.table.transitions? state.id with
  | some names => .ok names
  | none => .error ⟨state.name⟩

def canReach (target : StateName) : Bool :=
  match state.transitions with
  | .ok names => names.contains target
  | .error _ => false

def isTerminal : Bool :=
  match state.transitions with
  | .ok names => names.isEmpty
  | .error _ => false

def leaves : List StateName := state.owner.table.leavesUnder state.id

end State

def Attribute.terminalValues (attr : Attribute) : List StateName :=
  attr.values.filter fun name => (attr.state? name).any State.isTerminal

end StateAttributes
