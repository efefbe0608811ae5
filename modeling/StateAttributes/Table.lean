import StateAttributes.Forest

namespace StateAttributes

-- Nodes are linked by their positions in the table.
inductive NodeKind where
  | leaf (targets : List StateName)
  | group (children : List Nat)
deriving DecidableEq, Repr, Inhabited

structure Node where
  name : StateName
  parent : Option Nat
  kind : NodeKind
deriving DecidableEq, Repr, Inhabited

namespace Node

def isLeaf (node : Node) : Bool :=
  match node.kind with
  | .leaf _ => true
  | .group _ => false

def targets? (node : Node) : Option (List StateName) :=
  match node.kind with
  | .leaf targets => some targets
  | .group _ => none

def children (node : Node) : List Nat :=
  match node.kind with
  | .leaf _ => []
  | .group children => children

end Node

-- In pre-order, so that a parent stands before its children.
structure Table where
  nodes : Array Node
  index : List (StateName × Nat)
  leaves : Array StateName
deriving DecidableEq, Repr, Inhabited

namespace Table

def empty : Table := ⟨#[], [], #[]⟩

def size (table : Table) : Nat := table.nodes.size

def find? (table : Table) (name : StateName) : Option Nat := table.index.lookup name

def contains (table : Table) (name : StateName) : Bool := (table.find? name).isSome

def node? (table : Table) (name : StateName) : Option Node :=
  (table.find? name).bind (table.nodes[·]?)

def isLeaf (table : Table) (name : StateName) : Bool := (table.node? name).any Node.isLeaf

-- Both walks below follow links only in the direction that compilation gives them: a parent has a
-- smaller position, a child a larger one inside the table. A link that broke this order would end
-- the walk instead of carrying it on.

-- A node and the groups around it, from the inside out.
def lineage (table : Table) (id : Nat) : List Nat :=
  match table.nodes[id]? with
  | none => []
  | some node =>
    match node.parent with
    | none => [id]
    | some parent => if parent < id then id :: table.lineage parent else [id]
termination_by id

-- Whether the node is called `name` or lies at any depth under the group of that name.
def isWithin (table : Table) (id : Nat) (name : StateName) : Bool :=
  (table.lineage id).any fun ancestor => (table.nodes[ancestor]?).any (·.name == name)

-- A node and everything below it, depth first in declaration order.
def subtree (table : Table) (id : Nat) : List Nat :=
  match table.nodes[id]? with
  | none => []
  | some node =>
    id :: node.children.flatMap fun child =>
      if _inside : id < child ∧ child < table.size then table.subtree child else []
termination_by table.size - id
decreasing_by omega

def leafName? (table : Table) (id : Nat) : Option StateName :=
  (table.nodes[id]?).bind fun node => if node.isLeaf then some node.name else none

def leavesUnder (table : Table) (id : Nat) : List StateName :=
  (table.subtree id).filterMap table.leafName?

end Table
end StateAttributes
