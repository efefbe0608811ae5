import StateAttributes.Table

namespace StateAttributes

inductive DeclarationFault where
  | duplicateName (name : StateName)
  | unknownTarget (source target : StateName)
  | defaultNotLeaf (name : StateName)
  | missingDefault
  | missingStates
deriving DecidableEq, Repr, Inhabited

-- A declaration of the named attribute that was refused.
structure CompileError where
  attributeName : String
  fault : DeclarationFault
deriving DecidableEq, Repr, Inhabited

def CompileError.message (error : CompileError) : String :=
  match error.fault with
  | .duplicateName name =>
    "Attribute '" ++ error.attributeName ++ "' declares state '" ++ name ++ "' more than once"
  | .unknownTarget source target =>
    "State '" ++ source ++ "' of attribute '" ++ error.attributeName ++ "' references unknown state '"
      ++ target ++ "'"
  | .defaultNotLeaf name =>
    "Default state '" ++ name ++ "' of attribute '" ++ error.attributeName
      ++ "' is not a declared leaf state"
  | .missingDefault =>
    "Default state not specified for attribute '" ++ error.attributeName
      ++ "'. Call .default_state(name) before .build()"
  | .missingStates =>
    "No states declared for attribute '" ++ error.attributeName
      ++ "'. Call .states(spec) before .build()"

namespace Table

-- Appends a node under a name that is still free.
def register (table : Table) (name : StateName) (parent : Option Nat) (kind : NodeKind) :
    Except DeclarationFault (Nat × Table) :=
  if table.contains name then .error (.duplicateName name)
  else
    let id := table.size
    .ok (id, { table with
      nodes := table.nodes.push ⟨name, parent, kind⟩
      index := (name, id) :: table.index })

def addLeaf (table : Table) (name : StateName) : Table :=
  { table with leaves := table.leaves.push name }

-- Gives a group the children that were laid out after it.
def adopt (table : Table) (id : Nat) (children : List Nat) : Table :=
  { table with nodes := table.nodes.modify id fun node => { node with kind := .group children } }

-- Lays out one level under `parent` and answers the positions of its entries.
def place (parent : Option Nat) :
    Forest → Table → Except DeclarationFault (List Nat × Table)
  | .nil, table => .ok ([], table)
  | .leaf name targets rest, table => do
    let (id, table) ← table.register name parent (.leaf targets.toList)
    let (ids, table) ← place parent rest (table.addLeaf name)
    return (id :: ids, table)
  | .group name children rest, table => do
    let (id, table) ← table.register name parent (.group [])
    let (inner, table) ← place (some id) children table
    let (ids, table) ← place parent rest (table.adopt id inner)
    return (id :: ids, table)

-- The first target, by position of its leaf and then in the leaf's own order, that is not declared.
def danglingTarget? (table : Table) : Option (StateName × StateName) :=
  table.nodes.toList.findSome? fun node =>
    ((node.targets?.getD []).find? fun target => !table.contains target).map (node.name, ·)

-- The table of a forest, once every check has passed. Targets and default are judged on the finished table, so a
-- target may be declared after the leaf that leads to it.
def ofForest (states : Forest) (initial : StateName) : Except DeclarationFault Table := do
  let (_, table) ← place none states empty
  if let some (source, target) := table.danglingTarget? then
    throw (.unknownTarget source target)
  unless table.isLeaf initial do
    throw (.defaultNotLeaf initial)
  return table

end Table
end StateAttributes
