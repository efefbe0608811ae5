namespace StateAttributes

-- Leaves and groups of one attribute share one name space.
abbrev StateName := String

namespace StateName

def debug (name : StateName) : String := ":" ++ name

-- In ascending order of code points; equal names stay side by side.
def sorted (names : List StateName) : List StateName := names.mergeSort fun a b => decide (a ≤ b)

def distinct (names : List StateName) : List StateName :=
  (sorted names).foldr (fun name rest => if rest.head? = some name then rest else name :: rest) []

-- The last place where a name stands.
def lastPosition? (names : List StateName) (name : StateName) : Option Nat :=
  names.zipIdx.reverse.lookup name

end StateName

-- What a leaf leads to, in the spelling of its declaration.
inductive Targets where
  | terminal
  | one (name : StateName)
  | many (names : List StateName)
deriving DecidableEq, Repr, Inhabited

-- The spelling is only notation: everything after the declaration sees this list.
def Targets.toList : Targets → List StateName
  | .terminal => []
  | .one name => [name]
  | .many names => names

def Targets.ofOption : Option StateName → Targets
  | none => .terminal
  | some name => .one name

-- A forest of declared states. The siblings that follow an entry are its `rest`. Repeated names are kept, because
-- a later layer reports the repetition.
inductive Forest where
  | nil
  | leaf (name : StateName) (targets : Targets) (rest : Forest)
  | group (name : StateName) (children rest : Forest)
deriving DecidableEq, Repr, Inhabited

inductive Body where
  | leaf (targets : Targets)
  | group (children : Forest)
deriving DecidableEq, Repr, Inhabited

namespace Body

def isGroup : Body → Bool
  | leaf _ => false
  | group _ => true

def targets : Body → List StateName
  | leaf targets => targets.toList
  | group _ => []

end Body

namespace Forest

def cons (rest : Forest) (name : StateName) (body : Body) : Forest :=
  match body with
  | .leaf targets => .leaf name targets rest
  | .group children => .group name children rest

def entries : Forest → List (StateName × Body)
  | nil => []
  | leaf name targets rest => (name, .leaf targets) :: rest.entries
  | group name children rest => (name, .group children) :: rest.entries

def length (forest : Forest) : Nat := forest.entries.length

def isEmpty (forest : Forest) : Bool := forest.entries.isEmpty

def get? (forest : Forest) (name : StateName) : Option Body :=
  (forest.entries.find? (·.1 == name)).map (·.2)

end Forest

-- A line of an outline: the line's depth, its name, and its targets unless it opens a group.
structure OutlineRow where
  depth : Nat
  name : StateName
  leaf? : Option Targets

-- Read from the last line upwards, the finished levels are kept by depth. A line stands before what
-- is already known of its own depth, and a group takes the level below it.
def OutlineRow.under (row : OutlineRow) (levels : List Forest) : List Forest :=
  let here := levels.getD row.depth .nil
  let above := levels.take row.depth ++ List.replicate (row.depth - levels.length) .nil
  match row.leaf? with
  | some targets => above ++ [.leaf row.name targets here]
  | none => above ++ [.group row.name (levels.getD (row.depth + 1) .nil) here]

def Forest.ofOutline (rows : List OutlineRow) : Forest :=
  (rows.foldr OutlineRow.under []).getD 0 .nil

end StateAttributes
