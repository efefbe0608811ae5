import StateAttributes.Table

namespace StateAttributes

-- The answers already worked out, by node.
structure Memo where
  flattened : List (Nat × List StateName)
  transitions : List (Nat × List StateName)
deriving DecidableEq, Repr, Inhabited

def Memo.empty : Memo := ⟨[], []⟩

-- An ordered union: a name that is already listed keeps its first place.
def addNew (listed more : List StateName) : List StateName :=
  more.foldl (fun listed name => if listed.contains name then listed else listed ++ [name]) listed

namespace Table

-- The leaves that a node stands for, and what is known after the question.
def flattenFrom (table : Table) (id : Nat) (memo : Memo) : List StateName × Memo :=
  match memo.flattened.lookup id with
  | some known => (known, memo)
  | none =>
    match table.nodes[id]? with
    | none => ([], memo)
    | some node =>
      match node.kind with
      | .leaf _ => ([node.name], { memo with flattened := (id, [node.name]) :: memo.flattened })
      | .group children =>
        let (names, memo) := children.foldl (fun (names, memo) child =>
          if _inside : id < child ∧ child < table.size then
            let (more, memo) := table.flattenFrom child memo
            (addNew names more, memo)
          else (names, memo)) ([], memo)
        (names, { memo with flattened := (id, names) :: memo.flattened })
termination_by table.size - id
decreasing_by omega

-- Inside one group a leaf is listed once; between targets repetitions stay.
def expandFrom (table : Table) (targets : List StateName) (memo : Memo) : List StateName × Memo :=
  targets.foldl (fun (names, memo) target =>
    match table.find? target with
    | none => (names, memo)
    | some id =>
      let (more, memo) := table.flattenFrom id memo
      (names ++ more, memo)) ([], memo)

-- The leaves that a leaf leads to, and what is known after the question; a group leads nowhere.
def transitionsFrom (table : Table) (id : Nat) (memo : Memo) : Option (List StateName) × Memo :=
  match (table.nodes[id]?).bind Node.targets? with
  | none => (none, memo)
  | some targets =>
    match memo.transitions.lookup id with
    | some known => (some known, memo)
    | none =>
      let (names, memo) := table.expandFrom targets memo
      (some names, { memo with transitions := (id, names) :: memo.transitions })

def flatten (table : Table) (id : Nat) : List StateName :=
  (table.flattenFrom id .empty).1

def transitions? (table : Table) (id : Nat) : Option (List StateName) :=
  (table.transitionsFrom id .empty).1

end Table
end StateAttributes
