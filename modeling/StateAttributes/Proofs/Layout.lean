import StateAttributes.Compile
import StateAttributes.Proofs.Declaration

namespace StateAttributes

-- The first name that is taken already or repeats an earlier one.
def firstTaken (taken : List StateName) : List StateName → Option StateName
  | [] => none
  | name :: rest => if name ∈ taken then some name else firstTaken (name :: taken) rest

theorem firstTaken_append (taken names more : List StateName) :
    firstTaken taken (names ++ more) =
      (firstTaken taken names).or (firstTaken (names.reverse ++ taken) more) := by
  induction names generalizing taken with
  | nil => simp [firstTaken]
  | cons name rest ih =>
    by_cases old : name ∈ taken
    · simp [firstTaken, old]
    · simp [firstTaken, old, ih]

theorem firstTaken_none {taken names : List StateName} :
    firstTaken taken names = none ↔ names.Nodup ∧ ∀ name ∈ names, name ∉ taken := by
  induction names generalizing taken with
  | nil => simp [firstTaken]
  | cons name rest ih =>
    by_cases old : name ∈ taken
    · simp [firstTaken, old]
    · simp only [firstTaken, old, if_false, ih, List.nodup_cons, List.mem_cons]
      grind

theorem firstTaken_some {taken names : List StateName} :
    firstTaken taken names = some name ↔
      ∃ before after, names = before ++ name :: after ∧ before.Nodup ∧
        (∀ earlier ∈ before, earlier ∉ taken) ∧ (name ∈ before ∨ name ∈ taken) := by
  induction names generalizing taken with
  | nil => simp [firstTaken]
  | cons first rest ih =>
    by_cases old : first ∈ taken
    · simp only [firstTaken, old, if_true, Option.some.injEq]
      constructor
      · rintro rfl
        exact ⟨[], rest, rfl, .nil, by simp, .inr old⟩
      · intro clash
        obtain ⟨before, after, split, unique, fresh, repeated⟩ := clash
        cases before with
        | nil => exact (List.cons.inj split).1
        | cons head tail =>
          cases (List.cons.inj split).1
          exact absurd old (fresh _ List.mem_cons_self)
    · simp only [firstTaken, old, if_false, ih]
      constructor
      · rintro ⟨before, after, rfl, unique, fresh, repeated⟩
        exact ⟨first :: before, after, rfl, by grind, by grind, by grind⟩
      · intro clash
        obtain ⟨before, after, split, unique, fresh, repeated⟩ := clash
        cases before with
        | nil =>
          cases (List.cons.inj split).1
          exact absurd repeated (by simp [old])
        | cons head tail =>
          obtain ⟨rfl, rfl⟩ := List.cons.inj split
          exact ⟨tail, after, rfl, by grind, by grind, by grind⟩

@[simp] theorem leaf_targets (name : StateName) (parent : Option Nat) (targets : List StateName) :
    (Node.mk name parent (.leaf targets)).targets? = some targets := rfl
@[simp] theorem group_targets (name : StateName) (parent : Option Nat) (children : List Nat) :
    (Node.mk name parent (.group children)).targets? = none := rfl

theorem distinct_none {names : List StateName} : firstTaken [] names = none ↔ names.Nodup := by
  simp [firstTaken_none]

theorem repeated_some {names : List StateName} :
    firstTaken [] names = some name ↔
      ∃ before after, names = before ++ name :: after ∧ before.Nodup ∧ name ∈ before := by
  simp [firstTaken_some]

namespace Forest

-- The positions of the top level if its first entry stands at `first`: each next one stands behind
-- everything inside the one before.
def roots (first : Nat) : Forest → List Nat
  | nil => []
  | leaf _ _ rest => first :: rest.roots (first + 1)
  | group _ children rest => first :: rest.roots (first + 1 + children.count)

def layout (parent : Option Nat) (first : Nat) : Forest → List Node
  | nil => []
  | leaf name targets rest => ⟨name, parent, .leaf targets.toList⟩ :: rest.layout parent (first + 1)
  | group name children rest =>
    ⟨name, parent, .group (children.roots (first + 1))⟩ ::
      (children.layout (some first) (first + 1) ++
        rest.layout parent (first + 1 + children.count))

@[simp] theorem layout_length (states : Forest) (parent : Option Nat) (first : Nat) :
    (states.layout parent first).length = states.count := by
  induction states generalizing parent first with
  | nil => rfl
  | leaf name targets rest ih => simp [layout, ih]
  | group name children rest insideIh restIh => simp [layout, insideIh, restIh]

-- Each entry leaves one node, with its name and its targets.
theorem layout_entries (states : Forest) (parent : Option Nat) (first : Nat) :
    (states.layout parent first).map (fun node => (node.name, node.targets?)) =
      states.declared.map fun entry => (entry.1, entry.2.targets?) := by
  induction states generalizing parent first with
  | nil => rfl
  | leaf name targets rest ih => simp [layout, declared, ih]
  | group name children rest insideIh restIh =>
    simp [layout, declared, insideIh, restIh]

end Forest

namespace Table

def laid (table : Table) (parent : Option Nat) (states : Forest) : Table where
  nodes := table.nodes ++ (states.layout parent table.size).toArray
  index := (states.names.zipIdx table.size).reverse ++ table.index
  leaves := table.leaves ++ states.leafNames.toArray

def taken (table : Table) : List StateName := table.index.map (·.1)

@[simp] theorem empty_size : empty.size = 0 := rfl
@[simp] theorem empty_taken : empty.taken = [] := rfl

theorem contains_iff (table : Table) (name : StateName) : table.contains name ↔ name ∈ table.taken := by
  simp [contains, find?, taken]

def entered (table : Table) (name : StateName) (parent : Option Nat) (kind : NodeKind) : Table where
  nodes := table.nodes.push ⟨name, parent, kind⟩
  index := (name, table.size) :: table.index
  leaves := table.leaves

@[simp] theorem entered_size {table : Table} : (table.entered name parent kind).size = table.size + 1 := by
  simp [entered, size]

@[simp] theorem entered_taken {table : Table} :
    (table.entered name parent kind).taken = name :: table.taken := rfl

theorem register_taken {table : Table} (old : name ∈ table.taken) :
    table.register name parent kind = .error (.duplicateName name) := by
  rw [register, if_pos ((table.contains_iff name).mpr old)]

theorem register_fresh {table : Table} (fresh : name ∉ table.taken) :
    table.register name parent kind = .ok (table.size, table.entered name parent kind) := by
  rw [register, if_neg (mt (table.contains_iff name).mp fresh)]
  rfl

@[simp] theorem addLeaf_size {table : Table} : (table.addLeaf name).size = table.size := rfl
@[simp] theorem addLeaf_taken {table : Table} : (table.addLeaf name).taken = table.taken := rfl

@[simp] theorem adopt_size {table : Table} {group : Nat} :
    (table.adopt group children).size = table.size := by
  simp [adopt, size]

@[simp] theorem adopt_taken {table : Table} {group : Nat} :
    (table.adopt group children).taken = table.taken := rfl

@[simp] theorem laid_size {table : Table} : (table.laid parent states).size = table.size + states.count := by
  simp [laid, size]

@[simp] theorem laid_taken {table : Table} :
    (table.laid parent states).taken = states.names.reverse ++ table.taken := by
  simp [laid, taken]

@[simp] theorem laid_nil (table : Table) : table.laid parent .nil = table := by
  simp [laid, Forest.layout]

theorem laid_leaf (table : Table) :
    ((table.entered name parent (.leaf targets.toList)).addLeaf name).laid parent rest =
      table.laid parent (.leaf name targets rest) := by
  simp [laid, entered, addLeaf, size, Forest.layout, List.zipIdx_cons]

-- A node is changed in place, whatever has been laid out behind it by then.
theorem modify_behind (nodes : Array Node) (node : Node) (behind : List Node) (change : Node → Node) :
    (nodes ++ (node :: behind).toArray).modify nodes.size change =
      nodes ++ (change node :: behind).toArray := by
  apply Array.ext'
  have split := List.modifyTailIdx_add (List.modifyHead change) 0 nodes.toList (node :: behind)
  simpa [List.modify] using split

theorem laid_group (table : Table) :
    (((table.entered name parent (.group [])).laid (some table.size) children).adopt table.size
        (children.roots (table.size + 1))).laid parent rest =
      table.laid parent (.group name children rest) := by
  have nodes := modify_behind table.nodes ⟨name, parent, .group []⟩
    (children.layout (some table.size) (table.size + 1))
    fun node => { node with kind := .group (children.roots (table.size + 1)) }
  simp only [size] at nodes
  simp [laid, entered, adopt, size, Forest.layout, List.zipIdx_cons, List.zipIdx_append,
    Forest.names_length, nodes, Nat.add_assoc, Nat.add_comm 1 children.count]

-- Laying a forest out under names of which none is taken leaves the nodes that can be read off the
-- forest; otherwise the first clash in pre-order is refused, and nothing behind it is looked at.
theorem place_exact (states : Forest) (parent : Option Nat) (table : Table) :
    place parent states table =
      match firstTaken table.taken states.names with
      | some name => .error (.duplicateName name)
      | none => .ok (states.roots table.size, table.laid parent states) := by
  induction states generalizing parent table with
  | nil => simp [place, firstTaken, Forest.roots]
  | leaf name targets rest ih =>
    by_cases old : name ∈ table.taken
    · simp [place, register_taken old, firstTaken, old, bind, Except.bind]
    · simp only [place, register_fresh old, bind, Except.bind, ih, Forest.names_leaf, firstTaken, old,
        if_false, addLeaf_taken, entered_taken, addLeaf_size, entered_size]
      cases clash : firstTaken (name :: table.taken) rest.names with
      | some again => rfl
      | none => simp only [laid_leaf, Forest.roots]; rfl
  | group name children rest insideIh restIh =>
    by_cases old : name ∈ table.taken
    · simp [place, register_taken old, firstTaken, old, bind, Except.bind]
    · simp only [place, register_fresh old, bind, Except.bind, insideIh, Forest.names_group, firstTaken,
        old, if_false, entered_taken, entered_size, firstTaken_append]
      cases inside : firstTaken (name :: table.taken) children.names with
      | some again => rfl
      | none =>
        simp only [restIh, adopt_taken, adopt_size, laid_taken, laid_size, entered_taken, entered_size,
          Option.none_or]
        cases clash : firstTaken (children.names.reverse ++ name :: table.taken) rest.names with
        | some again => rfl
        | none => simp only [laid_group, Forest.roots]; rfl

end Table
end StateAttributes
