import Mathlib.Data.List.Sort
import Mathlib.Tactic.TFAE
import StateAttributes.Proofs.Preorder

namespace StateAttributes

variable {table : Table} {states : Forest} {parent : Option Nat} {first id : Nat}

namespace Forest

-- The same forest with every leaf spelled as the list of its targets.
def normal : Forest → Forest
  | nil => nil
  | leaf name targets rest => leaf name (.many targets.toList) rest.normal
  | group name children rest => group name children.normal rest.normal

@[simp] theorem normal_count (states : Forest) : states.normal.count = states.count := by
  induction states with
  | nil => rfl
  | leaf name targets rest ih => simp [normal, ih]
  | group name children rest insideIh restIh => simp [normal, insideIh, restIh]

@[simp] theorem normal_names (states : Forest) : states.normal.names = states.names := by
  induction states with
  | nil => rfl
  | leaf name targets rest ih => simp [normal, ih]
  | group name children rest insideIh restIh => simp [normal, insideIh, restIh]

@[simp] theorem normal_leafNames (states : Forest) : states.normal.leafNames = states.leafNames := by
  induction states with
  | nil => rfl
  | leaf name targets rest ih => simp [normal, ih]
  | group name children rest insideIh restIh => simp [normal, insideIh, restIh]

@[simp] theorem normal_roots (states : Forest) (first : Nat) : states.normal.roots first = states.roots first := by
  induction states generalizing first with
  | nil => rfl
  | leaf name targets rest ih => simp [normal, roots, ih]
  | group name children rest insideIh restIh => simp [normal, roots, restIh]

theorem normal_layout (states : Forest) (parent : Option Nat) (first : Nat) :
    states.normal.layout parent first = states.layout parent first := by
  induction states generalizing parent first with
  | nil => rfl
  | leaf name targets rest ih => simp [normal, layout, ih, Targets.toList]
  | group name children rest insideIh restIh => simp [normal, layout, insideIh, restIh]

theorem normal_table (states : Forest) : states.normal.table = states.table := by
  simp [table, Table.laid, normal_layout]

end Forest

namespace Table

-- Puts a node, with everything below it, before the entries that follow it on its level.
def readBefore (table : Table) (id : Nat) (rest : Forest) : Forest :=
  match table.nodes[id]? with
  | none => rest
  | some node =>
    match node.kind with
    | .leaf targets => .leaf node.name (.many targets) rest
    | .group children =>
      .group node.name
        (children.foldr (fun child later =>
          if _inside : id < child ∧ child < table.size then table.readBefore child later else later) .nil)
        rest
termination_by table.size - id
decreasing_by omega

def readLevel (table : Table) (ids : List Nat) : Forest := ids.foldr table.readBefore .nil

-- The nodes that lie in no group.
def topLevel (table : Table) : List Nat :=
  (List.range table.size).filter fun id => (table.parentAt? id).isNone

def readBack (table : Table) : Forest := table.readLevel table.topLevel

theorem readBefore_leaf (stored : table.nodes[id]? = some ⟨name, outer, .leaf targets⟩) (rest : Forest) :
    table.readBefore id rest = .leaf name (.many targets) rest := by
  rw [readBefore]
  simp [stored]

theorem readBefore_group (stored : table.nodes[id]? = some ⟨name, outer, .group children⟩)
    (inside : ∀ child ∈ children, id < child ∧ child < table.size) (rest : Forest) :
    table.readBefore id rest = .group name (table.readLevel children) rest := by
  have level : children.foldr (fun child later =>
      if _inside : id < child ∧ child < table.size then table.readBefore child later else later) .nil =
        table.readLevel children := by
    refine List.foldr_ext _ _ _ fun child member later => ?_
    rw [dif_pos (inside child member)]
  rw [readBefore]
  simp only [stored, level]

theorem Carries.readLevel (carries : table.Carries parent first states)
    (room : first + states.count ≤ table.size) : table.readLevel (states.roots first) = states.normal := by
  induction states generalizing parent first with
  | nil => rfl
  | leaf name targets rest ih =>
    rw [Forest.count_leaf] at room
    have later := ih carries.2 (by omega)
    rw [Forest.roots, Table.readLevel, List.foldr_cons, ← Table.readLevel, later, readBefore_leaf carries.1]
    rfl
  | group name children rest insideIh restIh =>
    rw [Forest.count_group] at room
    have bound (child : Nat) (member : child ∈ children.roots (first + 1)) :
        first < child ∧ child < table.size := by
      have range := Forest.roots_bound member
      omega
    have inner := insideIh carries.2.1 (by omega)
    have later := restIh carries.2.2 (by omega)
    rw [Forest.roots, Table.readLevel, List.foldr_cons, ← Table.readLevel, later,
      readBefore_group carries.1 bound, inner]
    rfl

end Table

namespace Forest

-- Both lists ascend, so it is enough that they have the same members: a node that is not on the top level
-- lies in a group, and one that is on it does not.
theorem table_topLevel (states : Forest) : states.table.topLevel = states.roots 0 := by
  have ascending : states.table.topLevel.Pairwise (· < ·) := List.pairwise_lt_range.filter _
  refine ascending.eq_of_mem_iff (states.roots_increasing 0) fun id => ?_
  simp only [Table.topLevel, List.mem_filter, List.mem_range, table_size, Option.isNone_iff_eq_none]
  constructor
  · intro free
    by_contra inner
    obtain ⟨outer, -, -, link, -⟩ := states.table_carries.inner (Nat.zero_le _) (by omega) inner
    rw [free.2] at link
    cases link
  · intro member
    have bound := roots_bound member
    exact ⟨by omega, states.table_carries.root member⟩

theorem table_readBack (states : Forest) : states.table.readBack = states.normal := by
  rw [Table.readBack, table_topLevel]
  exact states.table_carries.readLevel (by rw [table_size]; omega)

-- Index and leaves add nothing to what the nodes say.
theorem table_eq_of_nodes {others : Forest} (same : states.table.nodes = others.table.nodes) :
    states.table = others.table := by
  have names : states.names = others.names := by
    apply List.ext_getElem?
    intro id
    rw [← states.table_names, same, others.table_names]
  have leafNames : states.leafNames = others.leafNames := by
    rw [states.leaves_order, same, others.leaves_order]
  have layout : states.layout none 0 = others.layout none 0 := by
    rw [← states.table_nodes, same, others.table_nodes]
  simp [table, Table.laid, Table.empty, Table.size, names, leafNames, layout]

theorem table_eq_iff {others : Forest} : states.table = others.table ↔ states.normal = others.normal := by
  constructor
  · intro same
    rw [← states.table_readBack, same, others.table_readBack]
  · intro same
    rw [← states.normal_table, same, others.normal_table]

end Forest

namespace Attribute

variable {name : String} {initial : StateName} {events : List String} {options : Options}

-- Reading the table back gives the declaration in one spelling, so two declarations have one table
-- exactly if they differ in spelling only.
theorem readBack_of_compiled {attr : Attribute} {states : Forest}
    (compiled : Attribute.compile name initial events options states = .ok attr) :
    attr.table.readBack = states.normal ∧
      ∀ other others, Attribute.compile name initial events options others = .ok other →
        [attr = other, attr.table = other.table, attr.table.nodes = other.table.nodes,
          states.normal = others.normal].TFAE := by
  obtain ⟨-, rfl⟩ := compile_ok.mp compiled
  refine ⟨states.table_readBack, ?_⟩
  intro other others recompiled
  obtain ⟨-, rfl⟩ := compile_ok.mp recompiled
  tfae_have 1 → 2 := congrArg Attribute.table
  tfae_have 2 → 3 := congrArg Table.nodes
  tfae_have 3 → 2 := Forest.table_eq_of_nodes
  tfae_have 2 ↔ 4 := Forest.table_eq_iff
  tfae_have 2 → 1 := by
    intro same
    change states.table = others.table at same
    rw [same]
  tfae_finish

-- The same document with every target in a list of its own.
def documentListed : Forest :=
  .leaf "draft" (.many ["review"])
    (.group "review"
      (.leaf "first" (.many ["second"])
        (.group "late" (.leaf "second" (.many ["published", "review"]) .nil) .nil))
      (.leaf "published" (.many []) .nil))

theorem document_readBack :
    Attribute.compile "state" "draft" [] {} documentStates = .ok document ∧
      Attribute.compile "state" "draft" [] {} documentListed = .ok document ∧
      document.table.readBack = documentListed ∧ documentStates.normal = documentListed.normal := by
  have compiled : Attribute.compile "state" "draft" [] {} documentStates = .ok document := rfl
  have listed : Attribute.compile "state" "draft" [] {} documentListed = .ok document := rfl
  obtain ⟨back, alike⟩ := readBack_of_compiled compiled
  exact ⟨compiled, listed, back, ((alike _ _ listed).out 0 3).mp rfl⟩

end Attribute
end StateAttributes
