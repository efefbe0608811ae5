import Mathlib.Logic.Relation
import StateAttributes.Proofs.Acceptance

namespace StateAttributes

variable {table : Table} {states : Forest} {parent : Option Nat} {first id : Nat}

namespace Forest

theorem roots_bound (member : id ∈ states.roots first) :
    first ≤ id ∧ id < first + states.count := by
  induction states generalizing first with
  | nil => cases member
  | leaf name targets rest ih =>
    rcases List.mem_cons.mp member with rfl | later
    · simp
    · have bound := ih later
      simp only [count_leaf]
      omega
  | group name children rest insideIh restIh =>
    rcases List.mem_cons.mp member with rfl | later
    · simp
    · have bound := restIh later
      simp only [count_group]
      omega

theorem roots_increasing (states : Forest) (first : Nat) : (states.roots first).Pairwise (· < ·) := by
  induction states generalizing first with
  | nil => exact .nil
  | leaf name targets rest ih =>
    refine List.pairwise_cons.mpr ⟨fun id later => ?_, ih _⟩
    have bound := roots_bound later
    omega
  | group name children rest insideIh restIh =>
    refine List.pairwise_cons.mpr ⟨fun id later => ?_, restIh _⟩
    have bound := roots_bound later
    omega

end Forest

namespace Table

-- The two views of the links: what a node holds, and what it lies in.
def childrenAt (table : Table) (id : Nat) : List Nat := (table.nodes[id]?).elim [] Node.children

def parentAt? (table : Table) (id : Nat) : Option Nat := (table.nodes[id]?).bind Node.parent

theorem childrenAt_none (absent : table.nodes[id]? = none) : table.childrenAt id = [] := by
  simp [childrenAt, absent]

theorem childrenAt_leaf (stored : table.nodes[id]? = some ⟨name, parent, .leaf targets⟩) :
    table.childrenAt id = [] := by
  simp [childrenAt, stored, Node.children]

theorem childrenAt_group (stored : table.nodes[id]? = some ⟨name, parent, .group children⟩) :
    table.childrenAt id = children := by
  simp [childrenAt, stored, Node.children]

-- A node lies below every group around it.
def Below (table : Table) : Nat → Nat → Prop :=
  Relation.TransGen fun id outer => table.parentAt? id = some outer

-- From a position on, the nodes are those of the forest, entry by entry.
def Carries (table : Table) : Option Nat → Nat → Forest → Prop
  | _, _, .nil => True
  | parent, first, .leaf name targets rest =>
    table.nodes[first]? = some ⟨name, parent, .leaf targets.toList⟩ ∧
      table.Carries parent (first + 1) rest
  | parent, first, .group name children rest =>
    table.nodes[first]? = some ⟨name, parent, .group (children.roots (first + 1))⟩ ∧
      table.Carries (some first) (first + 1) children ∧
      table.Carries parent (first + 1 + children.count) rest

theorem drop_cons {node : Node} {behind : List Node} (split : table.nodes.toList.drop first = node :: behind) :
    table.nodes[first]? = some node ∧ table.nodes.toList.drop (first + 1) = behind := by
  constructor
  · rw [← Array.getElem?_toList, ← List.head?_drop, split]
    rfl
  · rw [← List.tail_drop, split]
    rfl

theorem carries_layout {behind : List Node}
    (laid : table.nodes.toList.drop first = states.layout parent first ++ behind) :
    table.Carries parent first states := by
  induction states generalizing parent first behind with
  | nil => trivial
  | leaf name targets rest ih =>
    obtain ⟨stored, later⟩ := drop_cons laid
    exact ⟨stored, ih later⟩
  | group name children rest insideIh restIh =>
    simp only [Forest.layout, List.cons_append, List.append_assoc] at laid
    obtain ⟨stored, later⟩ := drop_cons laid
    have after : table.nodes.toList.drop (first + 1 + children.count) =
        rest.layout parent (first + 1 + children.count) ++ behind := by
      rw [← List.drop_drop, later]
      simp
    exact ⟨stored, insideIh later, restIh after⟩

def Holds (table : Table) (id : Nat) (name : StateName) : Body → Prop
  | .leaf targets => ∃ outer, table.nodes[id]? = some ⟨name, outer, .leaf targets.toList⟩
  | .group children =>
    (∃ outer, table.nodes[id]? = some ⟨name, outer, .group (children.roots (id + 1))⟩) ∧
      table.Carries (some id) (id + 1) children

theorem Carries.at {position : Nat} (carries : table.Carries parent first states)
    (entry : states.declared[position]? = some (name, body)) : table.Holds (first + position) name body := by
  induction states generalizing parent first position with
  | nil => cases entry
  | leaf own targets rest ih =>
    cases position with
    | zero => cases entry; exact ⟨parent, carries.1⟩
    | succ position =>
      have later := ih carries.2 entry
      rwa [Nat.add_right_comm] at later
  | group own children rest insideIh restIh =>
    cases position with
    | zero => cases entry; exact ⟨⟨parent, carries.1⟩, carries.2.1⟩
    | succ position =>
      simp only [Forest.declared, List.getElem?_cons_succ] at entry
      rcases Nat.lt_or_ge position children.count with early | late
      · rw [List.getElem?_append_left early] at entry
        have inner := insideIh carries.2.1 entry
        rwa [Nat.add_right_comm] at inner
      · rw [List.getElem?_append_right late] at entry
        have later := restIh carries.2.2 entry
        have place : first + 1 + children.count + (position - children.count) = first + (position + 1) := by
          omega
        rwa [show children.declared.length = children.count from rfl, place] at later

theorem Carries.root (carries : table.Carries parent first states) (member : id ∈ states.roots first) :
    table.parentAt? id = parent := by
  induction states generalizing first with
  | nil => cases member
  | leaf name targets rest ih =>
    rcases List.mem_cons.mp member with rfl | later
    · simp [parentAt?, carries.1]
    · exact ih carries.2 later
  | group name children rest insideIh restIh =>
    rcases List.mem_cons.mp member with rfl | later
    · simp [parentAt?, carries.1]
    · exact restIh carries.2.2 later

-- Any other node lies in a group of the same forest, which lists it.
theorem Carries.inner (carries : table.Carries parent first states) (low : first ≤ id)
    (high : id < first + states.count) (notRoot : id ∉ states.roots first) :
    ∃ outer, first ≤ outer ∧ outer < id ∧ table.parentAt? id = some outer ∧ id ∈ table.childrenAt outer := by
  induction states generalizing parent first with
  | nil =>
    rw [Forest.count_nil] at high
    omega
  | leaf name targets rest ih =>
    simp only [Forest.roots, List.mem_cons, not_or] at notRoot
    rw [Forest.count_leaf] at high
    obtain ⟨outer, above, rest⟩ := ih carries.2 (by omega) (by omega) notRoot.2
    exact ⟨outer, by omega, rest⟩
  | group name children rest insideIh restIh =>
    simp only [Forest.roots, List.mem_cons, not_or] at notRoot
    rw [Forest.count_group] at high
    rcases Nat.lt_or_ge id (first + 1 + children.count) with early | late
    · by_cases child : id ∈ children.roots (first + 1)
      · refine ⟨first, Nat.le_refl _, by omega, carries.2.1.root child, ?_⟩
        rw [childrenAt_group carries.1]
        exact child
      · obtain ⟨outer, above, rest⟩ := insideIh carries.2.1 (by omega) early child
        exact ⟨outer, by omega, rest⟩
    · obtain ⟨outer, above, rest⟩ := restIh carries.2.2 late (by omega) notRoot.2
      exact ⟨outer, by omega, rest⟩

theorem Carries.child (carries : table.Carries parent first states) (low : first ≤ id)
    (high : id < first + states.count) (member : below ∈ table.childrenAt id) :
    id < below ∧ below < first + states.count ∧ table.parentAt? below = some id := by
  obtain ⟨⟨name, body⟩, entry⟩ : ∃ entry, states.declared[id - first]? = some entry :=
    ⟨_, List.getElem?_eq_getElem (show id - first < states.count by omega)⟩
  have held := carries.at entry
  rw [Nat.add_sub_cancel' low] at held
  cases body with
  | leaf targets =>
    obtain ⟨outer, stored⟩ := held
    rw [childrenAt_leaf stored] at member
    cases member
  | group children =>
    obtain ⟨⟨outer, stored⟩, inner⟩ := held
    rw [childrenAt_group stored] at member
    have bound := Forest.roots_bound member
    have room := Forest.inside_bound entry
    simp only [Forest.inside] at room
    exact ⟨by omega, by omega, inner.root member⟩

theorem Carries.below {children : Forest} (inner : table.Carries (some id) (id + 1) children)
    (late : id < lower) (early : lower ≤ id + children.count) : table.Below lower id := by
  induction lower using Nat.strongRecOn with
  | ind lower ih =>
    by_cases root : lower ∈ children.roots (id + 1)
    · exact .single (inner.root root)
    · obtain ⟨outer, above, before, link, -⟩ := inner.inner (by omega) (by omega) root
      exact .head link (ih outer before (by omega) (by omega))

end Table

namespace Forest

theorem table_carries (states : Forest) : states.table.Carries none 0 states := by
  have whole : states.table.nodes.toList.drop 0 = states.layout none 0 ++ [] := by simp [table_nodes]
  exact Table.carries_layout whole

theorem table_holds (entry : states.declared[id]? = some (name, body)) : states.table.Holds id name body := by
  have held := states.table_carries.at entry
  rwa [Nat.zero_add] at held

theorem table_within (stored : states.table.nodes[id]? = some node) : id < 0 + states.count := by
  obtain ⟨within, -⟩ := Array.getElem?_eq_some_iff.mp stored
  rw [Nat.zero_add, ← states.table_size]
  exact within

theorem table_link (states : Forest) (id outer : Nat) :
    id ∈ states.table.childrenAt outer ↔ states.table.parentAt? id = some outer := by
  constructor
  · intro member
    cases stored : states.table.nodes[outer]? with
    | none =>
      rw [Table.childrenAt_none stored] at member
      cases member
    | some node => exact (states.table_carries.child (Nat.zero_le _) (table_within stored) member).2.2
  · intro link
    cases stored : states.table.nodes[id]? with
    | none => simp [Table.parentAt?, stored] at link
    | some node =>
      by_cases root : id ∈ states.roots 0
      · rw [states.table_carries.root root] at link
        cases link
      · obtain ⟨found, -, -, same, member⟩ :=
          states.table_carries.inner (Nat.zero_le _) (table_within stored) root
        rw [link] at same
        cases same
        exact member

theorem table_parent (link : states.table.parentAt? id = some outer) :
    outer < id ∧ ∃ node, states.table.nodes[outer]? = some node ∧ node.isLeaf = false := by
  have member := (states.table_link id outer).mpr link
  cases stored : states.table.nodes[outer]? with
  | none =>
    rw [Table.childrenAt_none stored] at member
    cases member
  | some node =>
    refine ⟨(states.table_carries.child (Nat.zero_le _) (table_within stored) member).1, node, rfl, ?_⟩
    obtain ⟨own, around, kind⟩ := node
    cases kind with
    | leaf targets =>
      rw [Table.childrenAt_leaf stored] at member
      cases member
    | group children => rfl

theorem table_increasing (states : Forest) (id : Nat) : (states.table.childrenAt id).Pairwise (· < ·) := by
  cases entry : states.declared[id]? with
  | none =>
    have absent : states.table.nodes[id]? = none := by
      simpa [entry] using states.table_entry id
    rw [Table.childrenAt_none absent]
    exact .nil
  | some found =>
    obtain ⟨name, body⟩ := found
    have held := table_holds entry
    cases body with
    | leaf targets =>
      obtain ⟨outer, stored⟩ := held
      rw [Table.childrenAt_leaf stored]
      exact .nil
    | group children =>
      obtain ⟨⟨outer, stored⟩, -⟩ := held
      rw [Table.childrenAt_group stored]
      exact children.roots_increasing (id + 1)

-- Everything inside an entry, and nothing else, stands in the block right behind it.
theorem table_block (entry : states.declared[id]? = some (name, body)) (lower : Nat) :
    states.table.Below lower id ↔ id < lower ∧ lower ≤ id + inside body := by
  have held := table_holds entry
  cases body with
  | leaf targets =>
    obtain ⟨outer, stored⟩ := held
    refine ⟨fun below => ?_, fun bound => ?_⟩
    · obtain ⟨last, -, link⟩ := Relation.TransGen.tail'_iff.mp below
      have member := (states.table_link last id).mpr link
      rw [Table.childrenAt_leaf stored] at member
      cases member
    · simp only [inside] at bound
      omega
  | group children =>
    obtain ⟨⟨outer, stored⟩, inner⟩ := held
    refine ⟨fun below => ?_, fun bound => inner.below bound.1 bound.2⟩
    induction below using Relation.TransGen.head_induction_on with
    | @single lower link =>
      have member := (states.table_link lower id).mpr link
      rw [Table.childrenAt_group stored] at member
      have bound := roots_bound member
      simp only [inside]
      omega
    | head link _ ih =>
      have member := (states.table_link _ _).mpr link
      simp only [inside] at ih ⊢
      have deeper := inner.child ih.1 (by omega) member
      omega

theorem table_names (states : Forest) (id : Nat) :
    (states.table.nodes[id]?).map Node.name = states.names[id]? := by
  have entry := congrArg (Option.map (·.1)) (states.table_entry id)
  simpa [names, Function.comp_def] using entry

theorem table_shapes (states : Forest) :
    states.table.nodes.toList.map (fun node => (node.name, node.isLeaf)) =
      states.declared.map fun entry => (entry.1, !entry.2.isGroup) := by
  have entries := congrArg (List.map fun pair : StateName × Option (List StateName) =>
    (pair.1, pair.2.isSome)) (states.layout_entries none 0)
  simpa [table_nodes, Function.comp_def, node_isLeaf] using entries

theorem leaves_order (states : Forest) :
    states.leafNames = (states.table.nodes.toList.filter Node.isLeaf).map Node.name := by
  have shapes := congrArg (List.filterMap fun pair : StateName × Bool =>
    if pair.2 then some pair.1 else none) states.table_shapes
  have entries : states.leafNames = states.declared.filterMap fun entry =>
      if !entry.2.isGroup then some entry.1 else none := by
    apply List.filterMap_congr
    rintro ⟨name, body⟩ -
    cases body <;> rfl
  rw [← List.filterMap_eq_map, List.filterMap_filter, entries]
  simpa [List.filterMap_map, Function.comp_def] using shapes.symm

end Forest

namespace Attribute

-- The table of an attribute next to the forest that it was declared with: entries, index, links and
-- leaves are kept apart in the table and agree with one another.
structure PreorderOf (attr : Attribute) (states : Forest) : Prop where
  entries : attr.table.nodes.toList.map (fun node => (node.name, node.isLeaf)) =
    states.declared.map fun entry => (entry.1, !entry.2.isGroup)
  index : ∀ name id, attr.table.find? name = some id ↔ (attr.table.nodes[id]?).map Node.name = some name
  found : ∀ name, attr.contains name ↔ name ∈ states.names
  same : ∀ one other, attr.state? one = attr.state? other ↔
    one = other ∨ (one ∉ states.names ∧ other ∉ states.names)
  link : ∀ id outer, id ∈ attr.table.childrenAt outer ↔ attr.table.parentAt? id = some outer
  parent : ∀ id outer, attr.table.parentAt? id = some outer →
    outer < id ∧ ∃ node, attr.table.nodes[outer]? = some node ∧ node.isLeaf = false
  once : ∀ id outer, attr.table.parentAt? id = some outer →
    (attr.table.childrenAt outer).count id = 1 ∧ ∀ other, other ≠ outer → id ∉ attr.table.childrenAt other
  increasing : ∀ id, (attr.table.childrenAt id).Pairwise (· < ·)
  block : ∀ id name body, states.declared[id]? = some (name, body) →
    ∀ lower, attr.table.Below lower id ↔ id < lower ∧ lower ≤ id + Forest.inside body
  values : attr.values = (attr.table.nodes.toList.filter Node.isLeaf).map Node.name
  values_unique : attr.values.Nodup
  values_initial : attr.initial ∈ attr.values

variable {name : String} {initial : StateName} {events : List String} {options : Options}

theorem preorder_of_compiled {attr : Attribute} {states : Forest}
    (compiled : Attribute.compile name initial events options states = .ok attr) : attr.PreorderOf states := by
  have origin := compiled_from compiled
  have table := origin.table_eq
  have unique := origin.well.unique
  constructor
  case entries => rw [table, states.table_shapes]
  case index =>
    intro name id
    rw [table, states.table_names, Forest.table_find unique]
  case found => exact origin.contains_iff
  case same => exact origin.state_same
  case link =>
    intro id outer
    rw [table, states.table_link]
  case parent =>
    intro id outer link
    rw [table] at link ⊢
    exact Forest.table_parent link
  case once =>
    intro id outer link
    rw [table] at link ⊢
    have member := (states.table_link id outer).mpr link
    refine ⟨List.count_eq_one_of_mem (states.table_increasing outer).nodup member, ?_⟩
    intro other different elsewhere
    have again := (states.table_link id other).mp elsewhere
    rw [link] at again
    exact different (Option.some.inj again).symm
  case increasing =>
    intro id
    rw [table]
    exact states.table_increasing id
  case block =>
    intro id name body entry lower
    rw [table]
    exact Forest.table_block entry lower
  case values => rw [origin.values_eq, table, states.leaves_order]
  case values_unique =>
    rw [origin.values_eq]
    exact unique.sublist states.leafNames_sublist
  case values_initial =>
    rw [origin.values_eq]
    exact origin.well.initial_leaf

-- A document is read twice before it is published. Its second reading may ask for the whole review again.
def documentStates : Forest :=
  .leaf "draft" (.one "review")
    (.group "review"
      (.leaf "first" (.one "second")
        (.group "late" (.leaf "second" (.many ["published", "review"]) .nil) .nil))
      (.leaf "published" .terminal .nil))

def document : Attribute := ⟨"state", "draft", [], {}, documentStates.table⟩

theorem document_preorder :
    Attribute.compile "state" "draft" [] {} documentStates = .ok document ∧
      document.PreorderOf documentStates :=
  ⟨rfl, preorder_of_compiled (show Attribute.compile "state" "draft" [] {} documentStates = .ok document from rfl)⟩

end Attribute
end StateAttributes
