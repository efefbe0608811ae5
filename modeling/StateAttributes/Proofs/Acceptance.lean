import StateAttributes.Attribute
import StateAttributes.Proofs.Layout

namespace StateAttributes

theorem lookup_of_mem [BEq α] [LawfulBEq α] {entries : List (α × β)} (unique : (entries.map (·.1)).Nodup)
    (member : (key, value) ∈ entries) : entries.lookup key = some value := by
  induction entries with
  | nil => cases member
  | cons first rest ih =>
    rw [List.map_cons, List.nodup_cons] at unique
    rcases List.mem_cons.mp member with rfl | later
    · simp
    · have different : key ≠ first.1 := by
        intro same
        rw [same] at later
        exact unique.1 (List.mem_map_of_mem (f := (·.1)) later)
      rw [List.lookup_cons, beq_false_of_ne different]
      exact ih unique.2 later

namespace Forest

-- The table of a forest whose names are all different.
def table (states : Forest) : Table := Table.empty.laid none states

@[simp] theorem table_size (states : Forest) : states.table.size = states.count := by
  simp [table]

theorem table_nodes (states : Forest) : states.table.nodes.toList = states.layout none 0 := by
  simp [table, Table.laid, Table.empty, Table.size]

theorem table_leaves (states : Forest) : states.table.leaves.toList = states.leafNames := by
  simp [table, Table.laid, Table.empty]

theorem table_contains (states : Forest) (name : StateName) :
    states.table.contains name ↔ name ∈ states.names := by
  rw [Table.contains_iff]
  simp [table]

theorem table_lacks {states : Forest} {name : StateName} :
    states.table.contains name = false ↔ name ∉ states.names := by
  rw [← states.table_contains name, Bool.not_eq_true]

theorem table_find {states : Forest} (unique : states.names.Nodup) :
    states.table.find? name = some position ↔ states.names[position]? = some name := by
  have index : states.table.index = states.names.zipIdx.reverse := by
    simp [table, Table.laid, Table.empty, Table.size]
  rw [Table.find?, index, ← List.mk_mem_zipIdx_iff_getElem?]
  constructor
  · intro found
    obtain ⟨before, after, split, _⟩ := List.lookup_eq_some_iff.mp found
    exact List.mem_reverse.mp (split ▸ by simp)
  · intro member
    exact lookup_of_mem (by simpa using unique) (List.mem_reverse.mpr member)

theorem table_entry (states : Forest) (position : Nat) :
    (states.table.nodes[position]?).map (fun node => (node.name, node.targets?)) =
      (states.declared[position]?).map fun entry => (entry.1, entry.2.targets?) := by
  rw [← Array.getElem?_toList, table_nodes, ← List.getElem?_map, layout_entries, List.getElem?_map]

theorem table_node {states : Forest} (unique : states.names.Nodup)
    (entry : (name, body) ∈ states.declared) :
    ∃ position node, states.table.find? name = some position ∧
      states.table.nodes[position]? = some node ∧ node.name = name ∧ node.targets? = body.targets? := by
  obtain ⟨position, declared⟩ := List.getElem?_of_mem entry
  have named : states.names[position]? = some name := by simp [names, declared]
  have known := states.table_entry position
  rw [declared] at known
  obtain ⟨node, stored, same⟩ := Option.map_eq_some_iff.mp known
  obtain ⟨nameAt, targetsAt⟩ := Prod.mk.inj same
  exact ⟨position, node, (table_find unique).mpr named, stored, nameAt, targetsAt⟩

theorem table_node? {states : Forest} (unique : states.names.Nodup)
    (entry : (name, body) ∈ states.declared) :
    ∃ node, states.table.node? name = some node ∧ node.name = name ∧ node.targets? = body.targets? := by
  obtain ⟨position, node, found, stored, named, targets⟩ := table_node unique entry
  exact ⟨node, by simp [Table.node?, found, stored], named, targets⟩

theorem table_undeclared {states : Forest} (undeclared : name ∉ states.names) :
    states.table.find? name = none := by
  simpa [Table.contains] using table_lacks.mpr undeclared

theorem node_isLeaf (node : Node) : node.isLeaf = node.targets?.isSome := by
  obtain ⟨name, parent, kind⟩ := node
  cases kind <;> rfl

theorem table_isLeaf {states : Forest} (unique : states.names.Nodup) (name : StateName) :
    states.table.isLeaf name ↔ name ∈ states.leafNames := by
  by_cases declared : name ∈ states.names
  · obtain ⟨body, entry⟩ := mem_names.mp declared
    obtain ⟨node, found, -, targets⟩ := table_node? unique entry
    simp only [Table.isLeaf, found, Option.any_some, node_isLeaf, targets, mem_leafNames]
    cases body with
    | leaf own => exact ⟨fun _ => ⟨own, entry⟩, fun _ => rfl⟩
    | group children =>
      refine ⟨fun shape => Bool.noConfusion shape, fun ⟨own, other⟩ => ?_⟩
      cases declared_unique unique entry other
  · have absent : name ∉ states.leafNames := fun member => declared (states.leafNames_subset member)
    simp [Table.isLeaf, Table.node?, table_undeclared declared, absent]

-- The pass over the finished table sees the leaves in the order of the declaration.
theorem table_dangling (states : Forest) :
    states.table.danglingTarget? =
      states.declared.findSome? fun entry =>
        (entry.2.targets.find? fun target => !states.table.contains target).map (entry.1, ·) := by
  have nodes := congrArg (List.findSome? fun pair : StateName × Option (List StateName) =>
    ((pair.2.getD []).find? fun target => !states.table.contains target).map (pair.1, ·))
    (states.layout_entries none 0)
  simpa [List.findSome?_map, Function.comp_def, Table.danglingTarget?, table_nodes] using nodes

def Closed (states : Forest) : Prop := ∀ entry ∈ states.declared, states.Resolved entry.2.targets

theorem unresolved_none {states : Forest} {targets : List StateName} :
    (targets.find? fun target => !states.table.contains target) = none ↔ states.Resolved targets := by
  simp [Resolved, table_contains]

theorem dangling_none {states : Forest} : states.table.danglingTarget? = none ↔ states.Closed := by
  simp only [table_dangling, List.findSome?_eq_none_iff, Option.map_eq_none_iff, unresolved_none, Closed]

theorem dangling_some {states : Forest} :
    states.table.danglingTarget? = some (source, target) ↔
      ∃ before targets after resolved others,
        states.declared = before ++ (source, .leaf targets) :: after ∧
        (∀ entry ∈ before, states.Resolved entry.2.targets) ∧
        targets.toList = resolved ++ target :: others ∧ states.Resolved resolved ∧
        target ∉ states.names := by
  simp only [table_dangling, List.findSome?_eq_some_iff, Option.map_eq_none_iff, unresolved_none,
    Option.map_eq_some_iff, List.find?_eq_some_iff_append, Prod.mk.injEq]
  constructor
  · rintro ⟨before, ⟨name, body⟩, after, split, ⟨found, ⟨unknown, resolved, others, targets, sound⟩, rfl, rfl⟩,
      earlier⟩
    cases body with
    | leaf own =>
      refine ⟨before, own, after, resolved, others, split, earlier, targets, ?_, ?_⟩
      · simpa [Resolved, table_contains] using sound
      · simpa [table_lacks] using unknown
    | group children => simp [Body.targets] at targets
  · intro dangling
    obtain ⟨before, own, after, resolved, others, split, earlier, targets, sound, unknown⟩ := dangling
    refine ⟨before, (source, .leaf own), after, split, ⟨target, ⟨?_, resolved, others, targets, ?_⟩, rfl, rfl⟩,
      earlier⟩
    · simpa [table_lacks] using unknown
    · simpa [Resolved, table_contains] using sound

structure WellDeclared (states : Forest) (initial : StateName) : Prop where
  unique : states.names.Nodup
  closed : states.Closed
  initial_leaf : initial ∈ states.leafNames

-- The fault that is reported. A repeated name goes before a target that nobody declares, wherever the
-- two stand, and both go before a default that is no leaf.
inductive FirstFault (states : Forest) (initial : StateName) : DeclarationFault → Prop where
  | duplicateName (split : states.names = before ++ name :: after) (unique : before.Nodup)
      (repeated : name ∈ before) : FirstFault states initial (.duplicateName name)
  | unknownTarget (unique : states.names.Nodup)
      (split : states.declared = before ++ (source, .leaf targets) :: after)
      (earlier : ∀ entry ∈ before, states.Resolved entry.2.targets)
      (order : targets.toList = resolved ++ target :: others) (sound : states.Resolved resolved)
      (unknown : target ∉ states.names) : FirstFault states initial (.unknownTarget source target)
  | defaultNotLeaf (unique : states.names.Nodup) (closed : states.Closed)
      (notLeaf : initial ∉ states.leafNames) : FirstFault states initial (.defaultNotLeaf initial)

theorem ofForest_exact (states : Forest) (initial : StateName) :
    Table.ofForest states initial =
      match firstTaken [] states.names with
      | some name => .error (.duplicateName name)
      | none =>
        match states.table.danglingTarget? with
        | some (source, target) => .error (.unknownTarget source target)
        | none =>
          if states.table.isLeaf initial then .ok states.table else .error (.defaultNotLeaf initial) := by
  have whole : Table.empty.laid none states = states.table := rfl
  rw [Table.ofForest, Table.place_exact, Table.empty_taken]
  cases firstTaken [] states.names with
  | some name => rfl
  | none =>
    simp only [bind, Except.bind, whole]
    cases states.table.danglingTarget? with
    | some fault => rfl
    | none => cases states.table.isLeaf initial <;> rfl

theorem ofForest_fault {states : Forest} :
    Table.ofForest states initial = .error fault ↔ states.FirstFault initial fault := by
  rw [ofForest_exact]
  constructor
  · intro refused
    split at refused
    · rename_i name clash
      cases refused
      obtain ⟨before, after, order, unique, again⟩ := repeated_some.mp clash
      exact .duplicateName order unique again
    · rename_i distinct
      have unique := distinct_none.mp distinct
      split at refused
      · rename_i source target dangling
        cases refused
        obtain ⟨before, targets, after, resolved, others, order, earlier, own, sound, unknown⟩ :=
          dangling_some.mp dangling
        exact .unknownTarget unique order earlier own sound unknown
      · rename_i closed
        split at refused
        · cases refused
        · rename_i notLeaf
          cases refused
          exact .defaultNotLeaf unique (dangling_none.mp closed) (mt (table_isLeaf unique initial).mpr notLeaf)
  · intro first
    cases first with
    | duplicateName order unique again =>
      rw [repeated_some.mpr ⟨_, _, order, unique, again⟩]
    | unknownTarget unique order earlier own sound unknown =>
      rw [distinct_none.mpr unique,
        dangling_some.mpr ⟨_, _, _, _, _, order, earlier, own, sound, unknown⟩]
    | defaultNotLeaf unique closed notLeaf =>
      simp [distinct_none.mpr unique, dangling_none.mpr closed, mt (table_isLeaf unique initial).mp notLeaf]

theorem ofForest_accepts {states : Forest} :
    Table.ofForest states initial = .ok result ↔ states.WellDeclared initial ∧ result = states.table := by
  rw [ofForest_exact]
  constructor
  · intro accepted
    split at accepted
    · cases accepted
    · rename_i distinct
      have unique := distinct_none.mp distinct
      split at accepted
      · cases accepted
      · rename_i closed
        split at accepted
        · rename_i leaf
          cases accepted
          exact ⟨⟨unique, dangling_none.mp closed, (table_isLeaf unique initial).mp leaf⟩, rfl⟩
        · cases accepted
  · intro accepted
    obtain ⟨well, same⟩ := accepted
    have leaf := (table_isLeaf well.unique initial).mpr well.initial_leaf
    simp [same, distinct_none.mpr well.unique, dangling_none.mpr well.closed, leaf]

end Forest

namespace Attribute

variable {name : String} {initial : StateName} {events : List String} {options : Options}

-- A compiled attribute is known once its declaration is: nothing in it depends on how it was checked.
theorem compile_ok {states : Forest} :
    Attribute.compile name initial events options states = .ok attr ↔
      states.WellDeclared initial ∧ attr = ⟨name, initial, events, options, states.table⟩ := by
  rw [Attribute.compile]
  constructor
  · intro compiled
    split at compiled
    · rename_i table accepted
      obtain ⟨well, rfl⟩ := Forest.ofForest_accepts.mp accepted
      cases compiled
      exact ⟨well, rfl⟩
    · cases compiled
  · intro accepted
    obtain ⟨well, same⟩ := accepted
    rw [same, Forest.ofForest_accepts.mpr ⟨well, rfl⟩]

theorem compile_error {states : Forest} :
    Attribute.compile name initial events options states = .error error ↔
      error.attributeName = name ∧ states.FirstFault initial error.fault := by
  rw [Attribute.compile]
  constructor
  · intro refused
    split at refused
    · cases refused
    · rename_i fault found
      cases refused
      exact ⟨rfl, Forest.ofForest_fault.mp found⟩
  · obtain ⟨owner, fault⟩ := error
    rintro ⟨rfl, first⟩
    rw [Forest.ofForest_fault.mpr first]

-- Every declaration is either accepted, and then has no fault, or refused under its own name for the
-- first fault in the fixed order.
theorem compile_decides (name : String) (initial : StateName) (events : List String) (options : Options)
    (states : Forest) :
    (∀ error, Attribute.compile name initial events options states = .error error ↔
      error.attributeName = name ∧ states.FirstFault initial error.fault) ∧
    ((∃ attr, Attribute.compile name initial events options states = .ok attr) ↔
      states.WellDeclared initial) := by
  refine ⟨fun error => compile_error, ?_, ?_⟩
  · intro accepted
    obtain ⟨attr, compiled⟩ := accepted
    exact (compile_ok.mp compiled).1
  · intro well
    exact ⟨_, compile_ok.mpr ⟨well, rfl⟩⟩

-- A child that repeats the name of the group around it is refused like any other repetition.
example : Attribute.compile "state" "draft" [] {}
    (.leaf "draft" .terminal (.group "open" (.leaf "open" .terminal .nil) .nil)) =
      .error ⟨"state", .duplicateName "open"⟩ := rfl

theorem state_position {attr : Attribute} {state : State} (found : attr.state? name = some state) :
    attr.table.find? name = some state.id ∧ state.owner = attr := by
  obtain ⟨id, position, stored⟩ := Option.bind_eq_some_iff.mp found
  obtain ⟨node, -, rfl⟩ := Option.map_eq_some_iff.mp stored
  exact ⟨position, rfl⟩

structure CompiledFrom (attr : Attribute) (states : Forest) : Prop where
  well : states.WellDeclared attr.initial
  table_eq : attr.table = states.table

theorem compiled_from {states : Forest}
    (compiled : Attribute.compile name initial events options states = .ok attr) :
    attr.CompiledFrom states := by
  obtain ⟨well, rfl⟩ := compile_ok.mp compiled
  exact ⟨well, rfl⟩

namespace CompiledFrom

variable {attr : Attribute} {states : Forest} (compiled : attr.CompiledFrom states)
include compiled

theorem state_declared (entry : (state, body) ∈ states.declared) :
    ∃ id node, attr.state? state = some ⟨attr, id, node⟩ ∧ attr.table.nodes[id]? = some node ∧
      node.name = state ∧ node.targets? = body.targets? := by
  obtain ⟨id, node, found, stored, named, targets⟩ := Forest.table_node compiled.well.unique entry
  rw [← compiled.table_eq] at found stored
  exact ⟨id, node, by simp [Attribute.state?, Attribute.stateAt?, found, stored], stored, named, targets⟩

theorem state_undeclared (undeclared : state ∉ states.names) : attr.state? state = none := by
  rw [Attribute.state?, compiled.table_eq, Forest.table_undeclared undeclared]
  rfl

theorem state_name (found : attr.state? state = some goal) : goal.name = state ∧ state ∈ states.names := by
  by_cases declared : state ∈ states.names
  · obtain ⟨body, entry⟩ := Forest.mem_names.mp declared
    obtain ⟨id, node, named, -, same, -⟩ := compiled.state_declared entry
    rw [named] at found
    cases found
    exact ⟨same, declared⟩
  · rw [compiled.state_undeclared declared] at found
    cases found

-- A declared name denotes a node of its own, and all the others denote none.
theorem state_same (one other : StateName) :
    attr.state? one = attr.state? other ↔ one = other ∨ (one ∉ states.names ∧ other ∉ states.names) := by
  constructor
  · intro same
    cases found : attr.state? one with
    | some goal =>
      have first := compiled.state_name found
      have second := compiled.state_name (same ▸ found)
      exact .inl (first.1.symm.trans second.1)
    | none =>
      have absent (name : StateName) (missing : attr.state? name = none) : name ∉ states.names := by
        intro declared
        obtain ⟨body, entry⟩ := Forest.mem_names.mp declared
        obtain ⟨id, node, named, -⟩ := compiled.state_declared entry
        rw [missing] at named
        cases named
      exact .inr ⟨absent one found, absent other (same ▸ found)⟩
  · intro either
    rcases either with same | ⟨undeclared, absent⟩
    · rw [same]
    · rw [compiled.state_undeclared undeclared, compiled.state_undeclared absent]

theorem contains_iff (state : StateName) : attr.contains state ↔ state ∈ states.names := by
  rw [Attribute.contains, compiled.table_eq, states.table_contains]

theorem isLeaf_iff (state : StateName) : attr.isLeaf state ↔ state ∈ states.leafNames := by
  rw [Attribute.isLeaf, compiled.table_eq, Forest.table_isLeaf compiled.well.unique]

theorem values_eq : attr.values = states.leafNames := by
  rw [Attribute.values, compiled.table_eq, states.table_leaves]

end CompiledFrom
end Attribute
end StateAttributes
