import StateAttributes.Proofs.Ancestry

namespace StateAttributes

variable {table : Table} {states : Forest} {id steps depth : Nat}

namespace Table

-- The walks without the guards that end them: a walk has no answer if a link leads outside the table, if it asks for
-- a list that is being worked out already, or if its steps do not last.

-- From a node to the groups around it, until one bears the name. Each node takes a step.
def climb (table : Table) (name : StateName) : Nat → Nat → Option (List Nat × Bool)
  | 0, _ => none
  | steps + 1, id => do
    let node ← table.nodes[id]?
    if node.name == name then
      return ([id], true)
    match node.parent with
    | none => return ([id], false)
    | some parent =>
      let (passed, found) ← table.climb name steps parent
      return (id :: passed, found)

-- From a node to the leaves below it, which are put behind those that are listed already. The steps are counted
-- downward only, from a group into its children.
def descend (table : Table) : Nat → Nat → List StateName → Option (List Nat × List StateName)
  | 0, _, _ => none
  | depth + 1, id, listed => do
    let node ← table.nodes[id]?
    match node.kind with
    | .leaf _ => return ([id], listed ++ [node.name])
    | .group children =>
      let (passed, listed) ← children.foldlM (fun (passed, listed) child => do
        let (more, listed) ← table.descend depth child listed
        return (passed ++ more, listed)) ([], listed)
      return (id :: passed, listed)

-- The leaves that a node stands for, worked out where they are not known yet. While that is under way for a
-- node, nobody may ask for it again.
def ask (table : Table) (busy : List Nat) : Nat → Nat → Memo → Option (List Nat × List StateName × Memo)
  | 0, _, _ => none
  | depth + 1, id, memo => do
    let node ← table.nodes[id]?
    match memo.flattened.lookup id with
    | some known => return ([id], known, memo)
    | none =>
      if id ∈ busy then none
      else
        match node.kind with
        | .leaf _ => return ([id], [node.name], { memo with flattened := (id, [node.name]) :: memo.flattened })
        | .group children =>
          let (asked, names, memo) ← children.foldlM (fun (asked, names, memo) child => do
            let (more, leaves, memo) ← table.ask (id :: busy) depth child memo
            return (asked ++ more, addNew names leaves, memo)) ([], [], memo)
          return (id :: asked, names, { memo with flattened := (id, names) :: memo.flattened })

theorem lineage_stop (stored : table.nodes[id]? = some ⟨name, some parent, kind⟩) (behind : ¬ parent < id) :
    table.lineage id = [id] := by
  rw [lineage, stored]
  exact if_neg behind

theorem lineage_own (stored : table.nodes[id]? = some node) : [id] <+: table.lineage id := by
  obtain ⟨own, parent?, kind⟩ := node
  cases parent? with
  | none => exact ⟨[], (lineage_top stored).symm⟩
  | some parent =>
    by_cases before : parent < id
    · exact ⟨table.lineage parent, (lineage_inner stored before).symm⟩
    · exact ⟨[], (lineage_stop stored before).symm⟩

theorem isWithin_own (stored : table.nodes[id]? = some ⟨name, outer, kind⟩) : table.isWithin id name = true := by
  have own := (lineage_own stored).subset (List.mem_singleton_self id)
  exact List.any_eq_true.mpr ⟨id, own, by simp [stored]⟩

theorem isWithin_top (stored : table.nodes[id]? = some ⟨own, none, kind⟩) (name : StateName) :
    table.isWithin id name = (own == name) := by
  simp [isWithin, lineage_top stored, stored]

theorem isWithin_inner (stored : table.nodes[id]? = some ⟨own, some parent, kind⟩) (before : parent < id)
    (name : StateName) : table.isWithin id name = (own == name || table.isWithin parent name) := by
  simp [isWithin, lineage_inner stored before, stored]

theorem climb_own (stored : table.nodes[id]? = some ⟨name, outer, kind⟩) :
    table.climb name (steps + 1) id = some ([id], true) := by
  rw [climb, stored]
  simp

theorem climb_top (stored : table.nodes[id]? = some ⟨own, none, kind⟩) (other : own ≠ name) :
    table.climb name (steps + 1) id = some ([id], false) := by
  rw [climb, stored]
  simp [other]

theorem climb_inner (stored : table.nodes[id]? = some ⟨own, some parent, kind⟩) (other : own ≠ name)
    (above : table.climb name steps parent = some (passed, found)) :
    table.climb name (steps + 1) id = some (id :: passed, found) := by
  rw [climb, stored]
  simp [other, above]

-- The loop knows its answer after so many steps, and comes past these nodes until then.
def Climbs (table : Table) (id : Nat) (name : StateName) (passed : List Nat) : Prop :=
  ∀ steps, id < steps → table.climb name steps id = some (passed, table.isWithin id name)

theorem lineage_length (table : Table) (id : Nat) : (table.lineage id).length ≤ id + 1 := by
  induction id using Nat.strongRecOn with
  | ind id ih =>
    cases stored : table.nodes[id]? with
    | none => simp [lineage_none stored]
    | some node =>
      obtain ⟨own, parent?, kind⟩ := node
      cases parent? with
      | none => simp [lineage_top stored]
      | some parent =>
        by_cases before : parent < id
        · have shorter := ih parent before
          rw [lineage_inner stored before, List.length_cons]
          omega
        · simp [lineage_stop stored before]

end Table

namespace Forest

theorem table_stored (inside : id < states.count) : ∃ node, states.table.nodes[id]? = some node :=
  ⟨_, Array.getElem?_eq_getElem (by rwa [← Table.size, table_size])⟩

-- A parent stands before its children, so that the climb is an induction on the position.
theorem table_climbs (inside : id < states.count) (name : StateName) :
    ∃ passed, states.table.Climbs id name passed ∧ passed <+: states.table.lineage id := by
  induction id using Nat.strongRecOn with
  | ind id ih =>
    obtain ⟨⟨own, parent?, kind⟩, stored⟩ := table_stored inside
    by_cases same : own = name
    · subst same
      refine ⟨[id], ?_, Table.lineage_own stored⟩
      intro steps enough
      obtain ⟨steps, rfl⟩ := Nat.exists_eq_add_of_lt enough
      rw [Table.climb_own stored, Table.isWithin_own stored]
    · cases parent? with
      | none =>
        refine ⟨[id], ?_, Table.lineage_own stored⟩
        intro steps enough
        obtain ⟨steps, rfl⟩ := Nat.exists_eq_add_of_lt enough
        rw [Table.climb_top stored same, Table.isWithin_top stored, beq_false_of_ne same]
      | some parent =>
        have link : states.table.parentAt? id = some parent := by simp [Table.parentAt?, stored]
        have before := (table_parent link).1
        obtain ⟨passed, above, part⟩ := ih parent before (by omega)
        refine ⟨id :: passed, ?_, ?_⟩
        · intro steps enough
          obtain ⟨steps, rfl⟩ := Nat.exists_eq_add_of_lt enough
          rw [Table.climb_inner stored same (above _ (by omega)), Table.isWithin_inner stored before,
            beq_false_of_ne same, Bool.false_or]
        · rw [Table.lineage_inner stored before]
          exact (List.prefix_cons_inj id).mpr part

end Forest

namespace Table

def descendInto (table : Table) (depth : Nat) (state : List Nat × List StateName) (child : Nat) :
    Option (List Nat × List StateName) := do
  let (more, listed) ← table.descend depth child state.2
  return (state.1 ++ more, listed)

theorem descend_leaf (stored : table.nodes[id]? = some ⟨name, outer, .leaf targets⟩) (listed : List StateName) :
    table.descend (depth + 1) id listed = some ([id], listed ++ [name]) := by
  rw [descend, stored]
  rfl

theorem descend_group (stored : table.nodes[id]? = some ⟨name, outer, .group children⟩)
    (below : children.foldlM (table.descendInto depth) ([], listed) = some (passed, more)) :
    table.descend (depth + 1) id listed = some (id :: passed, more) := by
  rw [descend, stored]
  change (children.foldlM (table.descendInto depth) ([], listed)).bind _ = _
  rw [below]
  rfl

-- From a node there is only so much room downward: whatever lies below it stands behind it in the table.
def Descends (table : Table) (id : Nat) (passed : List Nat) : Prop :=
  ∀ depth listed, table.size ≤ id + depth →
    table.descend depth id listed = some (passed, listed ++ table.leavesUnder id)

theorem descendInto_fold {children : List Nat}
    (each : ∀ child ∈ children, id < child ∧ table.Descends child (table.subtree child))
    (enough : table.size ≤ id + 1 + depth) (passed : List Nat) (listed : List StateName) :
    children.foldlM (table.descendInto depth) (passed, listed) =
      some (passed ++ children.flatMap table.subtree, listed ++ children.flatMap table.leavesUnder) := by
  induction children generalizing passed listed with
  | nil => simp
  | cons child rest ih =>
    obtain ⟨behind, own⟩ := each child List.mem_cons_self
    have first : table.descendInto depth (passed, listed) child =
        some (passed ++ table.subtree child, listed ++ table.leavesUnder child) := by
      rw [descendInto, own depth listed (by omega)]
      rfl
    rw [List.foldlM_cons, first]
    change List.foldlM _ _ rest = _
    rw [ih fun other member => each other (List.mem_cons_of_mem _ member)]
    simp

theorem Carries.subtree {parent : Option Nat} {first : Nat} (carries : table.Carries parent first states)
    (room : first + states.count ≤ table.size) :
    (states.roots first).flatMap table.subtree = List.range' first states.count := by
  induction states generalizing parent first with
  | nil => rfl
  | leaf name targets rest ih =>
    rw [Forest.count_leaf] at room ⊢
    rw [Forest.roots, List.flatMap_cons, subtree_leaf carries.1, ih carries.2 (by omega)]
    rfl
  | group name children rest insideIh restIh =>
    rw [Forest.count_group] at room ⊢
    have bound (child : Nat) (member : child ∈ children.roots (first + 1)) :
        first < child ∧ child < table.size := by
      have range := Forest.roots_bound member
      omega
    rw [Forest.roots, List.flatMap_cons, subtree_group carries.1 bound, insideIh carries.2.1 (by omega),
      restIh carries.2.2 (by omega), List.cons_append, List.range'_append_1, List.range'_succ]

end Table

namespace Forest

-- What a walk downward comes to is the block of positions that begins with the node itself.
theorem table_subtree (entry : states.declared[id]? = some (name, body)) :
    states.table.subtree id = List.range' id (inside body + 1) := by
  have held := table_holds entry
  cases body with
  | leaf targets =>
    obtain ⟨outer, stored⟩ := held
    exact Table.subtree_leaf stored
  | group children =>
    obtain ⟨⟨outer, stored⟩, inner⟩ := held
    have room := inside_bound entry
    simp only [inside] at room ⊢
    rw [Table.subtree_group stored (table_children stored), inner.subtree, List.range'_succ]
    rw [table_size]
    omega

-- A step that is left leads past the node, and leaves enough for whatever stands behind it.
theorem table_room (inside : id < states.count) (enough : states.table.size ≤ id + depth) :
    ∃ less, depth = less + 1 ∧ states.table.size ≤ id + 1 + less := by
  rw [table_size] at enough ⊢
  exact ⟨depth - 1, by omega, by omega⟩

theorem table_descends (inside : id < states.count) : states.table.Descends id (states.table.subtree id) := by
  generalize behind : states.count - id = room
  induction room using Nat.strongRecOn generalizing id with
  | ind room ih =>
    intro depth listed enough
    obtain ⟨depth, rfl, rest⟩ := table_room inside enough
    obtain ⟨⟨name, outer, kind⟩, stored⟩ := table_stored inside
    cases kind with
    | leaf targets =>
      rw [Table.descend_leaf stored, Table.subtree_leaf stored, Table.leavesUnder_leaf stored]
    | group children =>
      have below := table_children stored
      have each : ∀ child ∈ children,
          id < child ∧ states.table.Descends child (states.table.subtree child) := by
        intro child member
        have bound := below child member
        rw [table_size] at bound
        exact ⟨bound.1, ih _ (by omega) bound.2 rfl⟩
      have walk := Table.descendInto_fold each rest [] listed
      rw [Table.descend_group stored walk, Table.subtree_group stored below,
        Table.leavesUnder_group stored below, List.nil_append]

end Forest

variable {memo : Memo} {busy : List Nat}

namespace Table

def askInto (table : Table) (busy : List Nat) (depth : Nat) (state : List Nat × List StateName × Memo)
    (child : Nat) : Option (List Nat × List StateName × Memo) := do
  let (more, leaves, memo) ← table.ask busy depth child state.2.2
  return (state.1 ++ more, addNew state.2.1 leaves, memo)

theorem ask_known (stored : table.nodes[id]? = some node) (known : memo.flattened.lookup id = some names) :
    table.ask busy (depth + 1) id memo = some ([id], names, memo) := by
  rw [ask, stored]
  simp [known]

theorem ask_leaf (stored : table.nodes[id]? = some ⟨name, outer, .leaf targets⟩)
    (unknown : memo.flattened.lookup id = none) (free : id ∉ busy) :
    table.ask busy (depth + 1) id memo =
      some ([id], [name], { memo with flattened := (id, [name]) :: memo.flattened }) := by
  rw [ask, stored]
  simp [unknown, free]

theorem ask_group (stored : table.nodes[id]? = some ⟨name, outer, .group children⟩)
    (unknown : memo.flattened.lookup id = none) (free : id ∉ busy)
    (below : children.foldlM (table.askInto (id :: busy) depth) ([], [], memo) = some (asked, names, after)) :
    table.ask busy (depth + 1) id memo =
      some (id :: asked, names, { after with flattened := (id, names) :: after.flattened }) := by
  rw [ask, stored]
  simp only [Option.bind_eq_bind, Option.bind_some, unknown, free, if_false]
  change (children.foldlM (table.askInto (id :: busy) depth) ([], [], memo)).bind _ = _
  rw [below]
  rfl

-- What is asked for on the way to an answer, whatever is being worked out around it: that stands before the node,
-- since only children are asked.
def Asks (table : Table) (id : Nat) (memo : Memo) (asked : List Nat) : Prop :=
  ∀ busy depth, (∀ other ∈ busy, other < id) → table.size ≤ id + depth →
    table.ask busy depth id memo = some (id :: asked, table.flattenFrom id memo)

def Answers (table : Table) (id : Nat) : Prop :=
  ∀ memo, ∃ asked, table.Asks id memo asked ∧ (id :: asked).Sublist (table.subtree id)

theorem askInto_fold {children : List Nat}
    (each : ∀ child ∈ children, (id < child ∧ child < table.size) ∧ table.Answers child) (names : List StateName)
    (memo : Memo) :
    ∃ more, more.Sublist (children.flatMap table.subtree) ∧
      ∀ busy depth asked, (∀ other ∈ busy, other ≤ id) → table.size ≤ id + 1 + depth →
        children.foldlM (table.askInto busy depth) (asked, names, memo) =
          some (asked ++ more, children.foldl (table.flattenInto id) (names, memo)) := by
  induction children generalizing names memo with
  | nil => exact ⟨[], .refl _, fun _ _ asked _ _ => by simp⟩
  | cons child rest ih =>
    obtain ⟨inside, answers⟩ := each child List.mem_cons_self
    obtain ⟨own, asks, part⟩ := answers memo
    obtain ⟨more, others, later⟩ := ih (fun other member => each other (List.mem_cons_of_mem _ member))
      (table.flattenInto id (names, memo) child).1 (table.flattenInto id (names, memo) child).2
    refine ⟨child :: own ++ more, ?_, ?_⟩
    · rw [List.flatMap_cons]
      exact part.append others
    · intro busy depth asked earlier enough
      have before : ∀ other ∈ busy, other < child := fun other member =>
        Nat.lt_of_le_of_lt (earlier other member) inside.1
      have first : table.askInto busy depth (asked, names, memo) child =
          some (asked ++ child :: own, table.flattenInto id (names, memo) child) := by
        rw [askInto, asks busy depth before (by omega), flattenInto, if_pos inside]
        rfl
      rw [List.foldlM_cons, first, List.foldl_cons, ← List.append_assoc]
      exact later busy depth _ earlier enough

end Table

namespace Forest

theorem subtree_own (stored : states.table.nodes[id]? = some node) : [id].Sublist (states.table.subtree id) := by
  obtain ⟨name, outer, kind⟩ := node
  cases kind with
  | leaf targets => rw [Table.subtree_leaf stored]
  | group children =>
    rw [Table.subtree_group stored (table_children stored)]
    exact List.singleton_sublist.mpr List.mem_cons_self

-- No matter which answers are known: one that is known ends the walk earlier, and does nothing else to it.
theorem table_answers (inside : id < states.count) : states.table.Answers id := by
  generalize behind : states.count - id = room
  induction room using Nat.strongRecOn generalizing id with
  | ind room ih =>
    intro memo
    obtain ⟨node, stored⟩ := table_stored inside
    have free {busy : List Nat} (before : ∀ other ∈ busy, other < id) : id ∉ busy := fun member =>
      Nat.lt_irrefl _ (before id member)
    cases known : memo.flattened.lookup id with
    | some names =>
      refine ⟨[], ?_, subtree_own stored⟩
      intro busy depth before enough
      obtain ⟨depth, rfl, -⟩ := table_room inside enough
      rw [Table.ask_known stored known, Table.flattenFrom_known known]
    | none =>
      obtain ⟨name, outer, kind⟩ := node
      cases kind with
      | leaf targets =>
        refine ⟨[], ?_, subtree_own stored⟩
        intro busy depth before enough
        obtain ⟨depth, rfl, -⟩ := table_room inside enough
        rw [Table.ask_leaf stored known (free before), Table.flattenFrom_leaf known stored]
      | group children =>
        have below := table_children stored
        have each : ∀ child ∈ children,
            (id < child ∧ child < states.table.size) ∧ states.table.Answers child := by
          intro child member
          have bound := below child member
          refine ⟨bound, ?_⟩
          rw [table_size] at bound
          exact ih _ (by omega) bound.2 rfl
        obtain ⟨asked, part, answer⟩ := Table.askInto_fold each [] memo
        refine ⟨asked, ?_, ?_⟩
        · intro busy depth before enough
          obtain ⟨depth, rfl, rest⟩ := table_room inside enough
          have earlier : ∀ other ∈ id :: busy, other ≤ id := by
            intro other member
            rcases List.mem_cons.mp member with rfl | old
            · exact Nat.le_refl _
            · exact Nat.le_of_lt (before other old)
          have walk := answer (id :: busy) depth [] earlier rest
          rw [Table.ask_group stored known (free before) walk, Table.flattenFrom_group known stored,
            List.nil_append]
        · rw [Table.subtree_group stored below]
          exact part.cons_cons id

end Forest

-- What the walks from a node come to. Each one ends, none leaves the table, and a node is never come to twice.
structure Table.Walked (table : Table) (id : Nat) : Prop where
  climbs : ∀ name, ∃ passed, table.Climbs id name passed ∧ passed <+: table.lineage id ∧ passed.length ≤ id + 1
  descends : ∃ passed, table.Descends id passed ∧ passed.Pairwise (· < ·) ∧
    ∀ node, node ∈ passed ↔ node = id ∨ table.Below node id
  asks : ∀ memo, ∃ asked, table.Asks id memo asked ∧ (id :: asked).Pairwise (· < ·) ∧
    ∀ node ∈ asked, table.Below node id
  outward : ∀ parent, table.parentAt? id = some parent → parent < id
  onward : ∀ child ∈ table.childrenAt id, id < child ∧ child < table.size

namespace Forest

theorem subtree_increasing (entry : states.declared[id]? = some (name, body)) :
    (states.table.subtree id).Pairwise (· < ·) := by
  rw [table_subtree entry]
  exact List.pairwise_lt_range'

theorem mem_subtree (entry : states.declared[id]? = some (name, body)) (node : Nat) :
    node ∈ states.table.subtree id ↔ node = id ∨ states.table.Below node id := by
  rw [table_subtree entry, List.mem_range'_1, table_block entry]
  omega

theorem table_walked (inside : id < states.count) : states.table.Walked id := by
  obtain ⟨⟨name, body⟩, entry⟩ : ∃ entry, states.declared[id]? = some entry :=
    ⟨_, List.getElem?_eq_getElem inside⟩
  have increasing := subtree_increasing entry
  constructor
  case climbs =>
    intro name
    obtain ⟨passed, climbs, part⟩ := table_climbs inside name
    exact ⟨passed, climbs, part, Nat.le_trans part.length_le (states.table.lineage_length id)⟩
  case descends => exact ⟨states.table.subtree id, table_descends inside, increasing, mem_subtree entry⟩
  case asks =>
    intro memo
    obtain ⟨asked, asks, part⟩ := table_answers inside memo
    have order := increasing.sublist part
    refine ⟨asked, asks, order, fun node member => ?_⟩
    have later := (List.pairwise_cons.mp order).1 node member
    rcases (mem_subtree entry node).mp (part.subset (List.mem_cons_of_mem _ member)) with rfl | below
    · exact absurd later (Nat.lt_irrefl _)
    · exact below
  case outward => exact fun parent link => (table_parent link).1
  case onward =>
    intro child member
    have bound := states.table_carries.child (Nat.zero_le _) (by omega) member
    rw [table_size]
    omega

end Forest

namespace Attribute

variable {name : String} {initial : StateName} {events : List String} {options : Options}

theorem walked_of_compiled {attr : Attribute}
    (compiled : Attribute.compile name initial events options states = .ok attr) :
    ∀ id < attr.size, attr.table.Walked id := by
  have table := (compiled_from compiled).table_eq
  intro id inside
  rw [size, table, Forest.table_size] at inside
  rw [table]
  exact Forest.table_walked inside

-- The review is asked for when the list of its late group is known already, so that nobody looks into the group.
theorem review_walked :
    Attribute.compile "state" "draft" [] {} documentStates = .ok document ∧ 1 < document.size ∧
      document.table.Walked 1 ∧
      (document.table.ask [] document.size 1 ⟨[(3, ["second"])], []⟩).map (fun found => (found.1, found.2.1)) =
        some ([1, 2, 3], ["first", "second"]) := by
  have compiled : Attribute.compile "state" "draft" [] {} documentStates = .ok document := rfl
  have inside : 1 < document.size := by decide
  exact ⟨compiled, inside, walked_of_compiled compiled 1 inside, by decide⟩

end Attribute
end StateAttributes
