import StateAttributes.Proofs.Preorder

namespace StateAttributes

variable {states : Forest} {id : Nat}

namespace Forest

def leavesOf (name : StateName) : Body → List StateName
  | .leaf _ => [name]
  | .group children => children.leafNames

-- The leaves of a name stand together, with no other between them.
theorem leavesOf_segment (entry : (name, body) ∈ states.declared) : leavesOf name body <:+: states.leafNames := by
  cases body with
  | leaf targets =>
    obtain ⟨before, after, split⟩ := List.append_of_mem (mem_leafNames.mpr ⟨targets, entry⟩)
    exact ⟨before, after, by rw [split, leavesOf]; simp⟩
  | group children => exact (declared_segment entry).filterMap leafEntry?

theorem leavesOf_sublist (entry : (name, body) ∈ states.declared) :
    (leavesOf name body).Sublist states.leafNames := (leavesOf_segment entry).sublist

theorem mem_leavesOf (unique : states.names.Nodup) (entry : (outer, body) ∈ states.declared) :
    name ∈ leavesOf outer body ↔ name ∈ states.leafNames ∧ states.Within name outer := by
  constructor
  · intro member
    refine ⟨(leavesOf_sublist entry).subset member, ?_⟩
    cases body with
    | leaf targets => exact .inl (List.mem_singleton.mp member)
    | group children => exact .inr ⟨children, entry, children.leafNames_subset member⟩
  · intro lies
    obtain ⟨value, within⟩ := lies
    rcases within with rfl | ⟨children, group, inside⟩
    · obtain ⟨targets, own⟩ := mem_leafNames.mp value
      cases declared_unique unique own entry
      exact List.mem_singleton_self _
    · cases declared_unique unique group entry
      obtain ⟨targets, own⟩ := mem_leafNames.mp value
      obtain ⟨found, inner⟩ := mem_names.mp inside
      cases declared_unique unique own ((declared_inside entry).subset inner)
      exact mem_leafNames.mpr ⟨targets, inner⟩

end Forest

namespace Table

variable {table : Table}

theorem subtree_leaf (stored : table.nodes[id]? = some ⟨name, outer, .leaf targets⟩) : table.subtree id = [id] := by
  rw [subtree]
  simp [stored, Node.children]

theorem subtree_group (stored : table.nodes[id]? = some ⟨name, outer, .group children⟩)
    (inside : ∀ child ∈ children, id < child ∧ child < table.size) :
    table.subtree id = id :: children.flatMap table.subtree := by
  rw [subtree]
  simp only [stored, Node.children, List.cons.injEq, true_and]
  refine List.flatMap_congr fun child member => ?_
  rw [dif_pos (inside child member)]

theorem leavesUnder_leaf (stored : table.nodes[id]? = some ⟨name, outer, .leaf targets⟩) :
    table.leavesUnder id = [name] := by
  rw [leavesUnder, subtree_leaf stored]
  simp [stored, leafName?, Node.isLeaf]

theorem leavesUnder_group (stored : table.nodes[id]? = some ⟨name, outer, .group children⟩)
    (inside : ∀ child ∈ children, id < child ∧ child < table.size) :
    table.leavesUnder id = children.flatMap table.leavesUnder := by
  have own : table.leafName? id = none := by simp [leafName?, stored, Node.isLeaf]
  rw [leavesUnder, subtree_group stored inside, List.filterMap_cons_none own, List.filterMap_flatMap]
  rfl

theorem Carries.leavesUnder {parent : Option Nat} {first : Nat} (carries : table.Carries parent first states)
    (room : first + states.count ≤ table.size) :
    (states.roots first).flatMap table.leavesUnder = states.leafNames := by
  induction states generalizing parent first with
  | nil => rfl
  | leaf name targets rest ih =>
    rw [Forest.count_leaf] at room
    simp [Forest.roots, leavesUnder_leaf carries.1, ih carries.2 (by omega)]
  | group name children rest insideIh restIh =>
    rw [Forest.count_group] at room
    have bound (child : Nat) (member : child ∈ children.roots (first + 1)) :
        first < child ∧ child < table.size := by
      have range := Forest.roots_bound member
      omega
    simp [Forest.roots, leavesUnder_group carries.1 bound, insideIh carries.2.1 (by omega),
      restIh carries.2.2 (by omega)]

end Table

namespace Forest

theorem leavesUnder_entry (entry : states.declared[id]? = some (name, body)) :
    states.table.leavesUnder id = leavesOf name body := by
  have held := table_holds entry
  cases body with
  | leaf targets =>
    obtain ⟨outer, stored⟩ := held
    exact Table.leavesUnder_leaf stored
  | group children =>
    obtain ⟨⟨outer, stored⟩, inner⟩ := held
    have room := inside_bound entry
    simp only [inside] at room
    rw [Table.leavesUnder_group stored, inner.leavesUnder]
    · rfl
    · rw [table_size]
      omega
    · intro child member
      have range := roots_bound member
      rw [table_size]
      omega

theorem table_leavesOf (unique : states.names.Nodup) (entry : (name, body) ∈ states.declared) :
    (states.table.find? name).map states.table.leavesUnder = some (leavesOf name body) := by
  obtain ⟨id, declared⟩ := List.getElem?_of_mem entry
  have found : states.table.find? name = some id := by
    rw [table_find unique]
    simp [names, declared]
  rw [found, Option.map_some, leavesUnder_entry declared]

end Forest

theorem addNew_fresh (listed more : List StateName) (distinct : (listed ++ more).Nodup) :
    addNew listed more = listed ++ more := by
  unfold addNew
  induction more generalizing listed with
  | nil => simp
  | cons name rest ih =>
    have fresh : name ∉ listed := by
      intro member
      exact (List.nodup_append.mp distinct).2.2 name member name List.mem_cons_self rfl
    rw [List.foldl_cons, if_neg (by simpa using fresh), ih]
    · simp
    · simpa using distinct

namespace Table

-- What a list of targets stands for: each target for its leaves, in order, repetitions included. A
-- name that is not declared stands for nothing.
def expansion (table : Table) (targets : List StateName) : List StateName :=
  targets.flatMap fun target => ((table.find? target).map table.leavesUnder).getD []

end Table

namespace Memo

-- Every answer that is kept is the one that would be worked out.
structure Sound (memo : Memo) (table : Table) : Prop where
  flattened : ∀ id names, memo.flattened.lookup id = some names → names = table.leavesUnder id
  transitions : ∀ id names targets, memo.transitions.lookup id = some names →
    (table.nodes[id]?).bind Node.targets? = some targets → names = table.expansion targets

theorem empty_sound (table : Table) : Memo.empty.Sound table := by
  constructor
  · intro id names found
    cases found
  · intro id names targets found
    cases found

variable {memo : Memo} {table : Table}

theorem Sound.keep (sound : memo.Sound table) (id : Nat) :
    Sound { memo with flattened := (id, table.leavesUnder id) :: memo.flattened } table := by
  refine ⟨?_, sound.transitions⟩
  intro other names found
  rw [List.lookup_cons] at found
  split at found
  · rename_i same
    cases found
    rw [eq_of_beq same]
  · exact sound.flattened other names found

end Memo

namespace Table

variable {table : Table} {memo : Memo}

def flattenInto (table : Table) (id : Nat) (state : List StateName × Memo) (child : Nat) :
    List StateName × Memo :=
  if id < child ∧ child < table.size then
    (addNew state.1 (table.flattenFrom child state.2).1, (table.flattenFrom child state.2).2)
  else state

theorem flattenFrom_known (known : memo.flattened.lookup id = some names) :
    table.flattenFrom id memo = (names, memo) := by
  rw [flattenFrom, known]

theorem flattenFrom_absent (unknown : memo.flattened.lookup id = none) (absent : table.nodes[id]? = none) :
    table.flattenFrom id memo = ([], memo) := by
  rw [flattenFrom, unknown, absent]

theorem flattenFrom_leaf (unknown : memo.flattened.lookup id = none)
    (stored : table.nodes[id]? = some ⟨name, outer, .leaf targets⟩) :
    table.flattenFrom id memo = ([name], { memo with flattened := (id, [name]) :: memo.flattened }) := by
  rw [flattenFrom, unknown, stored]

theorem flattenFrom_group (unknown : memo.flattened.lookup id = none)
    (stored : table.nodes[id]? = some ⟨name, outer, .group children⟩) :
    table.flattenFrom id memo =
      ((children.foldl (table.flattenInto id) ([], memo)).1,
        { (children.foldl (table.flattenInto id) ([], memo)).2 with
          flattened := (id, (children.foldl (table.flattenInto id) ([], memo)).1) ::
            (children.foldl (table.flattenInto id) ([], memo)).2.flattened }) := by
  rw [flattenFrom, unknown, stored]
  rfl

def Flattens (table : Table) (id : Nat) : Prop :=
  ∀ memo : Memo, memo.Sound table →
    (table.flattenFrom id memo).1 = table.leavesUnder id ∧ (table.flattenFrom id memo).2.Sound table

theorem flattenInto_fold {children : List Nat}
    (each : ∀ child ∈ children, (id < child ∧ child < table.size) ∧ table.Flattens child)
    (listed : List StateName) (distinct : (listed ++ children.flatMap table.leavesUnder).Nodup)
    (sound : memo.Sound table) :
    (children.foldl (table.flattenInto id) (listed, memo)).1 = listed ++ children.flatMap table.leavesUnder ∧
      (children.foldl (table.flattenInto id) (listed, memo)).2.Sound table := by
  induction children generalizing listed memo with
  | nil => exact ⟨by simp, sound⟩
  | cons child rest ih =>
    obtain ⟨inside, flattens⟩ := each child List.mem_cons_self
    obtain ⟨answer, kept⟩ := flattens memo sound
    rw [List.flatMap_cons, ← List.append_assoc] at distinct
    have added : addNew listed (table.leavesUnder child) = listed ++ table.leavesUnder child :=
      addNew_fresh _ _ (List.nodup_append.mp distinct).1
    rw [List.foldl_cons, flattenInto, if_pos inside, answer, added, List.flatMap_cons, ← List.append_assoc]
    exact ih (fun other member => each other (List.mem_cons_of_mem _ member)) _ distinct kept

end Table

namespace Forest

theorem leavesUnder_distinct (unique : states.names.Nodup) (id : Nat) : (states.table.leavesUnder id).Nodup := by
  cases entry : states.declared[id]? with
  | none =>
    have absent : states.table.nodes[id]? = none := by simpa [entry] using states.table_entry id
    rw [Table.leavesUnder, Table.subtree, absent]
    exact .nil
  | some found =>
    obtain ⟨name, body⟩ := found
    rw [leavesUnder_entry entry]
    exact (unique.sublist states.leafNames_sublist).sublist (leavesOf_sublist (List.mem_of_getElem? entry))

theorem table_children (stored : states.table.nodes[id]? = some ⟨name, outer, .group children⟩) :
    ∀ child ∈ children, id < child ∧ child < states.table.size := by
  intro child member
  have listed : child ∈ states.table.childrenAt id := by
    rw [Table.childrenAt_group stored]
    exact member
  have bound := states.table_carries.child (Nat.zero_le _) (table_within stored) listed
  rw [table_size]
  omega

theorem table_flattens (unique : states.names.Nodup) (id : Nat) : states.table.Flattens id := by
  -- The induction is on how many nodes stand behind the one asked for: a question is passed on to
  -- children only, and those stand behind it.
  generalize behind : states.table.size - id = room
  induction room using Nat.strongRecOn generalizing id with
  | ind room ih =>
    intro memo sound
    cases known : memo.flattened.lookup id with
    | some names =>
      rw [Table.flattenFrom_known known]
      exact ⟨sound.flattened id names known, sound⟩
    | none =>
      cases stored : states.table.nodes[id]? with
      | none =>
        rw [Table.flattenFrom_absent known stored, Table.leavesUnder, Table.subtree, stored]
        exact ⟨rfl, sound⟩
      | some node =>
        obtain ⟨name, outer, kind⟩ := node
        have kept := sound.keep id
        cases kind with
        | leaf targets =>
          rw [Table.flattenFrom_leaf known stored]
          rw [Table.leavesUnder_leaf stored] at kept ⊢
          exact ⟨rfl, kept⟩
        | group children =>
          have inside := table_children stored
          have whole := Table.leavesUnder_group stored inside
          have distinct := leavesUnder_distinct unique id
          rw [whole] at distinct
          have each : ∀ child ∈ children,
              (id < child ∧ child < states.table.size) ∧ states.table.Flattens child := by
            intro child member
            have bound := inside child member
            exact ⟨bound, ih _ (by omega) child rfl⟩
          obtain ⟨names, later⟩ := Table.flattenInto_fold each [] distinct sound
          rw [Table.flattenFrom_group known stored, names, List.nil_append, ← whole]
          exact ⟨rfl, later.keep id⟩

end Forest

namespace Table

variable {table : Table} {memo : Memo}

def expandInto (table : Table) (state : List StateName × Memo) (target : StateName) :
    List StateName × Memo :=
  match table.find? target with
  | none => state
  | some id => (state.1 ++ (table.flattenFrom id state.2).1, (table.flattenFrom id state.2).2)

theorem expandFrom_fold (table : Table) (targets : List StateName) (memo : Memo) :
    table.expandFrom targets memo = targets.foldl table.expandInto ([], memo) := by
  rfl

-- Between targets nothing is removed: the answers are put one behind the other.
theorem expandInto_fold (flattens : ∀ id, table.Flattens id) (targets listed : List StateName)
    (sound : memo.Sound table) :
    (targets.foldl table.expandInto (listed, memo)).1 = listed ++ table.expansion targets ∧
      (targets.foldl table.expandInto (listed, memo)).2.Sound table := by
  induction targets generalizing listed memo with
  | nil => exact ⟨by simp [expansion], sound⟩
  | cons target rest ih =>
    rw [List.foldl_cons, expansion, List.flatMap_cons, ← expansion, ← List.append_assoc]
    cases found : table.find? target with
    | none =>
      simp only [expandInto, found, Option.map_none, Option.getD_none, List.append_nil]
      exact ih listed sound
    | some id =>
      obtain ⟨answer, kept⟩ := flattens id memo sound
      simp only [expandInto, found, Option.map_some, Option.getD_some, answer]
      exact ih _ kept

theorem transitionsFrom_exact (flattens : ∀ id, table.Flattens id) (id : Nat) (sound : memo.Sound table) :
    (table.transitionsFrom id memo).1 = ((table.nodes[id]?).bind Node.targets?).map table.expansion ∧
      (table.transitionsFrom id memo).2.Sound table := by
  unfold transitionsFrom
  cases own : (table.nodes[id]?).bind Node.targets? with
  | none => exact ⟨rfl, sound⟩
  | some targets =>
    cases known : memo.transitions.lookup id with
    | some names => exact ⟨congrArg some (sound.transitions id names targets known own), sound⟩
    | none =>
      obtain ⟨answer, kept⟩ := expandInto_fold flattens targets [] sound
      simp only [expandFrom_fold, answer, List.nil_append, Option.map_some, true_and]
      refine ⟨kept.flattened, ?_⟩
      intro other names others found stored
      rw [List.lookup_cons] at found
      split at found
      · rename_i same
        cases found
        rw [eq_of_beq same, own] at stored
        rw [Option.some.inj stored]
      · exact kept.transitions other names others found stored

end Table

namespace Forest

theorem table_flatten (unique : states.names.Nodup) (id : Nat) :
    states.table.flatten id = states.table.leavesUnder id :=
  (table_flattens unique id .empty (Memo.empty_sound _)).1

theorem table_transitions (unique : states.names.Nodup) (id : Nat) :
    states.table.transitions? id =
      ((states.table.nodes[id]?).bind Node.targets?).map states.table.expansion :=
  (Table.transitionsFrom_exact (table_flattens unique) id (Memo.empty_sound _)).1

theorem mem_expansion (unique : states.names.Nodup) (targets : List StateName) (name : StateName) :
    name ∈ states.table.expansion targets ↔
      name ∈ states.leafNames ∧ ∃ target ∈ targets, target ∈ states.names ∧ states.Within name target := by
  have stands (target : StateName) :
      name ∈ ((states.table.find? target).map states.table.leavesUnder).getD [] ↔
        name ∈ states.leafNames ∧ target ∈ states.names ∧ states.Within name target := by
    by_cases declared : target ∈ states.names
    · obtain ⟨body, entry⟩ := mem_names.mp declared
      simp [table_leavesOf unique entry, mem_leavesOf unique entry, declared]
    · simp [table_undeclared declared, declared]
  simp only [Table.expansion, List.mem_flatMap, stands]
  constructor
  · intro reached
    obtain ⟨target, listed, value, declared, within⟩ := reached
    exact ⟨value, target, listed, declared, within⟩
  · intro reached
    obtain ⟨value, target, listed, declared, within⟩ := reached
    exact ⟨target, listed, value, declared, within⟩

end Forest
end StateAttributes
