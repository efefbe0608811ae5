import Mathlib.Data.List.Perm.Basic
import StateAttributes.Proofs.Expansion

namespace StateAttributes

variable {states : Forest} {id lower : Nat}

namespace Forest

-- What a group contains stands right behind it, in its own order.
theorem declared_block (entry : states.declared[id]? = some (name, .group children))
    (room : offset < children.count) : states.declared[id + 1 + offset]? = children.declared[offset]? := by
  induction states generalizing id with
  | nil => cases entry
  | leaf own targets rest ih =>
    cases id with
    | zero => cases entry
    | succ id =>
      have later := ih entry
      rwa [show id + 1 + 1 + offset = id + 1 + offset + 1 by omega, declared, List.getElem?_cons_succ]
  | group own inner rest insideIh restIh =>
    cases id with
    | zero =>
      cases entry
      rw [show 0 + 1 + offset = offset + 1 by omega, declared, List.getElem?_cons_succ,
        List.getElem?_append_left room]
    | succ id =>
      rw [declared, List.getElem?_cons_succ] at entry
      rw [show id + 1 + 1 + offset = id + 1 + offset + 1 by omega, declared, List.getElem?_cons_succ]
      rcases Nat.lt_or_ge id inner.declared.length with early | late
      · rw [List.getElem?_append_left early] at entry
        have bound := inside_bound entry
        have within : id + 1 + offset < inner.declared.length := by
          change id + children.count < inner.declared.length at bound
          omega
        rw [List.getElem?_append_left within]
        exact insideIh entry
      · rw [List.getElem?_append_right late] at entry
        have later := restIh entry
        rw [List.getElem?_append_right (by omega)]
        rwa [show id + 1 + offset - inner.declared.length = id - inner.declared.length + 1 + offset by omega]

theorem name_placed (declared : name ∈ states.names) :
    ∃ (id : Nat) (body : Body), states.declared[id]? = some (name, body) := by
  obtain ⟨body, entry⟩ := mem_names.mp declared
  obtain ⟨id, placed⟩ := List.getElem?_of_mem entry
  exact ⟨id, body, placed⟩

theorem names_at (entry : states.declared[id]? = some (name, body)) : states.names[id]? = some name := by
  simp [names, entry]

theorem position_unique (unique : states.names.Nodup) (one : states.declared[id]? = some (name, body))
    (other : states.declared[lower]? = some (name, body')) : id = lower := by
  have inside : id < states.names.length := (List.getElem?_eq_some_iff.mp (names_at one)).1
  exact (List.getElem?_inj inside unique).mp ((names_at one).trans (names_at other).symm)

-- Whether one name lies within another can be read off their positions.
theorem within_positions (unique : states.names.Nodup) (inner : states.declared[lower]? = some (name, body))
    (outer : states.declared[id]? = some (around, content)) :
    states.Within name around ↔ lower = id ∨ id < lower ∧ lower ≤ id + inside content := by
  constructor
  · intro within
    rcases within with rfl | ⟨children, declared, member⟩
    · exact .inl (position_unique unique inner outer)
    · cases declared_unique unique (List.mem_of_getElem? outer) declared
      obtain ⟨found, own⟩ := mem_names.mp member
      obtain ⟨offset, at_offset⟩ := List.getElem?_of_mem own
      have room : offset < children.count := (List.getElem?_eq_some_iff.mp at_offset).1
      have placed := (declared_block outer room).trans at_offset
      have same := position_unique unique inner placed
      simp only [inside]
      omega
  · intro positions
    rcases positions with rfl | ⟨low, high⟩
    · rw [inner] at outer
      cases outer
      exact .inl rfl
    · cases content with
      | leaf targets =>
        simp only [inside] at high
        omega
      | group children =>
        simp only [inside] at high
        have placed := declared_block outer (show lower - (id + 1) < children.count by omega)
        rw [show id + 1 + (lower - (id + 1)) = lower by omega, inner] at placed
        exact .inr ⟨children, List.mem_of_getElem? outer, mem_names.mpr ⟨_, List.mem_of_getElem? placed.symm⟩⟩

end Forest

namespace Table

variable {table : Table}

theorem lineage_none (absent : table.nodes[id]? = none) : table.lineage id = [] := by
  rw [lineage, absent]

theorem lineage_top (stored : table.nodes[id]? = some ⟨name, none, kind⟩) : table.lineage id = [id] := by
  rw [lineage, stored]

theorem lineage_inner (stored : table.nodes[id]? = some ⟨name, some parent, kind⟩) (before : parent < id) :
    table.lineage id = id :: table.lineage parent := by
  rw [lineage, stored]
  exact if_pos before

theorem not_below (rootless : table.parentAt? id = none) (outer : Nat) : ¬ table.Below id outer := by
  intro below
  obtain ⟨parent, link, -⟩ := Relation.TransGen.head'_iff.mp below
  rw [rootless] at link
  cases link

end Table

namespace Forest

-- The walk from parent to parent comes past the node itself and everything that it lies below.
theorem mem_lineage (states : Forest) (id outer : Nat) :
    outer ∈ states.table.lineage id ↔ (outer = id ∧ id < states.count) ∨ states.table.Below id outer := by
  induction id using Nat.strongRecOn with
  | ind id ih =>
    cases stored : states.table.nodes[id]? with
    | none =>
      have beyond : ¬ id < states.count := by
        rw [← table_size]
        exact Nat.not_lt.mpr (Array.getElem?_eq_none_iff.mp stored)
      have rootless : states.table.parentAt? id = none := by simp [Table.parentAt?, stored]
      simp [Table.lineage_none stored, beyond, Table.not_below rootless]
    | some node =>
      have inside : id < states.count := by
        have bound := table_within stored
        omega
      obtain ⟨name, parent?, kind⟩ := node
      cases parent? with
      | none =>
        have rootless : states.table.parentAt? id = none := by simp [Table.parentAt?, stored]
        simp [Table.lineage_top stored, inside, Table.not_below rootless]
      | some parent =>
        have link : states.table.parentAt? id = some parent := by simp [Table.parentAt?, stored]
        obtain ⟨before, group, found, -⟩ := table_parent link
        have room : parent < states.count := by
          have bound := table_within found
          omega
        have climb : states.table.Below id outer ↔ outer = parent ∨ states.table.Below parent outer := by
          rw [Table.Below, Relation.TransGen.head'_iff]
          simp only [link, Option.some.injEq, exists_eq_left', Relation.reflTransGen_iff_eq_or_transGen]
        rw [Table.lineage_inner stored before, List.mem_cons, ih parent before, climb]
        simp [inside, room]

theorem within_declared {inner : StateName} (own : inner ∈ states.names) (within : states.Within inner name) :
    name ∈ states.names := by
  rcases within with rfl | ⟨children, around, -⟩
  · exact own
  · exact mem_names.mpr ⟨_, around⟩

theorem table_isWithin {inner : StateName} {body : Body} (unique : states.names.Nodup)
    (entry : states.declared[id]? = some (inner, body)) (name : StateName) :
    states.table.isWithin id name ↔ states.Within inner name := by
  have inside : id < states.count := (List.getElem?_eq_some_iff.mp entry).1
  have named (outer : Nat) :
      (states.table.nodes[outer]?).any (·.name == name) ↔ states.names[outer]? = some name := by
    rw [← states.table_names]
    cases states.table.nodes[outer]? <;> simp
  constructor
  · intro found
    obtain ⟨outer, passed, same⟩ := List.any_eq_true.mp found
    obtain ⟨⟨_, content⟩, placed, rfl⟩ : ∃ entry, states.declared[outer]? = some entry ∧ entry.1 = name := by
      simpa [names] using (named outer).mp same
    apply (within_positions unique entry placed).mpr
    rcases (states.mem_lineage id outer).mp passed with ⟨rfl, -⟩ | below
    · exact .inl rfl
    · exact .inr ((table_block placed id).mp below)
  · intro within
    have own : inner ∈ states.names := mem_names.mpr ⟨_, List.mem_of_getElem? entry⟩
    obtain ⟨outer, content, placed⟩ := name_placed (within_declared own within)
    refine List.any_eq_true.mpr ⟨outer, ?_, (named outer).mpr (names_at placed)⟩
    rw [mem_lineage]
    rcases (within_positions unique entry placed).mp within with rfl | block
    · exact .inl ⟨rfl, inside⟩
    · exact .inr ((table_block placed id).mpr block)

end Forest

namespace Attribute

-- What a declared state answers in the one direction and in the other. Its leaves stand in the order of all
-- values, and each of them once.
structure SeesAlike (attr : Attribute) (states : Forest) (state : State) : Prop where
  leaves : state.leaves = attr.values.filter fun leaf => (attr.state? leaf).any (·.isWithin state.name)
  listed : ∀ leaf, leaf ∈ state.leaves ↔ leaf ∈ states.leafNames ∧ states.Within leaf state.name
  once : ∀ leaf ∈ state.leaves, state.leaves.count leaf = 1
  within : ∀ name, state.isWithin name ↔ states.Within state.name name

namespace CompiledFrom

variable {attr : Attribute} {inner : StateName} {body : Body} (compiled : attr.CompiledFrom states)
include compiled

theorem state_placed (entry : (inner, body) ∈ states.declared) :
    ∃ state, attr.state? inner = some state ∧ state.owner = attr ∧ state.name = inner ∧
      states.declared[state.id]? = some (inner, body) := by
  obtain ⟨id, node, found, stored, named, -⟩ := compiled.state_declared entry
  rw [compiled.table_eq] at stored
  have known := states.table_names id
  rw [stored, Option.map_some, named] at known
  obtain ⟨⟨_, other⟩, placed, rfl⟩ : ∃ entry, states.declared[id]? = some entry ∧ entry.1 = inner := by
    simpa [Forest.names] using known.symm
  cases Forest.declared_unique compiled.well.unique entry (List.mem_of_getElem? placed)
  exact ⟨_, found, rfl, named, placed⟩

theorem state_at (entry : (inner, body) ∈ states.declared) (found : attr.state? inner = some state) :
    state.owner = attr ∧ states.declared[state.id]? = some (inner, body) := by
  obtain ⟨_, same, owner, -, placed⟩ := compiled.state_placed entry
  rw [found] at same
  cases same
  exact ⟨owner, placed⟩

theorem state_leaves (entry : (inner, body) ∈ states.declared) (found : attr.state? inner = some state) :
    state.leaves = Forest.leavesOf inner body := by
  obtain ⟨owner, placed⟩ := compiled.state_at entry found
  rw [State.leaves, owner, compiled.table_eq, Forest.leavesUnder_entry placed]

theorem leaves_found (found : attr.state? inner = some state) :
    ∃ body, (inner, body) ∈ states.declared ∧ state.leaves = Forest.leavesOf inner body := by
  obtain ⟨body, entry⟩ := Forest.mem_names.mp (compiled.state_name found).2
  exact ⟨body, entry, compiled.state_leaves entry found⟩

theorem state_isWithin (found : attr.state? inner = some state) (name : StateName) :
    state.isWithin name ↔ states.Within inner name := by
  obtain ⟨body, entry⟩ := Forest.mem_names.mp (compiled.state_name found).2
  obtain ⟨owner, placed⟩ := compiled.state_at entry found
  rw [State.isWithin, owner, compiled.table_eq]
  exact Forest.table_isWithin compiled.well.unique placed name

theorem any_isWithin (inner name : StateName) :
    (attr.state? inner).any (·.isWithin name) ↔ inner ∈ states.names ∧ states.Within inner name := by
  cases found : attr.state? inner with
  | none =>
    have absent : inner ∉ states.names := by
      intro declared
      obtain ⟨body, entry⟩ := Forest.mem_names.mp declared
      obtain ⟨state, same, -⟩ := compiled.state_placed entry
      rw [found] at same
      cases same
    simp [absent]
  | some state =>
    have declared := (compiled.state_name found).2
    rw [Option.any_some, compiled.state_isWithin found]
    exact (and_iff_right declared).symm

-- Both lists are parts of the list of all values in its order, so they are equal once they have the same
-- members.
theorem leaves_filter (entry : (inner, body) ∈ states.declared) :
    Forest.leavesOf inner body = attr.values.filter fun leaf => (attr.state? leaf).any (·.isWithin inner) := by
  rw [compiled.values_eq]
  have unique := compiled.well.unique
  have values : states.leafNames.Nodup := unique.sublist states.leafNames_sublist
  have part := Forest.leavesOf_sublist entry
  apply (List.Nodup.perm_iff_eq_of_sublist values part List.filter_sublist).mp
  apply (List.perm_ext_iff_of_nodup (values.sublist part) (values.filter _)).mpr
  intro leaf
  rw [Forest.mem_leavesOf unique entry, List.mem_filter, compiled.any_isWithin]
  constructor
  · rintro ⟨value, within⟩
    exact ⟨value, states.leafNames_subset value, within⟩
  · rintro ⟨value, -, within⟩
    exact ⟨value, within⟩

end CompiledFrom

variable {name : String} {initial : StateName} {events : List String} {options : Options}

-- Every declared name denotes a state, and the two directions agree on it.
theorem seesAlike_of_compiled {attr : Attribute}
    (compiled : Attribute.compile name initial events options states = .ok attr) :
    attr.values = states.leafNames ∧
      ∀ inner ∈ states.names, ∃ state, attr.state? inner = some state ∧ state.name = inner ∧
        attr.SeesAlike states state := by
  have origin := compiled_from compiled
  have unique := origin.well.unique
  refine ⟨origin.values_eq, fun inner declared => ?_⟩
  obtain ⟨body, entry⟩ := Forest.mem_names.mp declared
  obtain ⟨state, found, -, named, -⟩ := origin.state_placed entry
  refine ⟨state, found, named, ?_⟩
  have leaves := origin.state_leaves entry found
  constructor
  case leaves => rw [leaves, named, origin.leaves_filter entry]
  case listed =>
    intro leaf
    rw [leaves, named, Forest.mem_leavesOf unique entry]
  case once =>
    intro leaf member
    rw [leaves] at member ⊢
    have part := (Forest.leavesOf_sublist entry).trans states.leafNames_sublist
    exact List.count_eq_one_of_mem (unique.sublist part) member
  case within =>
    intro outer
    rw [named]
    exact origin.state_isWithin found outer

-- The review of a document holds both of its readings, the later one in a group of its own.
theorem review_seesAlike :
    Attribute.compile "state" "draft" [] {} documentStates = .ok document ∧
      ∃ state, document.state? "review" = some state ∧ state.leaves = ["first", "second"] ∧
        document.SeesAlike documentStates state := by
  have compiled : Attribute.compile "state" "draft" [] {} documentStates = .ok document := rfl
  obtain ⟨-, each⟩ := seesAlike_of_compiled compiled
  obtain ⟨state, found, -, alike⟩ := each "review" (by decide)
  have entry : ("review", Body.group _) ∈ documentStates.declared := .tail _ (.head _)
  exact ⟨compiled, state, found, (compiled_from compiled).state_leaves entry found, alike⟩

end Attribute
end StateAttributes
