import Mathlib.Data.List.Induction
import StateAttributes.Scope
import StateAttributes.Proofs.Ancestry
import StateAttributes.Proofs.Course
import StateAttributes.Proofs.Legality

namespace StateAttributes

variable {attr : Attribute} {states : Forest} {name : StateName} {scope : Scope} {state : State}

theorem Scope.of_state (attr : Attribute) (name : StateName) :
    Scope.of? attr name =
      (attr.state? name).map fun state => ⟨attr.options.scopePrefix ++ state.name, attr.name, state.leaves⟩ := by
  refine Option.map_congr fun state found => ?_
  rw [Scope.ofState, (Attribute.state_position found).2]

theorem filterMap_range (items : List α) : (List.range items.length).filterMap (items[·]?) = items := by
  induction items using List.reverseRecOn with
  | nil => rfl
  | append_singleton rest last ih =>
    have early : (List.range rest.length).filterMap ((rest ++ [last])[·]?) = rest := by
      refine (List.filterMap_congr fun position member => ?_).trans ih
      exact List.getElem?_append_left (List.mem_range.mp member)
    rw [List.length_append, List.length_singleton, List.range_succ, List.filterMap_append, early]
    simp

theorem length_one_iff {items : List α} (once : items.Nodup) : items.length = 1 ↔ ∃! item, item ∈ items := by
  rw [List.length_eq_one_iff]
  constructor
  · rintro ⟨item, rfl⟩
    exact ⟨item, List.mem_singleton_self item, fun other member => List.mem_singleton.mp member⟩
  · rintro ⟨item, member, only⟩
    refine ⟨item, List.perm_singleton.mp ?_⟩
    refine (List.perm_ext_iff_of_nodup once (List.nodup_singleton item)).mpr fun other => ?_
    rw [List.mem_singleton]
    exact ⟨only other, fun same => same ▸ member⟩

theorem forall₂_filterMap {Rel : α → β → Prop} {f : α → Option β} {items : List α}
    (each : ∀ item ∈ items, ∃ found, f item = some found ∧ Rel item found) :
    List.Forall₂ Rel items (items.filterMap f) := by
  induction items with
  | nil => exact .nil
  | cons item rest ih =>
    obtain ⟨⟨found, answer, own⟩, others⟩ := List.forall_mem_cons.mp each
    rw [List.filterMap_cons_some answer]
    exact .cons own (ih others)

namespace Attribute

-- What the scope of a declared name lets through, and under which name it stands.
structure Selects (attr : Attribute) (states : Forest) (name : StateName) (scope : Scope) : Prop where
  own : Scope.of? attr name = some scope
  named : scope.name = attr.options.scopePrefix ++ name
  owner : scope.attributeName = attr.name
  hosts : ∀ {H : Type} [Stateful H] (observers : List (Observer H)) (host : H),
    scope.admits ((⟨attr, observers⟩ : Machine H).current host) ↔
      (⟨attr, observers⟩ : Machine H).isValid host ∧ (⟨attr, observers⟩ : Machine H).isWithin host name
  leaf : ∀ leaf ∈ states.leafNames, scope.admits (some leaf) ↔ states.Within leaf name
  others : ∀ value, (∀ leaf ∈ states.leafNames, value ≠ some leaf) → scope.admits value = false
  single : scope.isSingle ↔ ∃! leaf, leaf ∈ states.leafNames ∧ states.Within leaf name

theorem scope_names {names : List StateName} {scopes : List Scope}
    (each : List.Forall₂ (attr.Selects states) names scopes) :
    scopes.map (·.name) = names.map (attr.options.scopePrefix ++ ·) := by
  induction each with
  | nil => rfl
  | cons selects _ ih => rw [List.map_cons, List.map_cons, selects.named, ih]

namespace CompiledFrom

variable (compiled : attr.CompiledFrom states)
include compiled

theorem states_names : attr.states.map State.name = states.names := by
  have at_position (id : Nat) : (attr.stateAt? id).map State.name = states.names[id]? := by
    rw [← states.table_names, ← compiled.table_eq, stateAt?, Option.map_map]
    rfl
  rw [Attribute.states, List.map_filterMap]
  simp only [at_position]
  rw [compiled.table_eq, states.table_size, ← states.names_length, filterMap_range]

theorem scopes_eq : Scope.all attr = states.names.filterMap (Scope.of? attr) := by
  rw [← compiled.states_names, List.filterMap_map]
  rfl

theorem mem_leaves (found : attr.state? name = some state) (value : StateName) :
    value ∈ state.leaves ↔ value ∈ states.leafNames ∧ states.Within value name := by
  obtain ⟨body, entry, leaves⟩ := compiled.leaves_found found
  rw [leaves, Forest.mem_leavesOf compiled.well.unique entry]

theorem leaves_once (found : attr.state? name = some state) : state.leaves.Nodup := by
  obtain ⟨body, entry, leaves⟩ := compiled.leaves_found found
  rw [leaves]
  exact compiled.well.unique.sublist ((Forest.leavesOf_sublist entry).trans states.leafNames_sublist)

-- A stored value is let through if it is a leaf that lies within the name, and nothing else is.
theorem admits_iff (found : attr.state? name = some state) (own : scope.states = state.leaves)
    (value : Option StateName) :
    scope.admits value ↔ ∃ leaf ∈ states.leafNames, value = some leaf ∧ states.Within leaf name := by
  rw [Scope.admits, own]
  cases value with
  | none => simp
  | some leaf => simp [compiled.mem_leaves found]

theorem selects (declared : name ∈ states.names) : ∃ scope, attr.Selects states name scope := by
  obtain ⟨body, entry⟩ := Forest.mem_names.mp declared
  obtain ⟨state, found, -, named, -⟩ := compiled.state_placed entry
  let scope : Scope := ⟨attr.options.scopePrefix ++ name, attr.name, state.leaves⟩
  have admits : ∀ value, scope.admits value ↔ _ := compiled.admits_iff found rfl
  refine ⟨scope, ?_⟩
  constructor
  case own => rw [Scope.of_state, found, Option.map_some, named]
  case named => rfl
  case owner => rfl
  case hosts =>
    intro H _ observers host
    rw [admits, Machine.isValid, Machine.isWithin, Machine.state?]
    cases (⟨attr, observers⟩ : Machine H).current host with
    | none => simp
    | some value =>
      rw [Option.bind_some, compiled.any_isLeaf, compiled.any_isWithin]
      constructor
      · rintro ⟨leaf, member, same, within⟩
        cases same
        exact ⟨member, states.leafNames_subset member, within⟩
      · rintro ⟨member, -, within⟩
        exact ⟨value, member, rfl, within⟩
  case leaf =>
    intro leaf value
    rw [admits]
    simp [value]
  case others =>
    intro value foreign
    rw [← Bool.not_eq_true, admits]
    rintro ⟨leaf, member, same, -⟩
    exact foreign leaf member same
  case single =>
    rw [Scope.isSingle, beq_iff_eq, length_one_iff (compiled.leaves_once found)]
    simp only [compiled.mem_leaves found]

end CompiledFrom

variable {called : String} {initial : StateName} {events : List String} {options : Options}

-- Every declared name has its scope, in the order of the declaration and under a name of its own; nothing else
-- has one.
theorem selects_of_compiled (compiled : Attribute.compile called initial events options states = .ok attr) :
    List.Forall₂ (attr.Selects states) states.names (Scope.all attr) ∧
      ((Scope.all attr).map (·.name)).Nodup ∧
      ∀ name, name ∉ states.names → Scope.of? attr name = none := by
  have origin := compiled_from compiled
  have each : List.Forall₂ (attr.Selects states) states.names (Scope.all attr) := by
    rw [origin.scopes_eq]
    refine forall₂_filterMap fun name declared => ?_
    obtain ⟨scope, selects⟩ := origin.selects declared
    exact ⟨scope, selects.own, selects⟩
  refine ⟨each, ?_, ?_⟩
  · rw [scope_names each]
    exact origin.well.unique.map fun one other same => String.append_right_inj _ |>.mp same
  · intro name undeclared
    rw [Scope.of_state, origin.state_undeclared undeclared, Option.map_none]

-- The later reading is a group of one leaf: its scope asks for that leaf, and not for its own name.
theorem late_selects :
    Attribute.compile "state" "draft" [] {} documentStates = .ok document ∧
      ∃ scope ∈ Scope.all document, document.Selects documentStates "late" scope ∧ scope.isSingle ∧
        scope.admits (some "second") ∧ scope.admits (some "late") = false := by
  have compiled : Attribute.compile "state" "draft" [] {} documentStates = .ok document := rfl
  obtain ⟨each, -, -⟩ := selects_of_compiled compiled
  have selects := each.get (show 3 < _ by decide) (show 3 < _ by decide +kernel)
  have within : documentStates.Within "second" "late" := .inr ⟨_, .tail _ (.tail _ (.tail _ (.head _))), by decide⟩
  refine ⟨compiled, _, List.get_mem _ _, selects, ?_, (selects.leaf _ (by decide)).mpr within, ?_⟩
  · decide +kernel
  · exact selects.others _ (by decide)

end Attribute
end StateAttributes
