import StateAttributes.Proofs.Legality
import StateAttributes.Proofs.Recollection

namespace StateAttributes.Attribute

variable {states : Forest} {attr : Attribute} {leaf target : StateName} {targets : List StateName} {goal : State}
  {goals : List State}

-- The states that a list of targets names, in its order.
def Named (attr : Attribute) : List StateName → List State → Prop :=
  List.Forall₂ fun target goal => attr.state? target = some goal

theorem stands_for (found : attr.state? target = some goal) :
    ((attr.table.find? target).map attr.table.leavesUnder).getD [] = goal.leaves := by
  obtain ⟨position, owner⟩ := state_position found
  rw [position, State.leaves, owner]
  rfl

namespace CompiledFrom

variable (compiled : attr.CompiledFrom states)
include compiled

-- No target is passed over, because each of them is declared.
theorem named (resolved : states.Resolved targets) :
    ∃ goals, attr.Named targets goals ∧ attr.table.expansion targets = goals.flatMap State.leaves := by
  induction targets with
  | nil => exact ⟨[], .nil, rfl⟩
  | cons target rest ih =>
    obtain ⟨declared, others⟩ := List.forall_mem_cons.mp resolved
    obtain ⟨body, entry⟩ := Forest.mem_names.mp declared
    obtain ⟨goal, found, -⟩ := compiled.state_placed entry
    obtain ⟨goals, named, whole⟩ := ih others
    refine ⟨goal :: goals, .cons found named, ?_⟩
    rw [Table.expansion, List.flatMap_cons, ← Table.expansion, stands_for found, whole, List.flatMap_cons]

-- A state lists a leaf at most once, and does so exactly if the leaf lies within it.
theorem count_leaves (value : leaf ∈ states.leafNames) (found : attr.state? target = some goal) :
    goal.leaves.count leaf = if (attr.state? leaf).any (·.isWithin target) then 1 else 0 := by
  have unique := compiled.well.unique
  obtain ⟨body, entry⟩ := Forest.mem_names.mp (compiled.state_name found).2
  have leaves := compiled.state_leaves entry found
  have once : goal.leaves.Nodup := by
    rw [leaves]
    exact unique.sublist ((Forest.leavesOf_sublist entry).trans states.leafNames_sublist)
  have listed : leaf ∈ goal.leaves ↔ (attr.state? leaf).any (·.isWithin target) := by
    rw [leaves, Forest.mem_leavesOf unique entry, compiled.any_isWithin]
    simp [value, states.leafNames_subset value]
  rw [once.count]
  simp only [listed]

theorem count_named (value : leaf ∈ states.leafNames) (named : attr.Named targets goals) :
    (goals.flatMap State.leaves).count leaf =
      targets.countP fun target => (attr.state? leaf).any (·.isWithin target) := by
  induction named with
  | nil => rfl
  | cons found _ ih =>
    rw [List.flatMap_cons, List.count_append, compiled.count_leaves value found, ih, List.countP_cons, Nat.add_comm]

theorem named_values (named : attr.Named targets goals) :
    ∀ leaf ∈ goals.flatMap State.leaves, leaf ∈ states.leafNames := by
  induction named with
  | nil => exact List.forall_mem_nil _
  | @cons target goal _ _ found _ ih =>
    obtain ⟨body, entry⟩ := Forest.mem_names.mp (compiled.state_name found).2
    have leaves := compiled.state_leaves entry found
    intro leaf member
    rcases List.mem_append.mp member with own | later
    · rw [leaves] at own
      exact (Forest.leavesOf_sublist entry).subset own
    · exact ih leaf later

theorem mem_named (named : attr.Named targets goals) (name : StateName) :
    name ∈ goals.flatMap State.leaves ↔
      name ∈ states.leafNames ∧ ∃ target ∈ targets, (attr.state? name).any (·.isWithin target) := by
  by_cases value : name ∈ states.leafNames
  · rw [and_iff_right value, ← List.count_pos_iff, compiled.count_named value named, List.countP_pos_iff]
  · exact ⟨fun member => absurd (compiled.named_values named name member) value, fun reached => absurd reached.1 value⟩

end CompiledFrom

-- What a leaf leads to, next to its targets and the states that they name.
structure WaysOut (attr : Attribute) (states : Forest) (source : State) (targets : List StateName)
    (goals : List State) : Prop where
  named : attr.Named targets goals
  transitions : source.transitions = .ok (goals.flatMap State.leaves)
  anytime : ∀ asked, (attr.table.transitionsFrom source.id (attr.known asked)).1 = some (goals.flatMap State.leaves)
  values : ∀ leaf ∈ goals.flatMap State.leaves, leaf ∈ states.leafNames
  times : ∀ leaf ∈ states.leafNames, (goals.flatMap State.leaves).count leaf =
    targets.countP fun target => (attr.state? leaf).any (·.isWithin target)
  reach : ∀ name, source.canReach name ↔
    name ∈ states.leafNames ∧ ∃ target ∈ targets, (attr.state? name).any (·.isWithin target)
  never : ∀ name, name ∉ states.leafNames → source.canReach name = false

variable {name : String} {initial : StateName} {events : List String} {options : Options}

theorem waysOut_of_compiled (compiled : Attribute.compile name initial events options states = .ok attr) :
    (∀ source own, (source, .leaf own) ∈ states.declared → ∃ state goals, attr.state? source = some state ∧
      state.node.targets? = some own.toList ∧ attr.WaysOut states state own.toList goals) ∧
    ∀ group children, (group, .group children) ∈ states.declared → ∃ state, attr.state? group = some state ∧
      state.transitions = .error ⟨group⟩ ∧ ∀ target, state.canReach target = false := by
  have origin := compiled_from compiled
  constructor
  · intro source own entry
    obtain ⟨id, node, found, stored, -, targets⟩ := origin.state_declared entry
    obtain ⟨goals, named, whole⟩ := origin.named (origin.well.closed _ entry)
    have answer {memo : Memo} (sound : memo.Sound attr.table) :
        (attr.table.transitionsFrom id memo).1 = some (goals.flatMap State.leaves) := by
      rw [(Table.transitionsFrom_exact origin.flattens id sound).1, stored, Option.bind_some, targets,
        Body.targets?_leaf, Option.map_some]
      exact congrArg some whole
    have transitions : State.transitions ⟨attr, id, node⟩ = .ok (goals.flatMap State.leaves) := by
      simp only [State.transitions, Table.transitions?, answer (Memo.empty_sound _)]
    have reach (name : StateName) : State.canReach ⟨attr, id, node⟩ name ↔ name ∈ goals.flatMap State.leaves := by
      rw [State.canReach, transitions]
      exact List.contains_iff_mem
    refine ⟨_, goals, found, targets, ?_⟩
    constructor
    case named => exact named
    case transitions => exact transitions
    case anytime => exact fun asked => answer (origin.known_sound asked)
    case values => exact origin.named_values named
    case times => exact fun leaf value => origin.count_named value named
    case reach => exact fun name => (reach name).trans (origin.mem_named named name)
    case never =>
      intro name noLeaf
      rw [← Bool.not_eq_true, reach]
      exact fun member => noLeaf (origin.named_values named name member)
  · intro group children entry
    obtain ⟨state, found, refused⟩ := origin.transitions_group entry
    have named := (origin.state_name found).1
    rw [named] at refused
    refine ⟨state, found, refused, ?_⟩
    intro target
    rw [State.canReach, refused]

-- An appeal may lead to a review as a whole, to the last of its readings, and to an archive that holds nothing.
def appealStates : Forest :=
  .leaf "appeal" (.many ["review", "second", "archive", "review"])
    (.group "review" (.leaf "first" .terminal (.group "late" (.leaf "second" (.one "late") .nil) .nil))
      (.group "archive" .nil .nil))

def appeal : Attribute := ⟨"state", "appeal", [], {}, appealStates.table⟩

theorem appeal_waysOut :
    Attribute.compile "state" "appeal" [] {} appealStates = .ok appeal ∧
      ∃ state goals, appeal.state? "appeal" = some state ∧
        appeal.WaysOut appealStates state ["review", "second", "archive", "review"] goals ∧
        (goals.flatMap State.leaves).count "second" = 3 ∧ state.canReach "late" = false := by
  have compiled : Attribute.compile "state" "appeal" [] {} appealStates = .ok appeal := rfl
  obtain ⟨leaves, -⟩ := waysOut_of_compiled compiled
  obtain ⟨state, goals, found, -, ways⟩ := leaves "appeal" _ (.head _)
  have times := ways.times "second" (by decide)
  have within : ["review", "second", "archive", "review"].countP
      (fun target => (appeal.state? "second").any (·.isWithin target)) = 3 := by decide +kernel
  exact ⟨compiled, state, goals, found, ways, times.trans within, ways.never "late" (by decide)⟩

end StateAttributes.Attribute
