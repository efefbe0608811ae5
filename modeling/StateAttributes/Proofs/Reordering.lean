import StateAttributes.Scope
import StateAttributes.Proofs.Ancestry
import StateAttributes.Proofs.DeclarationText
import StateAttributes.Proofs.Flattening
import StateAttributes.Proofs.Selection

namespace StateAttributes

-- One declaration in another order.
inductive Forest.Reordered : Forest → Forest → Prop where
  | nil : Reordered .nil .nil
  | leaf (targets : one.toList.Perm other.toList) (rest : Reordered states twins) :
      Reordered (.leaf name one states) (.leaf name other twins)
  | group (inside : Reordered children others) (rest : Reordered states twins) :
      Reordered (.group name children states) (.group name others twins)
  | swap (first second : StateName × Body) (rest : Forest) :
      Reordered ((rest.cons second.1 second.2).cons first.1 first.2)
        ((rest.cons first.1 first.2).cons second.1 second.2)
  | trans (before : Reordered one middle) (behind : Reordered middle other) : Reordered one other

inductive Body.Reordered : Body → Body → Prop where
  | leaf (targets : one.toList.Perm other.toList) : Body.Reordered (.leaf one) (.leaf other)
  | group (inside : children.Reordered others) : Body.Reordered (.group children) (.group others)

def Body.content : Body → List (StateName × Body)
  | leaf _ => []
  | group children => children.declared

namespace Forest

variable {one other : Forest}

@[simp] theorem declared_cons (states : Forest) (name : StateName) (body : Body) :
    (states.cons name body).declared = (name, body) :: (body.content ++ states.declared) := by
  cases body <;> rfl

theorem declared_swap (first second : StateName × Body) (rest : Forest) :
    ((rest.cons second.1 second.2).cons first.1 first.2).declared.Perm
      ((rest.cons first.1 first.2).cons second.1 second.2).declared := by
  simp only [declared_cons]
  exact List.perm_append_comm_assoc (first :: first.2.content) (second :: second.2.content) rest.declared

namespace Reordered

theorem refl (states : Forest) : states.Reordered states := by
  induction states with
  | nil => exact .nil
  | leaf name targets rest ih => exact .leaf (.refl _) ih
  | group name children rest insideIh restIh => exact .group insideIh restIh

theorem symm (same : one.Reordered other) : other.Reordered one := by
  induction same with
  | nil => exact .nil
  | leaf targets _ ih => exact .leaf targets.symm ih
  | group _ _ insideIh restIh => exact .group insideIh restIh
  | swap first second rest => exact .swap second first rest
  | trans _ _ beforeIh behindIh => exact .trans behindIh beforeIh

-- A level may be put into any order at all.
theorem of_perm (same : one.entries.Perm other.entries) : one.Reordered other := by
  have entries : ∀ {before after : List (StateName × Body)}, before.Perm after →
      (ofEntries before).Reordered (ofEntries after) := by
    intro before after same
    induction same with
    | nil => exact .nil
    | cons entry _ ih =>
      obtain ⟨name, body⟩ := entry
      cases body with
      | leaf targets => exact .leaf (.refl _) ih
      | group children => exact .group (refl children) ih
    | swap first second rest => exact .swap second first _
    | trans _ _ beforeIh behindIh => exact .trans beforeIh behindIh
  have whole := entries same
  rwa [ofEntries_entries, ofEntries_entries] at whole

end Reordered

end Forest

namespace Body.Reordered

variable {one middle other : Body}

theorem refl (body : Body) : body.Reordered body := by
  cases body with
  | leaf targets => exact .leaf (.refl _)
  | group children => exact .group (.refl children)

theorem trans (before : one.Reordered middle) (behind : middle.Reordered other) : one.Reordered other := by
  cases before with
  | leaf targets =>
    cases behind with
    | leaf others => exact .leaf (targets.trans others)
  | group inside =>
    cases behind with
    | group deeper => exact .group (inside.trans deeper)

theorem targets (same : one.Reordered other) : one.targets.Perm other.targets := by
  cases same with
  | leaf targets => exact targets
  | group inside => exact .refl _

theorem isGroup (same : one.Reordered other) : other.isGroup = one.isGroup := by
  cases same <;> rfl

end Body.Reordered

namespace Forest

variable {one other : Forest} {name outer : StateName} {body : Body} {initial : StateName}

-- Every declared name, and whether it is a group.
def shapes (states : Forest) : List (StateName × Bool) :=
  states.declared.map fun entry => (entry.1, entry.2.isGroup)

theorem names_shapes (states : Forest) : states.names = states.shapes.map (·.1) := by
  simp [names, shapes, Function.comp_def]

theorem leafNames_shapes (states : Forest) :
    states.leafNames = states.shapes.filterMap fun shape => if shape.2 then none else some shape.1 := by
  rw [leafNames, shapes, List.filterMap_map]
  rfl

namespace Reordered

theorem shapes (same : one.Reordered other) : one.shapes.Perm other.shapes := by
  induction same with
  | nil => exact .nil
  | leaf _ _ ih => exact ih.cons _
  | group _ _ insideIh restIh =>
    simp only [Forest.shapes, declared, List.map_cons, List.map_append]
    exact (insideIh.append restIh).cons _
  | swap first second rest => exact (declared_swap first second rest).map _
  | trans _ _ beforeIh behindIh => exact beforeIh.trans behindIh

theorem names (same : one.Reordered other) : one.names.Perm other.names := by
  rw [names_shapes, names_shapes]
  exact same.shapes.map _

theorem leafNames (same : one.Reordered other) : one.leafNames.Perm other.leafNames := by
  rw [leafNames_shapes, leafNames_shapes]
  exact same.shapes.filterMap _

theorem entry (same : one.Reordered other) (declared : (name, body) ∈ one.declared) :
    ∃ twin, (name, twin) ∈ other.declared ∧ body.Reordered twin := by
  induction same generalizing body with
  | nil => cases declared
  | leaf targets _ ih =>
    rcases List.mem_cons.mp declared with own | later
    · cases own
      exact ⟨_, .head _, .leaf targets⟩
    · obtain ⟨twin, member, alike⟩ := ih later
      exact ⟨twin, .tail _ member, alike⟩
  | group inside _ insideIh restIh =>
    rcases List.mem_cons.mp declared with own | deeper
    · cases own
      exact ⟨_, .head _, .group inside⟩
    · rcases List.mem_append.mp deeper with inner | later
      · obtain ⟨twin, member, alike⟩ := insideIh inner
        exact ⟨twin, .tail _ (List.mem_append_left _ member), alike⟩
      · obtain ⟨twin, member, alike⟩ := restIh later
        exact ⟨twin, .tail _ (List.mem_append_right _ member), alike⟩
  | swap first second rest => exact ⟨body, (declared_swap first second rest).subset declared, .refl body⟩
  | trans _ _ beforeIh behindIh =>
    obtain ⟨middle, member, alike⟩ := beforeIh declared
    obtain ⟨twin, last, further⟩ := behindIh member
    exact ⟨twin, last, alike.trans further⟩

theorem within (same : one.Reordered other) (lies : one.Within name outer) : other.Within name outer := by
  rcases lies with rfl | ⟨children, around, member⟩
  · exact .inl rfl
  · obtain ⟨twin, entry, alike⟩ := same.entry around
    cases alike with
    | group inside => exact .inr ⟨_, entry, inside.names.subset member⟩

theorem within_iff (same : one.Reordered other) : one.Within name outer ↔ other.Within name outer :=
  ⟨same.within, same.symm.within⟩

theorem well (same : one.Reordered other) (well : one.WellDeclared initial) : other.WellDeclared initial := by
  constructor
  case unique => exact same.names.nodup_iff.mp well.unique
  case closed =>
    intro entry member
    obtain ⟨twin, before, alike⟩ := same.symm.entry member
    intro target listed
    exact same.names.subset (well.closed _ before target (alike.targets.subset listed))
  case initial_leaf => exact same.leafNames.subset well.initial_leaf

theorem well_iff (same : one.Reordered other) : one.WellDeclared initial ↔ other.WellDeclared initial :=
  ⟨same.well, same.symm.well⟩

end Reordered
end Forest

theorem Body.Reordered.leaves {one other : Body} (alike : one.Reordered other) (name : StateName) :
    (Forest.leavesOf name one).Perm (Forest.leavesOf name other) := by
  cases alike with
  | leaf targets => exact .refl _
  | group inside => exact inside.leafNames

namespace Forest.Reordered

variable {one other : Forest}

-- A name stands for the same leaves.
theorem stands (same : one.Reordered other) (unique : one.names.Nodup) (name : StateName) :
    Option.Rel List.Perm ((one.table.find? name).map one.table.leavesUnder)
      ((other.table.find? name).map other.table.leavesUnder) := by
  by_cases declared : name ∈ one.names
  · obtain ⟨body, entry⟩ := mem_names.mp declared
    obtain ⟨twin, member, alike⟩ := same.entry entry
    rw [table_leavesOf unique entry, table_leavesOf (same.names.nodup unique) member]
    exact .some (alike.leaves name)
  · have absent : name ∉ other.names := fun member => declared (same.symm.names.subset member)
    rw [table_undeclared declared, table_undeclared absent]
    exact .none

theorem expansion (same : one.Reordered other) (unique : one.names.Nodup) (targets : listed.Perm others) :
    (one.table.expansion listed).Perm (other.table.expansion others) := by
  refine targets.flatMap fun target _ => ?_
  have stands := same.stands unique target
  generalize (one.table.find? target).map one.table.leavesUnder = own at stands ⊢
  generalize (other.table.find? target).map other.table.leavesUnder = others at stands ⊢
  cases stands with
  | none => exact .nil
  | some leaves => exact leaves

end Forest.Reordered

-- What two states answer when they are asked where they lead.
inductive WaysAlike : Except NotALeaf (List StateName) → Except NotALeaf (List StateName) → Prop where
  | ok (leaves : names.Perm others) : WaysAlike (.ok names) (.ok others)
  | error (refused : NotALeaf) : WaysAlike (.error refused) (.error refused)

-- Two states that only an order can tell apart.
structure State.Alike (state twin : State) : Prop where
  name : twin.name = state.name
  isLeaf : twin.isLeaf = state.isLeaf
  within : ∀ outer, twin.isWithin outer = state.isWithin outer
  leaves : state.leaves.Perm twin.leaves
  transitions : WaysAlike state.transitions twin.transitions

namespace State.Alike

variable {state twin : State}

theorem canReach (alike : state.Alike twin) (target : StateName) : twin.canReach target = state.canReach target := by
  have ways := alike.transitions
  rw [State.canReach, State.canReach]
  generalize state.transitions = answer at ways ⊢
  generalize twin.transitions = echo at ways ⊢
  cases ways with
  | ok leaves => exact leaves.symm.contains_eq
  | error refused => rfl

theorem isTerminal (alike : state.Alike twin) : twin.isTerminal = state.isTerminal := by
  have ways := alike.transitions
  rw [State.isTerminal, State.isTerminal]
  generalize state.transitions = answer at ways ⊢
  generalize twin.transitions = echo at ways ⊢
  cases ways with
  | ok leaves => exact leaves.symm.isEmpty_eq
  | error refused => rfl

theorem isGroup (alike : state.Alike twin) : twin.isGroup = state.isGroup := by
  rw [State.isGroup, State.isGroup]
  exact congrArg not alike.isLeaf

end State.Alike

theorem any_alike {found other : Option State} {question : State → Bool} (alike : Option.Rel State.Alike found other)
    (answers : ∀ state twin, State.Alike state twin → question twin = question state) :
    other.any question = found.any question := by
  cases alike with
  | none => rfl
  | some same => exact answers _ _ same

structure Scope.Alike (scope twin : Scope) : Prop where
  name : twin.name = scope.name
  attributeName : twin.attributeName = scope.attributeName
  states : scope.states.Perm twin.states
  admits : ∀ value, twin.admits value = scope.admits value

theorem Scope.of_alike {attr twin : Attribute} {name : StateName} (named : twin.name = attr.name)
    (options : twin.options = attr.options)
    (alike : Option.Rel State.Alike (attr.state? name) (twin.state? name)) :
    Option.Rel Scope.Alike (Scope.of? attr name) (Scope.of? twin name) := by
  rw [Scope.of_state, Scope.of_state, named, options]
  generalize attr.state? name = found at alike ⊢
  generalize twin.state? name = image at alike ⊢
  cases alike with
  | none => exact .none
  | some same =>
    refine .some ?_
    constructor
    case name => simp only [same.name]
    case attributeName => rfl
    case states => exact same.leaves
    case admits =>
      intro value
      cases value with
      | none => rfl
      | some name => exact same.leaves.symm.contains_eq

namespace Attribute.CompiledFrom

variable {one other : Forest} {attr twin : Attribute}

theorem flatten_stands (compiled : attr.CompiledFrom one) (name : StateName) :
    attr.flatten? name = (one.table.find? name).map one.table.leavesUnder := by
  have whole : one.table.flatten = one.table.leavesUnder := funext (Forest.table_flatten compiled.well.unique)
  rw [flatten?, compiled.table_eq, whole]

variable (compiled : attr.CompiledFrom one) (again : twin.CompiledFrom other) (same : one.Reordered other)
include compiled again same

theorem states_alike (name : StateName) : Option.Rel State.Alike (attr.state? name) (twin.state? name) := by
  have unique := compiled.well.unique
  by_cases declared : name ∈ one.names
  · obtain ⟨body, entry⟩ := Forest.mem_names.mp declared
    obtain ⟨moved, elsewhere, alike⟩ := same.entry entry
    obtain ⟨state, found, named, group⟩ := compiled.goal entry
    obtain ⟨image, met, called, kind⟩ := again.goal elsewhere
    rw [found, met]
    refine .some ?_
    constructor
    case name => rw [named, called]
    case isLeaf =>
      rw [alike.isGroup, ← group] at kind
      exact Bool.not_inj kind
    case within =>
      intro outer
      rw [Bool.eq_iff_iff, compiled.state_isWithin found, again.state_isWithin met]
      exact same.symm.within_iff
    case leaves =>
      rw [compiled.state_leaves entry found, again.state_leaves elsewhere met]
      exact alike.leaves name
    case transitions =>
      -- Only a leaf leads anywhere. The error of a group bears its name and nothing of its place.
      cases alike with
      | leaf targets =>
        obtain ⟨_, placed, ways⟩ := compiled.transitions entry
        obtain ⟨_, imagePlaced, imageWays⟩ := again.transitions elsewhere
        cases found.symm.trans placed
        cases met.symm.trans imagePlaced
        rw [ways, imageWays]
        exact .ok (same.expansion unique targets)
      | group inside =>
        obtain ⟨_, placed, ways⟩ := compiled.transitions_group entry
        obtain ⟨_, imagePlaced, imageWays⟩ := again.transitions_group elsewhere
        cases found.symm.trans placed
        cases met.symm.trans imagePlaced
        rw [ways, imageWays, named, called]
        exact .error _
  · have absent : name ∉ other.names := fun member => declared (same.symm.names.subset member)
    rw [compiled.state_undeclared declared, again.state_undeclared absent]
    exact .none

end Attribute.CompiledFrom

-- A request asks for nothing that an order could tell apart.
theorem Machine.judge_alike {H : Type} [Stateful H] (machine twin : Machine H)
    (named : twin.subject.name = machine.subject.name)
    (alike : ∀ name, Option.Rel State.Alike (machine.subject.state? name) (twin.subject.state? name)) (host : H)
    (target : StateName) : twin.judge host target = machine.judge host target := by
  have current : twin.current host = machine.current host := by rw [Machine.current, Machine.current, named]
  have reach : twin.canReach host target = machine.canReach host target := by
    rw [canReach, canReach, state?, state?, current]
    cases machine.current host with
    | none => rfl
    | some source => exact any_alike (alike source) fun _ _ same => same.canReach target
  rw [judge, judge, current, reach, named]
  have goals := alike target
  generalize machine.subject.state? target = goal at goals ⊢
  generalize twin.subject.state? target = image at goals ⊢
  cases goals with
  | none => rfl
  | some same => simp only [same.isGroup, same.name]

namespace Attribute

-- Two attributes that answer every question alike, and list what they list in one order or another.
structure OrderAlike (attr twin : Attribute) : Prop where
  contains : ∀ name, twin.contains name = attr.contains name
  isLeaf : ∀ name, twin.isLeaf name = attr.isLeaf name
  values : attr.values.Perm twin.values
  states : ∀ name, Option.Rel State.Alike (attr.state? name) (twin.state? name)
  within : ∀ inner outer, (twin.state? inner).any (·.isWithin outer) = (attr.state? inner).any (·.isWithin outer)
  reach : ∀ source target,
    (twin.state? source).any (·.canReach target) = (attr.state? source).any (·.canReach target)
  terminal : ∀ name, (twin.state? name).any State.isTerminal = (attr.state? name).any State.isTerminal
  flatten : ∀ name, Option.Rel List.Perm (attr.flatten? name) (twin.flatten? name)
  scopes : ∀ name, Option.Rel Scope.Alike (Scope.of? attr name) (Scope.of? twin name)
  inclusion : ∀ value, twin.inclusion? value = attr.inclusion? value
  requests : ∀ {H α : Type} [Stateful H] (observers : List (Observer H)) (now : Instant) (target : StateName)
    (call : Call H α) (host : H),
    (⟨twin, observers⟩ : Machine H).perform now target call host =
      (⟨attr, observers⟩ : Machine H).perform now target call host

variable {one other : Forest}

-- Whether a declaration compiles, and into what up to the order of lists, does not depend on its order.
theorem orderAlike_of_reordered (same : one.Reordered other) (name : String) (initial : StateName)
    (events others : List String) (options : Options) :
    ((∃ attr, Attribute.compile name initial events options one = .ok attr) ↔
      ∃ twin, Attribute.compile name initial others options other = .ok twin) ∧
    ∀ attr twin, Attribute.compile name initial events options one = .ok attr →
      Attribute.compile name initial others options other = .ok twin → attr.OrderAlike twin := by
  constructor
  · rw [(compile_decides name initial events options one).2, (compile_decides name initial others options other).2]
    exact same.well_iff
  · intro attr twin compiled recompiled
    have origin := compiled_from compiled
    have again := compiled_from recompiled
    obtain ⟨-, own⟩ := compile_ok.mp compiled
    obtain ⟨-, others⟩ := compile_ok.mp recompiled
    have named : twin.name = attr.name := by rw [own, others]
    have options : twin.options = attr.options := by rw [own, others]
    have states := origin.states_alike again same
    have values := same.leafNames
    rw [← origin.values_eq, ← again.values_eq] at values
    constructor
    case contains =>
      intro name
      rw [Bool.eq_iff_iff, origin.contains_iff, again.contains_iff]
      exact same.symm.names.mem_iff
    case isLeaf =>
      intro name
      rw [Bool.eq_iff_iff, origin.isLeaf_iff, again.isLeaf_iff]
      exact same.symm.leafNames.mem_iff
    case values => exact values
    case states => exact states
    case within => exact fun inner outer => any_alike (states inner) fun _ _ alike => alike.within outer
    case reach => exact fun source target => any_alike (states source) fun _ _ alike => alike.canReach target
    case terminal => exact fun name => any_alike (states name) fun _ _ alike => alike.isTerminal
    case flatten =>
      intro name
      rw [origin.flatten_stands, again.flatten_stands]
      exact same.stands origin.well.unique name
    case scopes => exact fun name => Scope.of_alike named options (states name)
    case inclusion => exact inclusion?_congr named options fun _ => values.symm.contains_eq
    case requests =>
      intro H α _ observers now target call host
      have judged := Machine.judge_alike ⟨attr, observers⟩ ⟨twin, observers⟩ named states host target
      refine Machine.perform_congr named ?_ judged call
      rfl

-- The document again, told from its end.
def documentBackwards : Forest :=
  .leaf "published" .terminal
    (.group "review"
      (.group "late" (.leaf "second" (.many ["review", "published"]) .nil) (.leaf "first" (.one "second") .nil))
      (.leaf "draft" (.one "review") .nil))

def backwards : Attribute := ⟨"state", "draft", [], {}, documentBackwards.table⟩

theorem document_backwards : documentStates.Reordered documentBackwards := by
  have late : (Forest.leaf "second" (.many ["published", "review"]) .nil).Reordered
      (.leaf "second" (.many ["review", "published"]) .nil) := .leaf (by decide) .nil
  have review : (Forest.leaf "first" (.one "second")
      (.group "late" (.leaf "second" (.many ["published", "review"]) .nil) .nil)).Reordered
        (.group "late" (.leaf "second" (.many ["review", "published"]) .nil) (.leaf "first" (.one "second") .nil)) :=
    .trans (.leaf (.refl _) (.group late .nil)) (.of_perm (by decide))
  exact .trans (.leaf (.refl _) (.group review (.refl _))) (.of_perm (by decide))

theorem document_orderAlike :
    documentStates.Reordered documentBackwards ∧
      Attribute.compile "state" "draft" [] {} documentStates = .ok document ∧
      Attribute.compile "state" "draft" [] {} documentBackwards = .ok backwards ∧
      document.OrderAlike backwards ∧
      document.values = ["draft", "first", "second", "published"] ∧
      backwards.values = ["published", "second", "first", "draft"] := by
  have compiled : Attribute.compile "state" "draft" [] {} documentStates = .ok document := rfl
  have recompiled : Attribute.compile "state" "draft" [] {} documentBackwards = .ok backwards := rfl
  obtain ⟨-, alike⟩ := orderAlike_of_reordered document_backwards "state" "draft" [] [] {}
  exact ⟨document_backwards, compiled, recompiled, alike _ _ compiled recompiled, rfl, rfl⟩

end Attribute
end StateAttributes
