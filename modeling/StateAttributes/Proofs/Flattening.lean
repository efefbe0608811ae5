import StateAttributes.Proofs.Call

namespace StateAttributes

variable {states : Forest} {attr : Attribute} {name : StateName}

namespace Forest

def ofLeaves : List (StateName × List StateName) → Forest
  | [] => .nil
  | (name, targets) :: rest => .leaf name (.many targets) (ofLeaves rest)

@[simp] theorem ofLeaves_declared (leaves : List (StateName × List StateName)) :
    (ofLeaves leaves).declared = leaves.map fun leaf => (leaf.1, .leaf (.many leaf.2)) := by
  induction leaves with
  | nil => rfl
  | cons leaf rest ih => simp [ofLeaves, declared, ih]

@[simp] theorem ofLeaves_names (leaves : List (StateName × List StateName)) :
    (ofLeaves leaves).names = leaves.map (·.1) := by
  simp [names, Function.comp_def]

@[simp] theorem ofLeaves_leafNames (leaves : List (StateName × List StateName)) :
    (ofLeaves leaves).leafNames = leaves.map (·.1) := by
  simp [leafNames, List.filterMap_map, Function.comp_def, leafEntry?, Body.isGroup]

theorem mem_ofLeaves {leaves : List (StateName × List StateName)} (member : (name, targets) ∈ leaves) :
    (name, .leaf (.many targets)) ∈ (ofLeaves leaves).declared := by
  rw [ofLeaves_declared]
  exact List.mem_map.mpr ⟨_, member, rfl⟩

-- A leaf stands for itself, so a list of leaves is its own expansion.
theorem expansion_leaves (unique : states.names.Nodup) {names : List StateName}
    (leaves : ∀ name ∈ names, name ∈ states.leafNames) : states.table.expansion names = names := by
  have each : ∀ name ∈ names, ((states.table.find? name).map states.table.leavesUnder).getD [] = [name] := by
    intro name member
    obtain ⟨targets, entry⟩ := mem_leafNames.mp (leaves name member)
    rw [table_leavesOf unique entry]
    rfl
  rw [Table.expansion, List.flatMap_congr each]
  simp

end Forest

namespace Attribute

-- All that a leaf leads to; a group and a name that is not declared have no such list.
def transitions? (attr : Attribute) (name : StateName) : Option (List StateName) :=
  (attr.state? name).bind fun state => state.transitions.toOption

def flatStates (attr : Attribute) : Forest :=
  .ofLeaves (attr.values.map fun name => (name, (attr.transitions? name).getD []))

def flattened (attr : Attribute) : Attribute := { attr with table := attr.flatStates.table }

def isGroup (attr : Attribute) (name : StateName) : Bool := (attr.state? name).any State.isGroup

theorem canReach_transitions (attr : Attribute) (source target : StateName) :
    (attr.state? source).any (·.canReach target) = (attr.transitions? source).any (·.contains target) := by
  rw [transitions?]
  cases attr.state? source with
  | none => rfl
  | some state =>
    simp only [Option.any_some, Option.bind_some, State.canReach]
    cases state.transitions <;> rfl

theorem isTerminal_transitions (attr : Attribute) (name : StateName) :
    (attr.state? name).any State.isTerminal = (attr.transitions? name).any List.isEmpty := by
  rw [transitions?]
  cases attr.state? name with
  | none => rfl
  | some state =>
    simp only [Option.any_some, Option.bind_some, State.isTerminal]
    cases state.transitions <;> rfl

namespace CompiledFrom

variable (compiled : attr.CompiledFrom states)
include compiled

theorem transitions?_leaf (entry : (name, .leaf targets) ∈ states.declared) :
    attr.transitions? name = some (states.table.expansion targets.toList) := by
  obtain ⟨state, found, answer⟩ := compiled.transitions entry
  rw [transitions?, found, Option.bind_some, answer]
  rfl

theorem transitions?_noLeaf (noLeaf : name ∉ states.leafNames) : attr.transitions? name = none := by
  rcases states.declared_kind name with leaf | ⟨children, entry⟩ | undeclared
  · exact absurd (Forest.mem_leafNames.mpr leaf) noLeaf
  · obtain ⟨state, found, answer⟩ := compiled.transitions_group entry
    rw [transitions?, found, Option.bind_some, answer]
    rfl
  · rw [transitions?, compiled.state_undeclared undeclared]
    rfl

theorem transitions?_targets (leads : attr.transitions? name = some names) :
    ∀ target ∈ names, target ∈ states.leafNames := by
  intro target member
  by_cases leaf : name ∈ states.leafNames
  · obtain ⟨targets, entry⟩ := Forest.mem_leafNames.mp leaf
    rw [compiled.transitions?_leaf entry] at leads
    cases leads
    exact ((Forest.mem_expansion compiled.well.unique _ _).mp member).1
  · rw [compiled.transitions?_noLeaf leaf] at leads
    cases leads

theorem flatStates_names : attr.flatStates.names = states.leafNames := by
  simp [flatStates, compiled.values_eq, Function.comp_def]

theorem flatStates_leafNames : attr.flatStates.leafNames = states.leafNames := by
  simp [flatStates, compiled.values_eq, Function.comp_def]

theorem flat_declared (leaf : name ∈ states.leafNames) :
    ∃ names, attr.transitions? name = some names ∧ (name, .leaf (.many names)) ∈ attr.flatStates.declared := by
  obtain ⟨targets, entry⟩ := Forest.mem_leafNames.mp leaf
  have leads := compiled.transitions?_leaf entry
  refine ⟨_, leads, Forest.mem_ofLeaves (List.mem_map.mpr ⟨name, ?_, ?_⟩)⟩
  · rw [compiled.values_eq]
    exact leaf
  · rw [leads]
    rfl

theorem flat_well : attr.flatStates.WellDeclared attr.initial := by
  constructor
  case unique =>
    rw [compiled.flatStates_names]
    exact compiled.well.unique.sublist states.leafNames_sublist
  case closed =>
    intro entry member target listed
    rw [compiled.flatStates_names]
    simp only [flatStates, Forest.ofLeaves_declared, List.map_map, List.mem_map] at member
    obtain ⟨name, value, rfl⟩ := member
    rw [compiled.values_eq] at value
    obtain ⟨names, leads, -⟩ := compiled.flat_declared value
    simp only [Function.comp_def, leads, Option.getD_some] at listed
    exact compiled.transitions?_targets leads target listed
  case initial_leaf =>
    rw [compiled.flatStates_leafNames]
    exact compiled.well.initial_leaf

theorem flat_compiled : attr.flattened.CompiledFrom attr.flatStates := ⟨compiled.flat_well, rfl⟩

-- What a name leads to is the same, spelled out or not.
theorem flat_transitions (name : StateName) : attr.flattened.transitions? name = attr.transitions? name := by
  by_cases leaf : name ∈ states.leafNames
  · obtain ⟨names, leads, entry⟩ := compiled.flat_declared leaf
    rw [compiled.flat_compiled.transitions?_leaf entry, leads]
    refine congrArg some (Forest.expansion_leaves compiled.flat_well.unique fun target member => ?_)
    rw [compiled.flatStates_leafNames]
    exact compiled.transitions?_targets leads target member
  · rw [compiled.transitions?_noLeaf leaf, compiled.flat_compiled.transitions?_noLeaf]
    rw [compiled.flatStates_leafNames]
    exact leaf

theorem flat_values : attr.flattened.values = attr.values := by
  rw [compiled.flat_compiled.values_eq, compiled.flatStates_leafNames, compiled.values_eq]

theorem flat_terminal : attr.flattened.terminalValues = attr.terminalValues := by
  simp only [terminalValues, compiled.flat_values, isTerminal_transitions, compiled.flat_transitions]

theorem flat_inclusion (value : Option StateName) : attr.flattened.inclusion? value = attr.inclusion? value := by
  apply inclusion?_congr
  · rfl
  · rfl
  · intro name
    rw [compiled.flat_values]

theorem isGroup_iff : attr.isGroup name ↔ ∃ children, (name, .group children) ∈ states.declared := by
  rcases states.declared_kind name with ⟨targets, entry⟩ | ⟨children, entry⟩ | undeclared
  · obtain ⟨goal, found, -, group⟩ := compiled.goal entry
    rw [isGroup, found, Option.any_some, group]
    refine ⟨fun never => Bool.noConfusion never, ?_⟩
    intro other
    obtain ⟨children, also⟩ := other
    cases Forest.declared_unique compiled.well.unique entry also
  · obtain ⟨goal, found, -, group⟩ := compiled.goal entry
    rw [isGroup, found, Option.any_some, group]
    exact ⟨fun _ => ⟨children, entry⟩, fun _ => rfl⟩
  · rw [isGroup, compiled.state_undeclared undeclared]
    refine ⟨fun never => Bool.noConfusion never, ?_⟩
    intro other
    obtain ⟨children, entry⟩ := other
    exact absurd (Forest.mem_names.mpr ⟨_, entry⟩) undeclared

theorem isGroup_noLeaf (group : attr.isGroup name) : name ∉ states.leafNames := by
  obtain ⟨children, entry⟩ := compiled.isGroup_iff.mp group
  intro leaf
  obtain ⟨targets, other⟩ := Forest.mem_leafNames.mp leaf
  cases Forest.declared_unique compiled.well.unique entry other

end CompiledFrom
end Attribute

-- A strict request is answered with the reason of its refusal, and that a name is a group is a reason of
-- its own.
def Attribute.Excepts [Stateful H] (attr : Attribute) (host : H) (ask : Ask H) : Prop :=
  ask.call.strict ∧ attr.isGroup ask.target ∧ (Stateful.values host).get attr.name ≠ some ask.target

-- A turn of the attribute and the turn of the flat one for the same request.
inductive Attribute.Matches [Stateful H] (attr : Attribute) : Turn H → Turn H → Prop where
  | alike (turn : Turn H) (plain : ¬ attr.Excepts turn.before turn.ask) : Matches attr turn turn
  | group (host : H) (ask : Ask H) (excepted : attr.Excepts host ask) :
      Matches attr ⟨host, ask, ask.call.refuse (.groupTarget attr.name ask.target), host⟩
        ⟨host, ask, ask.call.refuse (.unknownTarget attr.name ask.target), host⟩

namespace Machine

variable {H : Type} [Stateful H] {machine : Machine H} {host : H} {target : StateName}

def flat (machine : Machine H) : Machine H := ⟨machine.subject.flattened, machine.observers⟩

theorem flat_current (machine : Machine H) (host : H) : machine.flat.current host = machine.current host := rfl

theorem flat_canReach (compiled : machine.subject.CompiledFrom states) (host : H) (target : StateName) :
    machine.flat.canReach host target = machine.canReach host target := by
  rw [canReach, canReach, state?, state?, flat_current]
  cases machine.current host with
  | none => rfl
  | some source =>
    simp only [Option.bind_some, Attribute.canReach_transitions, flat, compiled.flat_transitions]

theorem flat_judge (compiled : machine.subject.CompiledFrom states)
    (plain : machine.subject.isGroup target → machine.current host = some target) :
    machine.flat.judge host target = machine.judge host target := by
  by_cases stays : machine.current host = some target
  · have flatStays : machine.flat.current host = some target := stays
    rw [judge_same stays, judge_same flatStays]
  have flatMoves : machine.flat.current host ≠ some target := stays
  rcases states.declared_kind target with declared | group | unknown
  · have leaf := Forest.mem_leafNames.mpr declared
    have flatLeaf : target ∈ machine.subject.flatStates.leafNames := compiled.flatStates_leafNames ▸ leaf
    rw [judge_leaf compiled.flat_compiled flatMoves flatLeaf, judge_leaf compiled stays leaf,
      flat_canReach compiled]
    rfl
  · exact absurd (plain (compiled.isGroup_iff.mpr group)) stays
  · have flatUnknown : target ∉ machine.subject.flatStates.names := by
      rw [compiled.flatStates_names]
      exact fun leaf => unknown (states.leafNames_subset leaf)
    rw [judge_undeclared compiled.flat_compiled flatMoves flatUnknown, judge_undeclared compiled stays unknown]
    rfl

-- A group is refused either way, once as a group and once as a name that nothing bears.
theorem flat_judge_group (compiled : machine.subject.CompiledFrom states)
    (group : machine.subject.isGroup target) (moves : machine.current host ≠ some target) :
    machine.judge host target = .error (.groupTarget machine.subject.name target) ∧
      machine.flat.judge host target = .error (.unknownTarget machine.subject.name target) := by
  obtain ⟨children, entry⟩ := compiled.isGroup_iff.mp group
  have flatMoves : machine.flat.current host ≠ some target := moves
  have flatUnknown : target ∉ machine.subject.flatStates.names :=
    compiled.flatStates_names ▸ compiled.isGroup_noLeaf group
  exact ⟨judge_group compiled moves entry, judge_undeclared compiled.flat_compiled flatMoves flatUnknown⟩

theorem flat_turn (compiled : machine.subject.CompiledFrom states) (host : H) (ask : Ask H) :
    machine.subject.Matches (machine.turn host ask) (machine.flat.turn host ask) ∧
      (machine.turn host ask).after = (machine.flat.turn host ask).after := by
  by_cases excepted : machine.subject.isGroup ask.target ∧ machine.current host ≠ some ask.target
  · obtain ⟨group, moves⟩ := excepted
    obtain ⟨asGroup, asUnknown⟩ := flat_judge_group compiled group moves
    rw [turn, turn, perform_refused asGroup, perform_refused asUnknown]
    refine ⟨?_, rfl⟩
    cases strict : ask.call.strict with
    | true => exact .group host ask ⟨strict, group, moves⟩
    | false =>
      rw [Call.refuse_lenient strict, Call.refuse_lenient strict]
      refine .alike _ ?_
      rintro ⟨also, -⟩
      rw [strict] at also
      cases also
  · have plain (group : machine.subject.isGroup ask.target) : machine.current host = some ask.target := by
      by_contra moves
      exact excepted ⟨group, moves⟩
    have named : machine.flat.subject.name = machine.subject.name := rfl
    have heard : machine.flat.observers = machine.observers := rfl
    have performed : machine.flat.perform ask.now ask.target ask.call host =
        machine.perform ask.now ask.target ask.call host :=
      perform_congr named heard (flat_judge compiled plain) ask.call
    have same : machine.flat.turn host ask = machine.turn host ask := by
      rw [turn, turn, performed]
    rw [same]
    refine ⟨.alike _ ?_, rfl⟩
    rintro ⟨-, rest⟩
    exact excepted rest

-- By induction on the requests: equal hosts go into every turn, so equal hosts come out of it.
theorem flat_turns (compiled : machine.subject.CompiledFrom states) (host : H) (asks : List (Ask H)) :
    List.Forall₂ machine.subject.Matches (machine.turns host asks) (machine.flat.turns host asks) ∧
      machine.leave host asks = machine.flat.leave host asks := by
  induction asks generalizing host with
  | nil => exact ⟨.nil, rfl⟩
  | cons ask rest ih =>
    obtain ⟨first, after⟩ := flat_turn compiled host ask
    obtain ⟨others, last⟩ := ih (machine.turn host ask).after
    simp only [turns, leave, List.foldl_cons] at last ⊢
    rw [← after]
    exact ⟨.cons first others, last⟩

end Machine

namespace Attribute

-- What a group adds to its leaves is a way to write them.
structure FlatAlike (attr flat : Attribute) : Prop where
  values : flat.values = attr.values
  terminal : flat.terminalValues = attr.terminalValues
  transitions : ∀ leaf ∈ attr.values,
    ∃ names, attr.transitions? leaf = some names ∧ flat.transitions? leaf = some names
  inclusion : ∀ value, flat.inclusion? value = attr.inclusion? value
  turns : ∀ {H : Type} [Stateful H] (observers : List (Observer H)) (host : H) (asks : List (Ask H)),
    List.Forall₂ attr.Matches ((⟨attr, observers⟩ : Machine H).turns host asks)
      ((⟨flat, observers⟩ : Machine H).turns host asks)
  leave : ∀ {H : Type} [Stateful H] (observers : List (Observer H)) (host : H) (asks : List (Ask H)),
    (⟨attr, observers⟩ : Machine H).leave host asks = (⟨flat, observers⟩ : Machine H).leave host asks

variable {name : String} {initial : StateName} {events : List String} {options : Options}

-- The leaves of a compiled attribute make a declaration of their own, and it compiles.
theorem flattened_of_compiled (compiled : Attribute.compile name initial events options states = .ok attr) :
    Attribute.compile name initial events options attr.flatStates = .ok attr.flattened ∧
      attr.FlatAlike attr.flattened := by
  have origin := compiled_from compiled
  obtain ⟨-, same⟩ := compile_ok.mp compiled
  constructor
  · refine compile_ok.mpr ⟨?_, ?_⟩
    · have well := origin.flat_well
      rw [same] at well ⊢
      exact well
    · rw [same]
      rfl
  · constructor
    case values => exact origin.flat_values
    case terminal => exact origin.flat_terminal
    case transitions =>
      intro leaf value
      rw [origin.values_eq] at value
      obtain ⟨names, leads, -⟩ := origin.flat_declared value
      exact ⟨names, leads, (origin.flat_transitions leaf).trans leads⟩
    case inclusion => exact origin.flat_inclusion
    case turns =>
      intro H _ observers host asks
      have own : (⟨attr, observers⟩ : Machine H).subject.CompiledFrom states := origin
      exact (Machine.flat_turns own host asks).1
    case leave =>
      intro H _ observers host asks
      have own : (⟨attr, observers⟩ : Machine H).subject.CompiledFrom states := origin
      exact (Machine.flat_turns own host asks).2

-- The document without its review, which stands for both of its readings.
def documentLeaves : Forest :=
  .leaf "draft" (.many ["first", "second"])
    (.leaf "first" (.many ["second"])
      (.leaf "second" (.many ["published", "first", "second"])
        (.leaf "published" (.many []) .nil)))

-- Marks on the host where the document has last gone.
def marker : Observer Values := fun transition => Act.modify fun values => values.set "mark" (some transition.target)

-- Into the review, through it, and back to its start. The review itself is asked for once, in vain.
def reviewing : List (Ask Values) :=
  [⟨default, "first", .change⟩, ⟨default, "review", .changeStrict⟩, ⟨default, "second", .changeStrict⟩,
    ⟨default, "first", .changeWith (pure (.ok ()) : Act Values (Except String Unit))⟩]

def drafted : Values := Values.empty.set "state" (some "draft")

theorem document_flattened :
    Attribute.compile "state" "draft" [] {} documentStates = .ok document ∧
      Attribute.compile "state" "draft" [] {} documentLeaves = .ok document.flattened ∧
      document.flattened.terminalValues = ["published"] ∧
      List.Forall₂ document.Matches
        ((⟨document, [marker]⟩ : Machine Values).turns drafted reviewing)
        ((⟨document.flattened, [marker]⟩ : Machine Values).turns drafted reviewing) ∧
      ((⟨document.flattened, [marker]⟩ : Machine Values).leave drafted reviewing).history.transitions =
        [⟨"state", some "draft", "first", default⟩, ⟨"state", some "first", "second", default⟩,
          ⟨"state", some "second", "first", default⟩] ∧
      ((⟨document.flattened, [marker]⟩ : Machine Values).leave drafted reviewing).get "mark" = some "first" := by
  have compiled : Attribute.compile "state" "draft" [] {} documentStates = .ok document := rfl
  have leaves : document.flatStates = documentLeaves := by decide +kernel
  obtain ⟨recompiled, alike⟩ := flattened_of_compiled compiled
  rw [leaves] at recompiled
  have left := alike.leave [marker] drafted reviewing
  refine ⟨compiled, recompiled, alike.terminal.trans (by decide +kernel), alike.turns [marker] drafted reviewing,
    ?_, ?_⟩
  · rw [← left]
    decide +kernel
  · rw [← left]
    decide +kernel

end Attribute
end StateAttributes
