import StateAttributes.Change
import StateAttributes.Proofs.Expansion

namespace StateAttributes

-- A leaf lists a name that the other state lies within.
def Forest.Permits (states : Forest) (source target : StateName) : Prop :=
  ∃ targets, (source, .leaf targets) ∈ states.declared ∧
    ∃ listed ∈ targets.toList, states.Within target listed

-- The answer to a request as the declaration determines it. Only a request that asks for another value
-- looks at the target, only a declared target is looked at further, and only a leaf is looked for among
-- the ways out of the stored value.
inductive Verdict (name : String) (states : Forest) (current : Option StateName) (target : StateName) :
    Except Refusal Bool → Prop where
  | same (stays : current = some target) : Verdict name states current target (.ok false)
  | undeclared (moves : current ≠ some target) (unknown : target ∉ states.names) :
      Verdict name states current target (.error (.unknownTarget name target))
  | group (moves : current ≠ some target) (declared : (target, .group children) ∈ states.declared) :
      Verdict name states current target (.error (.groupTarget name target))
  | permitted (moves : current ≠ some target) (leaf : target ∈ states.leafNames)
      (held : current = some source) (permits : states.Permits source target) :
      Verdict name states current target (.ok true)
  | blocked (moves : current ≠ some target) (leaf : target ∈ states.leafNames)
      (refused : ∀ source, current = some source → ¬ states.Permits source target) :
      Verdict name states current target (.error (.unreachable name current target))

namespace Attribute.CompiledFrom

variable {attr : Attribute} {states : Forest} (compiled : attr.CompiledFrom states)
include compiled

theorem goal (entry : (state, body) ∈ states.declared) :
    ∃ found, attr.state? state = some found ∧ found.name = state ∧ found.isGroup = body.isGroup := by
  obtain ⟨id, node, named, -, same, targets⟩ := compiled.state_declared entry
  refine ⟨_, named, same, ?_⟩
  simp [State.isGroup, Forest.node_isLeaf, targets]

theorem transitions (entry : (source, .leaf targets) ∈ states.declared) :
    ∃ found, attr.state? source = some found ∧
      found.transitions = .ok (states.table.expansion targets.toList) := by
  obtain ⟨id, node, named, stored, -, own⟩ := compiled.state_declared entry
  refine ⟨_, named, ?_⟩
  rw [compiled.table_eq] at stored
  simp only [State.transitions, compiled.table_eq, Forest.table_transitions compiled.well.unique,
    stored, Option.bind_some, own, Body.targets?_leaf, Option.map_some]

theorem transitions_group (entry : (source, .group children) ∈ states.declared) :
    ∃ found, attr.state? source = some found ∧ found.transitions = .error ⟨found.name⟩ := by
  obtain ⟨id, node, named, stored, -, own⟩ := compiled.state_declared entry
  refine ⟨_, named, ?_⟩
  rw [compiled.table_eq] at stored
  simp only [State.transitions, compiled.table_eq, Forest.table_transitions compiled.well.unique,
    stored, Option.bind_some, own, Body.targets?_group, Option.map_none]

-- What a name reaches are the leaves that its declaration permits. A group reaches nothing, and
-- neither does a name that is not declared.
theorem reaches (source target : StateName) :
    (attr.state? source).any (·.canReach target) ↔
      target ∈ states.leafNames ∧ states.Permits source target := by
  by_cases declared : source ∈ states.names
  · obtain ⟨body, entry⟩ := Forest.mem_names.mp declared
    cases body with
    | leaf targets =>
      obtain ⟨found, named, answer⟩ := compiled.transitions entry
      rw [named, Option.any_some, State.canReach, answer]
      simp only [List.contains_iff_mem, Forest.mem_expansion compiled.well.unique]
      constructor
      · intro reached
        obtain ⟨leaf, listed, member, _, within⟩ := reached
        exact ⟨leaf, targets, entry, listed, member, within⟩
      · intro permitted
        obtain ⟨leaf, own, other, listed, member, within⟩ := permitted
        cases Forest.declared_unique compiled.well.unique entry other
        exact ⟨leaf, listed, member, compiled.well.closed _ entry listed member, within⟩
    | group children =>
      obtain ⟨found, named, answer⟩ := compiled.transitions_group entry
      rw [named, Option.any_some, State.canReach, answer]
      refine ⟨fun never => Bool.noConfusion never, ?_⟩
      intro permitted
      obtain ⟨leaf, own, other, rest⟩ := permitted
      cases Forest.declared_unique compiled.well.unique entry other
  · rw [compiled.state_undeclared declared]
    refine ⟨fun never => Bool.noConfusion never, ?_⟩
    intro permitted
    obtain ⟨leaf, own, other, rest⟩ := permitted
    exact absurd (Forest.mem_names.mpr ⟨_, other⟩) declared

end Attribute.CompiledFrom

namespace Machine

variable {H : Type} [Stateful H] {machine : Machine H} {host : H} {states : Forest} {target : StateName}

theorem changeStrict_value (machine : Machine H) (now : Instant) (target : StateName) (host : H) :
    (machine.changeStrict now target host).value = machine.judge host target := by
  simp only [changeStrict, bind, Act.bind, Act.look]
  cases machine.judge host target with
  | error refusal => rfl
  | ok moves => cases moves <;> rfl

theorem canReach_iff (compiled : machine.subject.CompiledFrom states) :
    machine.canReach host target ↔
      target ∈ states.leafNames ∧ ∃ source, machine.current host = some source ∧ states.Permits source target := by
  rw [canReach, state?]
  cases machine.current host with
  | none => simp
  | some source => simpa using compiled.reaches source target

theorem judge_same (stays : machine.current host = some target) : machine.judge host target = .ok false := by
  rw [judge, if_pos stays]

theorem judge_undeclared (compiled : machine.subject.CompiledFrom states)
    (moves : machine.current host ≠ some target) (unknown : target ∉ states.names) :
    machine.judge host target = .error (.unknownTarget machine.subject.name target) := by
  rw [judge, if_neg moves, compiled.state_undeclared unknown]

theorem judge_group (compiled : machine.subject.CompiledFrom states)
    (moves : machine.current host ≠ some target) (declared : (target, .group children) ∈ states.declared) :
    machine.judge host target = .error (.groupTarget machine.subject.name target) := by
  obtain ⟨goal, found, named, group⟩ := compiled.goal declared
  simp only [judge, if_neg moves, found]
  rw [if_pos (by simpa [Body.isGroup] using group), named]

theorem judge_leaf (compiled : machine.subject.CompiledFrom states)
    (moves : machine.current host ≠ some target) (leaf : target ∈ states.leafNames) :
    machine.judge host target =
      if machine.canReach host target then .ok true
      else .error (.unreachable machine.subject.name (machine.current host) target) := by
  obtain ⟨targets, declared⟩ := Forest.mem_leafNames.mp leaf
  obtain ⟨goal, found, named, group⟩ := compiled.goal declared
  simp only [judge, if_neg moves, found]
  rw [if_neg (by simpa [Body.isGroup] using group), named]

theorem judge_verdict (compiled : machine.subject.CompiledFrom states) (host : H) (target : StateName) :
    Verdict machine.subject.name states (machine.current host) target (machine.judge host target) := by
  by_cases stays : machine.current host = some target
  · rw [judge_same stays]
    exact .same stays
  by_cases declared : target ∈ states.names
  · obtain ⟨body, entry⟩ := Forest.mem_names.mp declared
    cases body with
    | group children =>
      rw [judge_group compiled stays entry]
      exact .group stays entry
    | leaf targets =>
      have leaf := Forest.mem_leafNames.mpr ⟨targets, entry⟩
      rw [judge_leaf compiled stays leaf]
      by_cases reach : machine.canReach host target
      · obtain ⟨-, source, held, permits⟩ := (canReach_iff compiled).mp reach
        rw [if_pos reach]
        exact .permitted stays leaf held permits
      · rw [if_neg reach]
        refine .blocked stays leaf ?_
        intro source held permits
        exact reach ((canReach_iff compiled).mpr ⟨leaf, source, held, permits⟩)
  · rw [judge_undeclared compiled stays declared]
    exact .undeclared stays declared

theorem verdict_judge (compiled : machine.subject.CompiledFrom states)
    (verdict : Verdict machine.subject.name states (machine.current host) target answer) :
    machine.judge host target = answer := by
  cases verdict with
  | same stays => exact judge_same stays
  | undeclared moves unknown => exact judge_undeclared compiled moves unknown
  | group moves declared => exact judge_group compiled moves declared
  | permitted moves leaf held permits =>
    rw [judge_leaf compiled moves leaf, if_pos]
    exact (canReach_iff compiled).mpr ⟨leaf, _, held, permits⟩
  | blocked moves leaf refused =>
    rw [judge_leaf compiled moves leaf, if_neg]
    intro reach
    obtain ⟨-, source, held, permits⟩ := (canReach_iff compiled).mp reach
    exact refused source held permits

variable {name : String} {initial : StateName} {events : List String} {options : Options}

-- A strict request gives an answer exactly if the declaration says so, for every host and every target.
theorem changeStrict_decides
    (compiled : Attribute.compile name initial events options states = .ok machine.subject)
    (now : Instant) (target : StateName) (host : H) (answer : Except Refusal Bool) :
    (machine.changeStrict now target host).value = answer ↔
      Verdict name states ((Stateful.values host).get name) target answer := by
  have origin := Attribute.compiled_from compiled
  have own : machine.subject.name = name := by
    obtain ⟨-, same⟩ := Attribute.compile_ok.mp compiled
    rw [same]
  have current : (Stateful.values host).get name = machine.current host := by rw [Machine.current, own]
  rw [changeStrict_value, current, ← own]
  constructor
  · intro same
    rw [← same]
    exact judge_verdict origin host target
  · exact verdict_judge origin

-- At its second reading a document may go back to the first: the review that it lies in is one of its
-- targets.
theorem document_reopened :
    Attribute.compile "state" "draft" [] {} Attribute.documentStates = .ok .document ∧
      ((⟨.document, []⟩ : Machine Values).changeStrict default "first"
        (Values.empty.set "state" (some "second"))).value = .ok true := by
  have compiled : Attribute.compile "state" "draft" [] {} Attribute.documentStates =
      .ok (⟨.document, []⟩ : Machine Values).subject := rfl
  refine ⟨compiled, (changeStrict_decides compiled _ _ _ _).mpr ?_⟩
  have within : Attribute.documentStates.Within "first" "review" := .inr ⟨_, .tail _ (.head _), by decide⟩
  have permits : Attribute.documentStates.Permits "second" "first" :=
    ⟨.many ["published", "review"], by decide, "review", by decide, within⟩
  exact .permitted (by decide) (by decide) rfl permits

end Machine
end StateAttributes
