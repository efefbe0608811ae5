import StateAttributes.Inclusion
import StateAttributes.Proofs.Registration

namespace StateAttributes

namespace Attribute

variable {attr : Attribute} {records : List Transition} {value source target : StateName}

def Leads (attr : Attribute) (source target : StateName) : Prop :=
  ∃ state names, attr.state? source = some state ∧ state.transitions = .ok names ∧ target ∈ names

-- The sources, with the present value behind them, are the targets with the default before them: every
-- step starts where the one before it ended.
structure Walk (attr : Attribute) (records : List Transition) (value : StateName) : Prop where
  chain : records.map (·.source) ++ [some value] = some attr.initial :: records.map (some ·.target)
  steps : ∀ record ∈ records, ∃ source,
    record.source = some source ∧ source ≠ record.target ∧ attr.Leads source record.target

theorem Walk.start : attr.Walk [] attr.initial := ⟨rfl, by simp⟩

theorem Walk.extend {record : Transition} (walk : attr.Walk records value) (held : record.source = some value)
    (moves : value ≠ record.target) (leads : attr.Leads value record.target) :
    attr.Walk (records ++ [record]) record.target := by
  constructor
  · simp only [List.map_append, List.map_cons, List.map_nil, held, walk.chain, List.cons_append]
  · intro other member
    rcases List.mem_append.mp member with old | new
    · exact walk.steps other old
    · rw [List.mem_singleton.mp new]
      exact ⟨value, held, moves, leads⟩

theorem Walk.path {history : History} (walk : attr.Walk (history.forAttribute attr.name) value)
    (moved : history.forAttribute attr.name ≠ []) :
    history.path attr.name = attr.initial :: (history.forAttribute attr.name).map (·.target) := by
  obtain ⟨first, rest, records⟩ := List.exists_cons_of_ne_nil moved
  have chain := walk.chain
  rw [records, List.map_cons, List.cons_append] at chain
  have source : first.source = some attr.initial := (List.cons.inj chain).1
  simp [History.path, records, source]

theorem isLeaf_state (attr : Attribute) (name : StateName) :
    attr.isLeaf name = (attr.state? name).any State.isLeaf := by
  rw [isLeaf, Table.isLeaf, Table.node?, state?]
  cases attr.table.find? name with
  | none => rfl
  | some id =>
    rw [Option.bind_some, Option.bind_some, stateAt?]
    cases attr.table.nodes[id]? <;> rfl

theorem CompiledFrom.any_isLeaf {states : Forest} (compiled : attr.CompiledFrom states) (name : StateName) :
    (attr.state? name).any State.isLeaf ↔ name ∈ states.leafNames := by
  rw [← isLeaf_state, compiled.isLeaf_iff]

theorem reach_leads (reach : (attr.state? source).any (·.canReach target)) : attr.Leads source target := by
  cases found : attr.state? source with
  | none => simp [found] at reach
  | some state =>
    rw [found, Option.any_some, State.canReach] at reach
    cases answer : state.transitions with
    | error refusal => simp [answer] at reach
    | ok names => exact ⟨state, names, found, answer, by simpa [answer] using reach⟩

def OnCourse (attr : Attribute) (values : Values) : Prop :=
  ∃ value, values.get attr.name = some value ∧ attr.isLeaf value ∧
    attr.Walk (values.history.forAttribute attr.name) value

end Attribute

namespace History

theorem forAttribute_own {history : History} {record : Transition} (own : record.attributeName = name) :
    (history.record record).forAttribute name = history.forAttribute name ++ [record] := by
  simp [History.record, forAttribute, own]

theorem forAttribute_other {history : History} {record : Transition} (foreign : record.attributeName ≠ name) :
    (history.record record).forAttribute name = history.forAttribute name := by
  simp [History.record, forAttribute, foreign]

end History

namespace Machine

variable {H : Type} [Stateful H] {machine : Machine H} {host : H} {target : StateName}

theorem judge_granted (granted : machine.judge host target = .ok true) :
    machine.current host ≠ some target ∧ machine.subject.isLeaf target ∧ machine.canReach host target := by
  unfold judge at granted
  split at granted
  · cases granted
  · rename_i moves
    split at granted
    · cases granted
    · rename_i goal found
      split at granted
      · cases granted
      · rename_i leaf
        split at granted
        · rename_i reach
          refine ⟨moves, ?_, reach⟩
          rw [Attribute.isLeaf_state, found]
          simpa [State.isGroup, State.isLeaf] using leaf
        · cases granted

theorem judge_leads (granted : machine.judge host target = .ok true) :
    ∃ source, machine.current host = some source ∧ source ≠ target ∧ machine.subject.Leads source target := by
  obtain ⟨moves, -, reach⟩ := judge_granted granted
  rw [canReach, state?] at reach
  cases held : machine.current host with
  | none => simp [held] at reach
  | some source =>
    rw [held] at moves reach
    exact ⟨source, rfl, fun same => moves (congrArg some same), Attribute.reach_leads reach⟩

def step (machine : Machine H) (now : Instant) (target : StateName) (host : H) : Transition :=
  ⟨machine.subject.name, machine.current host, target, now⟩

def stored (machine : Machine H) (now : Instant) (target : StateName) (host : H) : H :=
  Stateful.setValues host
    (((Stateful.values host).set machine.subject.name (some target)).record (machine.step now target host))

end Machine

namespace Registry

variable {H : Type} {registry : Registry H} {values : Values}

def OnCourse (registry : Registry H) (values : Values) : Prop :=
  ∀ attr ∈ registry.attributes, attr.OnCourse values

theorem newValues_onCourse (sound : registry.Sound) : registry.OnCourse registry.newValues := by
  intro attr member
  obtain ⟨states, compiled⟩ := sound.compiled attr member
  exact ⟨attr.initial, sound.newValues_get member, (compiled.isLeaf_iff _).mpr compiled.well.initial_leaf, .start⟩

theorem commit_onCourse (course : registry.OnCourse values) : registry.OnCourse values.commit := course

theorem stored_onCourse [Stateful H] {machine : Machine H} {host : H} (sound : registry.Sound)
    (member : machine.subject ∈ registry.attributes) (granted : machine.judge host target = .ok true)
    (course : registry.OnCourse (Stateful.values host)) :
    registry.OnCourse (((Stateful.values host).set machine.subject.name (some target)).record
      (machine.step now target host)) := by
  intro attr other
  obtain ⟨value, held, leaf, walk⟩ := course attr other
  -- No two attributes share a name, so neither the slot nor the record can be taken for that of another.
  by_cases own : attr.name = machine.subject.name
  · obtain rfl := sound.same_name other member own
    obtain ⟨-, goal, -⟩ := Machine.judge_granted granted
    obtain ⟨source, current, moves, leads⟩ := Machine.judge_leads granted
    have same : source = value := Option.some.inj (current.symm.trans held)
    subst same
    refine ⟨target, Slots.get_insert_self _ _ _, goal, ?_⟩
    rw [show ((Values.set _ _ _).record _).history = History.record _ _ from rfl,
      History.forAttribute_own (by rfl)]
    exact walk.extend current moves leads
  · refine ⟨value, ?_, leaf, ?_⟩
    · exact (Slots.get_insert_other _ _ own).trans held
    · rw [show ((Values.set _ _ _).record _).history = History.record _ _ from rfl,
        History.forAttribute_other (Ne.symm own)]
      exact walk

-- What a maintainer reads off a host in any state that it can get into.
structure InOrder [Stateful H] (registry : Registry H) (host : H) : Prop where
  course : ∀ attr ∈ registry.attributes, ∃ value,
    (Stateful.values host).get attr.name = some value ∧ attr.isLeaf value ∧
      attr.Walk ((Stateful.values host).history.forAttribute attr.name) value
  path : ∀ attr ∈ registry.attributes, (Stateful.values host).history.forAttribute attr.name ≠ [] →
    (Stateful.values host).history.path attr.name =
      attr.initial :: ((Stateful.values host).history.forAttribute attr.name).map (·.target)
  valid : ∀ attr ∈ registry.attributes, (registry.machineOf attr).isValid host
  included : registry.validate host = []

theorem onCourse_inOrder [Stateful H] {host : H} (sound : registry.Sound)
    (course : registry.OnCourse (Stateful.values host)) : registry.InOrder host := by
  constructor
  case course => exact course
  case path =>
    intro attr member moved
    obtain ⟨value, -, -, walk⟩ := course attr member
    exact walk.path moved
  case valid =>
    intro attr member
    obtain ⟨value, held, leaf, -⟩ := course attr member
    rw [Attribute.isLeaf_state] at leaf
    have current : (registry.machineOf attr).current host = some value := held
    rw [Machine.isValid, Machine.state?, current, Option.bind_some]
    exact leaf
  case included =>
    refine validate_nil.mpr fun attr member => ?_
    obtain ⟨value, held, leaf, -⟩ := course attr member
    obtain ⟨states, compiled⟩ := sound.compiled attr member
    have listed : value ∈ attr.values := by
      rw [compiled.values_eq]
      exact (compiled.isLeaf_iff value).mp leaf
    rw [held]
    exact Attribute.inclusion?_leaf listed

end Registry
end StateAttributes
