import StateAttributes.Proofs.Call

namespace StateAttributes

-- A direct call of a callback. What the callback calls in turn is its own affair.
structure HookCall (H : Type) where
  place : Nat
  context : HookContext
  found : H

structure Attended (H : Type) where
  host : H
  calls : List (HookCall H)

instance [Stateful H] : Stateful (Attended H) :=
  ⟨fun attended => Stateful.values attended.host,
    fun attended values => { attended with host := Stateful.setValues attended.host values }⟩

def Callback.attended (place : Nat) (callback : Callback H) : Callback (Attended H) := fun context attended =>
  ⟨(callback context attended.host).value,
    ⟨(callback context attended.host).host, attended.calls ++ [⟨place, context, attended.host⟩]⟩,
    (callback context attended.host).events⟩

namespace Registry

variable {H : Type} {registry : Registry H} {hook : LifecycleHook}

-- No round calls an observer, and none is carried over.
def attended (registry : Registry H) : Registry (Attended H) :=
  ⟨registry.attributes, [], registry.callbacks.zipIdx.map fun entry => (entry.1.1, entry.1.2.attended entry.2)⟩

-- The callbacks of a hook, each with its place.
def entriesOf (registry : Registry H) (hook : LifecycleHook) : List ((LifecycleHook × Callback H) × Nat) :=
  registry.callbacks.zipIdx.filter (·.1.1 = hook)

-- What one change is worth: it is brought before every callback of the hook, in the order of registration.
def dueFor (registry : Registry H) (context : HookContext) : List (Nat × HookContext) :=
  (registry.entriesOf context.hook).map fun entry => (entry.2, context)

-- What a hook owes to a host with these values. The attributes take their turns as they were registered.
def dueCalls (registry : Registry H) (hook : LifecycleHook) (values : Values) : List (Nat × HookContext) :=
  registry.attributes.flatMap fun attr =>
    match values.changes? attr.name with
    | none => []
    | some (old, new) => registry.dueFor ⟨attr.name, hook, old, new⟩

-- The calls of a list, one after the other, each on the host that the one before it has left.
inductive Round (registry : Registry H) : List (Nat × HookContext) → H → List (HookCall H) → H → Prop where
  | done : Round registry [] host [] host
  | call {callback : Callback H} (registered : registry.callbacks[place]? = some (context.hook, callback))
      (others : Round registry due (callback context host).host calls left) :
      Round registry ((place, context) :: due) host (⟨place, context, host⟩ :: calls) left

variable {due more : List (Nat × HookContext)} {host middle left : H} {context : HookContext} {place : Nat}

theorem Round.append (first : registry.Round due host calls middle)
    (later : registry.Round more middle others left) : registry.Round (due ++ more) host (calls ++ others) left := by
  induction first with
  | done => exact later
  | call registered _ ih => exact .call registered (ih later)

theorem Round.listed (round : registry.Round due host calls left) :
    calls.map (fun call => (call.place, call.context)) = due := by
  induction round with
  | done => rfl
  | call _ _ ih => rw [List.map_cons, ih]

-- The noted act goes as the plain one does, and adds to the list a round of the calls that are due.
def Attends (registry : Registry H) (due : List (Nat × HookContext)) (act : Act H α) (noted : Act (Attended H) α) :
    Prop :=
  ∀ host before, ∃ calls, registry.Round due host calls (act host).host ∧
    noted ⟨host, before⟩ = ⟨(act host).value, ⟨(act host).host, before ++ calls⟩, (act host).events⟩

namespace Attends

theorem pure (value : α) : registry.Attends [] (Pure.pure value) (Pure.pure value) :=
  fun host before => ⟨[], .done, by simp⟩

theorem emit (event : Event) : registry.Attends [] (Act.emit event) (Act.emit event) :=
  fun host before => ⟨[], .done, by simp⟩

-- What comes later may depend on the answer, but what is due later may not.
theorem bind {act : Act H α} {noted : Act (Attended H) α} {next : α → Act H β} {notedNext : α → Act (Attended H) β}
    (first : registry.Attends due act noted)
    (later : ∀ value, registry.Attends more (next value) (notedNext value)) :
    registry.Attends (due ++ more) (act >>= next) (noted >>= notedNext) := by
  intro host before
  obtain ⟨calls, round, goes⟩ := first host before
  obtain ⟨others, rest, last⟩ := later (act host).value (act host).host (before ++ calls)
  refine ⟨calls ++ others, round.append rest, ?_⟩
  rw [Act.bind_run, goes, last, List.append_assoc]
  rfl

theorem callback {callback : Callback H} (registered : registry.callbacks[place]? = some (context.hook, callback)) :
    registry.Attends [(place, context)] (callback context) (callback.attended place context) :=
  fun host _ => ⟨[⟨place, context, host⟩], .call registered .done, rfl⟩

end Attends

theorem mem_entriesOf {entry : (LifecycleHook × Callback H) × Nat} :
    entry ∈ registry.entriesOf hook ↔ registry.callbacks[entry.2]? = some entry.1 ∧ entry.1.1 = hook := by
  simp [entriesOf, List.mem_zipIdx_iff_getElem?]

theorem entriesOf_registered :
    ∀ entry ∈ registry.entriesOf hook, registry.callbacks[entry.2]? = some (hook, entry.1.2) := by
  intro entry member
  obtain ⟨stands, rfl⟩ := mem_entriesOf.mp member
  exact stands

theorem callbacksOf_entries (registry : Registry H) (hook : LifecycleHook) :
    registry.callbacksOf hook = (registry.entriesOf hook).map (·.1.2) := by
  have listed : registry.callbacks.zipIdx.map (·.1) = registry.callbacks := by simp
  rw [callbacksOf, entriesOf, ← listed, List.filter_map, List.map_map, listed]
  rfl

theorem callbacksOf_attended (registry : Registry H) (hook : LifecycleHook) :
    registry.attended.callbacksOf hook = (registry.entriesOf hook).map fun entry => entry.1.2.attended entry.2 := by
  rw [callbacksOf, entriesOf, attended, List.filter_map, List.map_map]
  rfl

theorem runEntries_attends {entries : List ((LifecycleHook × Callback H) × Nat)}
    (registered : ∀ entry ∈ entries, registry.callbacks[entry.2]? = some (context.hook, entry.1.2)) :
    registry.Attends (entries.map fun entry => (entry.2, context))
      (runCallbacks context (entries.map (·.1.2)))
      (runCallbacks context (entries.map fun entry => entry.1.2.attended entry.2)) := by
  induction entries with
  | nil => exact .pure false
  | cons entry rest ih =>
    obtain ⟨own, others⟩ := List.forall_mem_cons.mp registered
    have later := (ih others).bind fun _ => Attends.pure true
    rw [List.append_nil] at later
    exact (Attends.callback own).bind fun _ => later

theorem runCallbacks_attends (registry : Registry H) (context : HookContext) :
    registry.Attends (registry.dueFor context) (runCallbacks context (registry.callbacksOf context.hook))
      (runCallbacks context (registry.attended.callbacksOf context.hook)) := by
  rw [callbacksOf_entries, callbacksOf_attended]
  exact runEntries_attends entriesOf_registered

theorem process_attends {name : String} {old new : Option StateName} (differ : old ≠ new)
    (known : registry.spec? name ≠ none) :
    registry.Attends (registry.dueFor ⟨name, hook, old, new⟩) (registry.process name hook old new)
      (registry.attended.process name hook old new) := by
  have notedKnown : registry.attended.spec? name ≠ none := known
  rw [process_due differ known, process_due differ notedKnown, ← List.append_nil (registry.dueFor _)]
  refine (runCallbacks_attends registry ⟨name, hook, old, new⟩).bind fun ran => ?_
  cases ran with
  | true => exact (Attends.emit _).bind fun _ => .pure true
  | false => exact .pure false

-- By induction on the changes. What a callback does to the host is not looked at: the list of changes stands, and
-- each of them goes on from whatever host the round has come to.
theorem processAll_attends {changes : List (String × Option StateName × Option StateName)}
    (due : ∀ change ∈ changes, change.2.1 ≠ change.2.2 ∧ registry.spec? change.1 ≠ none) :
    registry.Attends (changes.flatMap fun change => registry.dueFor ⟨change.1, hook, change.2.1, change.2.2⟩)
      (registry.processAll hook changes) (registry.attended.processAll hook changes) := by
  induction changes with
  | nil => exact .pure 0
  | cons change rest ih =>
    obtain ⟨⟨differ, known⟩, others⟩ := List.forall_mem_cons.mp due
    have later (ran : Bool) := (ih others).bind fun more => Attends.pure ((if ran then 1 else 0) + more)
    simp only [List.append_nil] at later
    exact (process_attends differ known).bind later

theorem pending_calls (registry : Registry H) (hook : LifecycleHook) (values : Values) :
    ((registry.pendingChanges values).flatMap fun change =>
      registry.dueFor ⟨change.1, hook, change.2.1, change.2.2⟩) = registry.dueCalls hook values := by
  rw [pendingChanges, dueCalls]
  induction registry.attributes with
  | nil => rfl
  | cons attr rest ih =>
    rw [List.flatMap_cons, ← ih, List.filterMap_cons]
    cases values.changes? attr.name with
    | none => rfl
    | some change => rfl

theorem processChanges_run [Stateful H] (registry : Registry H) (hook : LifecycleHook) (host : H) :
    registry.processChanges hook host =
      registry.processAll hook (registry.pendingChanges (Stateful.values host)) host := rfl

theorem processChanges_attends [Stateful H] (registry : Registry H) (hook : LifecycleHook) (host : H) :
    ∃ calls, registry.Round (registry.dueCalls hook (Stateful.values host)) host calls
        (registry.processChanges hook host).host ∧
      registry.attended.processChanges hook ⟨host, []⟩ =
        ⟨(registry.processChanges hook host).value, ⟨(registry.processChanges hook host).host, calls⟩,
          (registry.processChanges hook host).events⟩ := by
  have attends : registry.Attends (registry.dueCalls hook (Stateful.values host))
      (registry.processAll hook (registry.pendingChanges (Stateful.values host)))
      (registry.attended.processAll hook (registry.pendingChanges (Stateful.values host))) := by
    rw [← pending_calls]
    exact processAll_attends pending_due
  exact attends host []

theorem mem_dueFor {told : HookContext} :
    (place, context) ∈ registry.dueFor told ↔
      context = told ∧ ∃ callback, registry.callbacks[place]? = some (told.hook, callback) := by
  simp only [dueFor, List.mem_map, Prod.mk.injEq]
  constructor
  · rintro ⟨entry, member, rfl, rfl⟩
    exact ⟨rfl, _, entriesOf_registered entry member⟩
  · rintro ⟨rfl, callback, stands⟩
    exact ⟨((context.hook, callback), place), mem_entriesOf.mpr ⟨stands, rfl⟩, rfl, rfl⟩

theorem mem_dueCalls {values : Values} :
    (place, context) ∈ registry.dueCalls hook values ↔
      context.hook = hook ∧ (∃ callback, registry.callbacks[place]? = some (hook, callback)) ∧
        ∃ attr ∈ registry.attributes, attr.name = context.attributeName ∧
          values.changes? attr.name = some (context.source, context.target) := by
  simp only [dueCalls, List.mem_flatMap]
  constructor
  · rintro ⟨attr, registered, due⟩
    cases changed : values.changes? attr.name with
    | none =>
      rw [changed] at due
      cases due
    | some change =>
      rw [changed] at due
      obtain ⟨rfl, stands⟩ := mem_dueFor.mp due
      exact ⟨rfl, stands, attr, registered, rfl, changed⟩
  · rintro ⟨rfl, stands, attr, registered, named, changed⟩
    refine ⟨attr, registered, ?_⟩
    rw [changed]
    exact mem_dueFor.mpr ⟨by rw [named], stands⟩

theorem callbacksOf_none :
    registry.callbacksOf hook = [] ↔ ∀ entry ∈ registry.callbacks, entry.1 ≠ hook := by
  simp [callbacksOf, List.filter_eq_nil_iff]

theorem process_idle (idle : registry.callbacksOf hook = []) (name : String) (old new : Option StateName) (host : H) :
    registry.process name hook old new host = ⟨false, host, []⟩ := by
  rw [process, idle]
  split <;> rfl

theorem processAll_idle (idle : registry.callbacksOf hook = [])
    (changes : List (String × Option StateName × Option StateName)) (host : H) :
    registry.processAll hook changes host = ⟨0, host, []⟩ := by
  induction changes with
  | nil => rfl
  | cons change rest ih => simp [processAll, process_idle idle, ih]

theorem process_value {name : String} {old new : Option StateName} (busy : registry.callbacksOf hook ≠ [])
    (differ : old ≠ new) (known : registry.spec? name ≠ none) (host : H) :
    (registry.process name hook old new host).value = true := by
  rw [process_due differ known]
  cases listed : registry.callbacksOf hook with
  | nil => exact absurd listed busy
  | cons callback rest => rfl

theorem processAll_value {changes : List (String × Option StateName × Option StateName)}
    (busy : registry.callbacksOf hook ≠ [])
    (due : ∀ change ∈ changes, change.2.1 ≠ change.2.2 ∧ registry.spec? change.1 ≠ none) (host : H) :
    (registry.processAll hook changes host).value = changes.length := by
  induction changes generalizing host with
  | nil => rfl
  | cons change rest ih =>
    obtain ⟨⟨differ, known⟩, others⟩ := List.forall_mem_cons.mp due
    simp only [processAll, Act.bind_run, Act.pure_run, process_value busy differ known, ih others, List.length_cons,
      if_pos, Nat.add_comm]

theorem pending_length (registry : Registry H) (values : Values) :
    (registry.pendingChanges values).length =
      registry.attributes.countP fun attr => (values.changes? attr.name).isSome := by
  simp [pendingChanges, List.length_filterMap_eq_countP]

-- The direct calls of a round, in order.
def calls [Stateful H] (registry : Registry H) (hook : LifecycleHook) (host : H) : List (HookCall H) :=
  (registry.attended.processChanges hook ⟨host, []⟩).host.calls

-- A round as it follows from the values at its start. The list is kept beside it and does not enter into it.
structure Serves [Stateful H] (registry : Registry H) (hook : LifecycleHook) (host : H) : Prop where
  beside : registry.attended.processChanges hook ⟨host, []⟩ =
    ⟨(registry.processChanges hook host).value,
      ⟨(registry.processChanges hook host).host, registry.calls hook host⟩,
      (registry.processChanges hook host).events⟩
  listed : (registry.calls hook host).map (fun call => (call.place, call.context)) =
    registry.dueCalls hook (Stateful.values host)
  round : registry.Round (registry.dueCalls hook (Stateful.values host)) host (registry.calls hook host)
    (registry.processChanges hook host).host
  called : ∀ place context, (∃ call ∈ registry.calls hook host, call.place = place ∧ call.context = context) ↔
    context.hook = hook ∧ (∃ callback, registry.callbacks[place]? = some (hook, callback)) ∧
      ∃ attr ∈ registry.attributes, attr.name = context.attributeName ∧
        (Stateful.values host).changes? attr.name = some (context.source, context.target)
  answer : (∃ entry ∈ registry.callbacks, entry.1 = hook) →
    (registry.processChanges hook host).value =
      registry.attributes.countP fun attr => ((Stateful.values host).changes? attr.name).isSome
  idle : (∀ entry ∈ registry.callbacks, entry.1 ≠ hook) → registry.processChanges hook host = ⟨0, host, []⟩

-- Whatever the callbacks do to the host, they cannot keep a later call from being made, add one, or alter what
-- it is told.
theorem processChanges_serves [Stateful H] (registry : Registry H) (hook : LifecycleHook) (host : H) :
    registry.Serves hook host := by
  obtain ⟨calls, round, goes⟩ := registry.processChanges_attends hook host
  have own : registry.calls hook host = calls := by rw [Registry.calls, goes]
  rw [← own] at round goes
  constructor
  case beside => exact goes
  case listed => exact round.listed
  case round => exact round
  case called =>
    intro place context
    rw [← mem_dueCalls, ← round.listed, List.mem_map]
    simp only [Prod.mk.injEq]
  case answer =>
    intro listed
    obtain ⟨entry, member, same⟩ := listed
    have busy : registry.callbacksOf hook ≠ [] := fun none => callbacksOf_none.mp none entry member same
    rw [processChanges_run, processAll_value busy pending_due, pending_length]
  case idle =>
    intro unlisted
    rw [processChanges_run, processAll_idle (callbacksOf_none.mpr unlisted)]

-- A callback that commits at once leaves nothing changed, and takes no call from those behind it.
example :
    let commits : Callback Values := fun _ values => ⟨(), values.commit, []⟩
    let registry : Registry Values := ⟨[.document, { Attribute.document with name := "copy" }], [],
      [(.beforeSave, commits), (.afterSave, commits), (.beforeSave, commits)]⟩
    (registry.calls .beforeSave registry.newValues).map (fun call => (call.place, call.context.attributeName)) =
        [(0, "state"), (2, "state"), (0, "copy"), (2, "copy")] ∧
      (registry.calls .beforeSave registry.newValues).map (fun call => call.found.changedAttributes) =
        [["copy", "state"], [], [], []] := by
  decide +kernel

end Registry
end StateAttributes
