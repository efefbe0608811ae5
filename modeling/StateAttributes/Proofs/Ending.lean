import Mathlib.Data.List.Sort
import StateAttributes.Proofs.Callout

namespace StateAttributes

-- The values are one field of the host: what is stored there is read there, and nothing else is touched.
class FieldStateful (H : Type) [Stateful H] : Prop extends LawfulStateful H where
  setValues_values : ∀ host : H, Stateful.setValues host (Stateful.values host) = host
  setValues_setValues : ∀ (host : H) (first second : Values),
    Stateful.setValues (Stateful.setValues host first) second = Stateful.setValues host second

instance : FieldStateful Values where
  setValues_values _ := rfl
  setValues_setValues _ _ _ := rfl

namespace Slots

theorem mem_entries (slots : Slots) (key : String) (value : Option StateName) :
    (key, value) ∈ slots.entries ↔ slots.lookup key = some value := by
  constructor
  · intro member
    refine lookup_of_mem ?_ member
    exact (List.pairwise_map.mpr slots.ascending).imp fun before => String.ne_of_lt before
  · intro found
    obtain ⟨before, after, split, -⟩ := List.lookup_eq_some_iff.mp found
    rw [split]
    simp

-- The order of the keys leaves no choice.
theorem eq_of_lookup {one other : Slots} (same : ∀ key, one.lookup key = other.lookup key) : one = other := by
  have antisymm : Std.Antisymm fun a b : String × Option StateName => a.1 < b.1 :=
    ⟨fun a b before after => absurd after (String.lt_asymm before)⟩
  have irrefl : Std.Irrefl fun a b : String × Option StateName => a.1 < b.1 :=
    ⟨fun a => String.lt_irrefl a.1⟩
  refine eq_of_entries (one.ascending.eq_of_mem_iff other.ascending fun entry => ?_)
  obtain ⟨key, value⟩ := entry
  rw [one.mem_entries, other.mem_entries, same]

theorem lookup_insert_self (slots : Slots) (key : String) (value : Option StateName) :
    (slots.insert key value).lookup key = some value := lookup_insertEntry_self

theorem lookup_insert_other (slots : Slots) (value : Option StateName) (different : other ≠ key) :
    (slots.insert key value).lookup other = slots.lookup other := lookup_insertEntry_other different

end Slots

theorem Values.eq_of_parts {one other : Values} (current : one.current = other.current)
    (committed : one.committed = other.committed)
    (history : one.history.transitions = other.history.transitions) : one = other := by
  obtain ⟨_, _, ⟨_⟩⟩ := one
  obtain ⟨_, _, ⟨_⟩⟩ := other
  cases current
  cases committed
  cases history
  rfl

-- The host after the move and before anything else has run: one slot is set and one record is appended.
structure Machine.Moved [Stateful H] (machine : Machine H) (now : Instant) (target : StateName)
    (before after : H) : Prop where
  slot : (Stateful.values after).current.lookup machine.subject.name = some (some target)
  others : ∀ name, name ≠ machine.subject.name →
    (Stateful.values after).current.lookup name = (Stateful.values before).current.lookup name
  committed : (Stateful.values after).committed = (Stateful.values before).committed
  history : (Stateful.values after).history.transitions = (Stateful.values before).history.transitions ++
    [⟨machine.subject.name, (Stateful.values before).get machine.subject.name, target, now⟩]
  beside : ∀ values, Stateful.setValues after values = Stateful.setValues before values

namespace Machine

variable {H α : Type} [Stateful H] [FieldStateful H] {machine : Machine H} {now : Instant} {target : StateName}
  {host : H}

theorem stored_moved (machine : Machine H) (now : Instant) (target : StateName) (host : H) :
    machine.Moved now target host (machine.stored now target host) := by
  have values : Stateful.values (machine.stored now target host) =
      ((Stateful.values host).set machine.subject.name (some target)).record (machine.step now target host) :=
    LawfulStateful.values_setValues _ _
  constructor
  case slot =>
    rw [values]
    exact Slots.lookup_insert_self _ _ _
  case others =>
    intro name different
    rw [values]
    exact Slots.lookup_insert_other _ _ different
  case committed =>
    rw [values]
    rfl
  case history =>
    rw [values]
    rfl
  case beside =>
    intro later
    exact FieldStateful.setValues_setValues _ _ _

-- Nothing about the host is left open.
theorem Moved.unique {one other : H} (first : machine.Moved now target host one)
    (second : machine.Moved now target host other) : one = other := by
  have current : (Stateful.values one).current = (Stateful.values other).current := by
    refine Slots.eq_of_lookup fun name => ?_
    by_cases own : name = machine.subject.name
    · rw [own, first.slot, second.slot]
    · rw [first.others name own, second.others name own]
  have values : Stateful.values one = Stateful.values other :=
    Values.eq_of_parts current (first.committed.trans second.committed.symm)
      (first.history.trans second.history.symm)
  calc
    one = Stateful.setValues one (Stateful.values one) := (FieldStateful.setValues_values one).symm
    _ = Stateful.setValues host (Stateful.values other) := by rw [first.beside, values]
    _ = other := by rw [← second.beside, FieldStateful.setValues_values]

end Machine

-- The observers hear of one record, each once and in order, on the host that the one before has left.
inductive Told (transition : Transition) : Nat → List (Observer H) → H → List (Callout H) → H → Prop where
  | done : Told transition position [] host [] host
  | next (rest : Told transition (position + 1) observers (observer transition host).host calls last) :
      Told transition position (observer :: observers) host (.observer position transition host :: calls) last

theorem notifyAll_told (transition : Transition) (position : Nat) (observers : List (Observer H)) (host : H) :
    Told transition position observers host (tellFrom transition position observers host)
      (notifyAll transition position observers host).host := by
  induction observers generalizing position host with
  | nil => exact .done
  | cons observer rest ih => exact .next (ih (position + 1) _)

inductive Way where
  | kept
  | failed
  | carried

-- The ways in which a request ends, each with the answer, the host that is left, and the code that ran.
inductive Machine.Ends [Stateful H] (machine : Machine H) (now : Instant) (target : StateName) (host : H)
    (call : Call H α) : Way → α → H → List (Callout H) → Prop where
  | same (stays : machine.current host = some target) :
      Ends machine now target host call .kept (call.answer false) host []
  | refused (refused : machine.judge host target = .error refusal) :
      Ends machine now target host call .kept (call.refuse refusal) host []
  | failed (granted : machine.judge host target = .ok true) (leaf : machine.subject.isLeaf target)
      (moved : machine.Moved now target host after) (fails : (call.effect after).value = some answer) :
      Ends machine now target host call .failed answer (call.effect after).host (call.effectOn after)
  | carried (granted : machine.judge host target = .ok true) (leaf : machine.subject.isLeaf target)
      (moved : machine.Moved now target host after) (goes : (call.effect after).value = none)
      (told : Told (machine.step now target host) 0 machine.observers (call.effect after).host calls last) :
      Ends machine now target host call .carried (call.answer true) last (call.effectOn after ++ calls)

namespace Machine

variable {H α : Type} [Stateful H] [FieldStateful H] {machine : Machine H} {now : Instant} {target : StateName}
  {host : H} {call : Call H α}

def wayOf (machine : Machine H) (now : Instant) (target : StateName) (call : Call H α) (host : H) : Way :=
  match machine.judge host target with
  | .error _ => .kept
  | .ok false => .kept
  | .ok true => if (call.effect (machine.stored now target host)).value.isSome then .failed else .carried

theorem Ends.way_eq (ends : machine.Ends now target host call way answer last calls) :
    way = machine.wayOf now target call host := by
  cases ends with
  | same stays => simp [wayOf, judge_same stays]
  | refused refused => simp [wayOf, refused]
  | failed granted _ moved fails =>
    rw [moved.unique (machine.stored_moved now target host)] at fails
    simp [wayOf, granted, fails]
  | carried granted _ moved goes _ =>
    rw [moved.unique (machine.stored_moved now target host)] at goes
    simp [wayOf, granted, goes]

theorem ends_wayOf (machine : Machine H) (now : Instant) (target : StateName) (call : Call H α) (host : H) :
    machine.Ends now target host call (machine.wayOf now target call host)
      (machine.perform now target call host).value (machine.perform now target call host).host
      (machine.callouts now target call host) := by
  have moved := machine.stored_moved now target host
  cases judged : machine.judge host target with
  | error refusal =>
    rw [wayOf, judged, callouts, watched_refused judged, perform_refused judged]
    exact .refused judged
  | ok moves =>
    cases moves with
    | false =>
      rw [wayOf, judged, callouts, watched_kept judged, perform_kept judged]
      exact .same (judge_stays judged)
    | true =>
      obtain ⟨-, leaf, -⟩ := judge_granted judged
      cases result : (call.effect (machine.stored now target host)).value with
      | some answer =>
        rw [wayOf, judged, callouts, watched_failed judged call result, perform_failed judged call result, result]
        exact .failed judged leaf moved result
      | none =>
        rw [wayOf, judged, callouts, watched_carried judged call result, perform_carried judged call result, result]
        exact .carried judged leaf moved result (notifyAll_told _ _ _ _)

-- Every request, on every host, ends in exactly one of the ways, and what it runs is told as it happens.
theorem perform_ends (machine : Machine H) (now : Instant) (target : StateName) (call : Call H α) (host : H) :
    machine.watched.perform now target call.watched ⟨host, []⟩ =
        ⟨(machine.perform now target call host).value,
          ⟨(machine.perform now target call host).host, machine.callouts now target call host⟩,
          (machine.perform now target call host).events⟩ ∧
      ∃! way, machine.Ends now target host call way (machine.perform now target call host).value
        (machine.perform now target call host).host (machine.callouts now target call host) := by
  refine ⟨machine.perform_watched now target call host, machine.wayOf now target call host,
    machine.ends_wayOf now target call host, ?_⟩
  intro way ends
  exact ends.way_eq

-- A document that has been read twice, beside a slot that is empty, before it is filed as published.
def readTwice : Values := ((Values.empty.set "binding" none).commit).set "state" (some "second")

theorem filing_ends : ∃ after : Values,
    (Registry.readingRoom.machineOf .document).Moved default "published" readTwice after ∧
      (Registry.readingRoom.machineOf .document).Ends default "published" readTwice (.changeWith Registry.file)
        .failed (.error "the archive is full") after [.effect after] := by
  have permits : Attribute.documentStates.Permits "second" "published" :=
    ⟨.many ["published", "review"], by decide, "published", by decide, .inl rfl⟩
  have granted : (Registry.readingRoom.machineOf .document).judge readTwice "published" = .ok true :=
    Registry.document_granted rfl rfl (by decide) (by decide) permits
  obtain ⟨-, way, ends, -⟩ := perform_ends (Registry.readingRoom.machineOf .document) default "published"
    (.changeWith Registry.file) readTwice
  have failed : way = .failed := by
    rw [ends.way_eq, wayOf, granted]
    rfl
  have full : ((Call.changeWith Registry.file).effect
      ((Registry.readingRoom.machineOf .document).stored default "published" readTwice)).value =
        some (.error "the archive is full") := rfl
  rw [failed, perform_failed granted _ full, callouts, watched_failed granted _ full] at ends
  exact ⟨_, stored_moved _ _ _ _, ends⟩

end Machine
end StateAttributes
