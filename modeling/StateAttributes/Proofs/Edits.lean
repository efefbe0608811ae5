import StateAttributes.Proofs.Ending

namespace StateAttributes

-- What is done to one attribute from outside, or to the whole host, with the answer that it gives.
inductive Deed (H : Type) : Type 1 where
  | request (attr : Attribute) (ask : Ask H)
  | set (attr : Attribute) (value : Option StateName)
  | commit

-- What one attribute shows of the values of its host.
structure Showing where
  value : Option StateName
  changes : Option (Option StateName × Option StateName)
  previous : Option StateName
  records : List Transition
  path : List StateName
deriving DecidableEq, Repr

def Values.showing (values : Values) (name : String) : Showing :=
  ⟨values.get name, values.changes? name, values.previous name, values.history.forAttribute name,
    values.history.path name⟩

def Act.KeepsValues [Stateful H] (act : Act H α) : Prop :=
  ∀ host, Stateful.values (act host).host = Stateful.values host

structure Values.Alike (name : String) (one other : Values) : Prop where
  slot : one.current.lookup name = other.current.lookup name
  committed : one.committed.lookup name = other.committed.lookup name
  records : one.history.forAttribute name = other.history.forAttribute name

namespace Values.Alike

variable {name : String} {one other third : Values}

theorem refl (name : String) (values : Values) : Alike name values values := ⟨rfl, rfl, rfl⟩

theorem symm (alike : Alike name one other) : Alike name other one :=
  ⟨alike.slot.symm, alike.committed.symm, alike.records.symm⟩

theorem trans (first : Alike name one other) (second : Alike name other third) : Alike name one third :=
  ⟨first.slot.trans second.slot, first.committed.trans second.committed, first.records.trans second.records⟩

theorem get (alike : Alike name one other) : one.get name = other.get name := by
  rw [Values.get, Values.get, Slots.get, Slots.get, alike.slot]

theorem changes (alike : Alike name one other) : one.changes? name = other.changes? name := by
  rw [changes?, changes?, alike.get, Slots.get, Slots.get, alike.committed]

theorem showing (alike : Alike name one other) : one.showing name = other.showing name := by
  rw [Values.showing, Values.showing, previous, previous, History.path, History.path, alike.get, alike.changes,
    alike.records]

end Values.Alike

-- What a deed does to the values, whoever asked for it.
inductive Edit where
  | nothing
  | slot (name : String) (value : Option StateName)
  | move (transition : Transition)
  | commit
deriving DecidableEq, Repr

namespace Edit

variable {name : String} {one other : Values} {edit : Edit}

def apply (values : Values) : Edit → Values
  | nothing => values
  | slot name value => values.set name value
  | move transition => (values.set transition.attributeName (some transition.target)).record transition
  | commit => values.commit

def records : Edit → List Transition
  | nothing => []
  | slot _ _ => []
  | move transition => [transition]
  | commit => []

-- An edit under one name, of the current values alone.
def Under (name : String) : Edit → Prop
  | nothing => True
  | slot own _ => own = name
  | move transition => transition.attributeName = name
  | commit => False

theorem apply_history (edit : Edit) (values : Values) :
    (edit.apply values).history.transitions = values.history.transitions ++ edit.records := by
  cases edit with
  | nothing => exact (List.append_nil _).symm
  | slot name value => exact (List.append_nil _).symm
  | move transition => rfl
  | commit => exact (List.append_nil _).symm

theorem lookup_set (alike : Values.Alike name one other) (own : String) (value : Option StateName) :
    (one.set own value).current.lookup name = (other.set own value).current.lookup name := by
  by_cases same : name = own
  · subst same
    exact (Slots.lookup_insert_self _ _ _).trans (Slots.lookup_insert_self _ _ _).symm
  · calc
      (one.set own value).current.lookup name = one.current.lookup name := Slots.lookup_insert_other _ _ same
      _ = other.current.lookup name := alike.slot
      _ = (other.set own value).current.lookup name := (Slots.lookup_insert_other _ _ same).symm

theorem apply_alike (edit : Edit) (alike : Values.Alike name one other) :
    Values.Alike name (edit.apply one) (edit.apply other) := by
  cases edit with
  | nothing => exact alike
  | slot own value => exact ⟨lookup_set alike own value, alike.committed, alike.records⟩
  | move transition =>
    refine ⟨lookup_set alike _ _, alike.committed, ?_⟩
    have records := alike.records
    simp only [History.forAttribute] at records
    simp [apply, Values.record, Values.set, History.record, History.forAttribute, records]
  | commit => exact ⟨alike.slot, alike.slot, alike.records⟩

theorem Under.spares (under : edit.Under name) (different : foreign ≠ name) (values : Values) :
    Values.Alike foreign (edit.apply values) values := by
  cases edit with
  | nothing => exact .refl foreign values
  | slot own value =>
    obtain rfl : own = name := under
    exact ⟨Slots.lookup_insert_other _ _ different, rfl, rfl⟩
  | move transition =>
    obtain rfl : transition.attributeName = name := under
    exact ⟨Slots.lookup_insert_other _ _ different, rfl, History.forAttribute_other different.symm⟩
  | commit => exact under.elim

theorem Under.records (under : edit.Under name) :
    edit.records.length ≤ 1 ∧ ∀ record ∈ edit.records, record.attributeName = name := by
  cases edit with
  | nothing => simp [Edit.records]
  | slot own value => simp [Edit.records]
  | move transition =>
    have own : transition.attributeName = name := under
    simpa [Edit.records] using own
  | commit => exact under.elim

end Edit

-- A side effect ends its request with a failure or not at all, so the answer tells which.
theorem Call.ends_elsewise (call : Call H α) (host : H) : (call.effect host).value ≠ some (call.answer true) := by
  intro ends
  cases call with
  | change => cases ends
  | changeStrict => cases ends
  | changeWith effect =>
    obtain ⟨failure, -, answered⟩ := SideEffect.ends_some ends
    cases answered
  | changeStrictWith ofRefusal effect =>
    obtain ⟨failure, -, answered⟩ := SideEffect.ends_some ends
    cases answered

namespace Machine

variable {H : Type} [Stateful H] {machine : Machine H} {now : Instant} {target : StateName} {host : H}

-- A judgement goes by the value of the attribute and by nothing else on the host.
theorem judge_of_get {values : Values}
    (same : (Stateful.values host).get machine.subject.name = values.get machine.subject.name) (target : StateName) :
    machine.judge host target = (⟨machine.subject, []⟩ : Machine Values).judge values target := by
  have current : machine.current host = (⟨machine.subject, []⟩ : Machine Values).current values := same
  simp only [judge, canReach, state?, current]

theorem notifyAll_keeps {observers : List (Observer H)}
    (keeps : ∀ observer ∈ observers, ∀ transition, (observer transition).KeepsValues) (transition : Transition)
    (position : Nat) : (notifyAll transition position observers).KeepsValues := by
  intro host
  induction observers generalizing position host with
  | nil => rfl
  | cons observer rest ih =>
    have later := fun other member => keeps other (List.mem_cons_of_mem _ member)
    calc
      Stateful.values (notifyAll transition position (observer :: rest) host).host
      _ = Stateful.values (observer transition host).host := ih later (position + 1) (observer transition host).host
      _ = Stateful.values host := keeps observer List.mem_cons_self transition host

theorem perform_values [LawfulStateful H]
    (keeps : ∀ observer ∈ machine.observers, ∀ transition, (observer transition).KeepsValues)
    {call : Call H α} (effect : call.effect.KeepsValues) (granted : machine.judge host target = .ok true)
    (now : Instant) :
    Stateful.values (machine.perform now target call host).host =
      ((Stateful.values host).set machine.subject.name (some target)).record (machine.step now target host) := by
  have left := (effect (machine.stored now target host)).trans (LawfulStateful.values_setValues _ _)
  cases result : (call.effect (machine.stored now target host)).value with
  | some ending =>
    rw [perform_failed granted call result]
    exact left
  | none =>
    rw [perform_carried granted call result]
    exact (notifyAll_keeps keeps _ 0 _).trans left

-- What the side effect of a request, if it comes to run, ends the request with.
def ending (machine : Machine H) (now : Instant) (target : StateName) (call : Call H α) (host : H) : Option α :=
  match machine.judge host target with
  | .ok true => (call.effect (machine.stored now target host)).value
  | .ok false => none
  | .error _ => none

theorem perform_value (granted : machine.judge host target = .ok true) (call : Call H α) :
    (machine.perform now target call host).value =
      (call.effect (machine.stored now target host)).value.getD (call.answer true) := by
  cases result : (call.effect (machine.stored now target host)).value with
  | some ending => rw [perform_failed granted call result, Option.getD_some]
  | none => rw [perform_carried granted call result, Option.getD_none]

theorem ending_steady {call : Call H α} {one other : H}
    (judged : machine.judge one target = machine.judge other target)
    (steady : ∀ one other, (call.effect one).value = (call.effect other).value) :
    machine.ending now target call one = machine.ending now target call other := by
  rw [ending, ending, judged, steady _ (machine.stored now target other)]

-- Of two requests that are judged in one way, only the side effects can make the answers differ, and where
-- these end otherwise they do.
theorem answer_iff {call : Call H α} {one other : H}
    (judged : machine.judge one target = machine.judge other target) :
    (machine.perform now target call one).value = (machine.perform now target call other).value ↔
      machine.ending now target call one = machine.ending now target call other := by
  cases answer : machine.judge other target with
  | error refusal =>
    rw [perform_refused (judged.trans answer), perform_refused answer]
    simp only [ending, judged.trans answer, answer]
  | ok moves =>
    cases moves with
    | false =>
      rw [perform_kept (judged.trans answer), perform_kept answer]
      simp only [ending, judged.trans answer, answer]
    | true =>
      have granted := judged.trans answer
      have mine := call.ends_elsewise (machine.stored now target one)
      have theirs := call.ends_elsewise (machine.stored now target other)
      rw [perform_value granted, perform_value answer]
      simp only [ending, granted, answer]
      generalize (call.effect (machine.stored now target one)).value = first at mine ⊢
      generalize (call.effect (machine.stored now target other)).value = second at theirs ⊢
      cases first <;> cases second <;> grind

end Machine

namespace Deed

variable {H : Type}

def name? : Deed H → Option String
  | request attr _ => some attr.name
  | set attr _ => some attr.name
  | commit => none

-- A commit concerns every attribute.
def concerns (name : String) (deed : Deed H) : Bool := deed.name?.all (· == name)

def Answer : Deed H → Type
  | request _ ask => ask.Answer
  | set _ _ => Option StateName
  | commit => Unit

def KeepsValues [Stateful H] : Deed H → Prop
  | request _ ask => ask.call.effect.KeepsValues
  | set _ _ => True
  | commit => True

-- The deed comes with no side effect, or with one that ends in one way wherever it runs.
def Steady : Deed H → Prop
  | request _ ask => ∀ one other, (ask.call.effect one).value = (ask.call.effect other).value
  | set _ _ => True
  | commit => True

def edit (deed : Deed H) (values : Values) : Edit :=
  match deed with
  | request attr ask =>
    match (⟨attr, []⟩ : Machine Values).judge values ask.target with
    | .ok true => .move ⟨attr.name, values.get attr.name, ask.target, ask.now⟩
    | .ok false => .nothing
    | .error _ => .nothing
  | set attr value => .slot attr.name value
  | commit => .commit

theorem edit_under {deed : Deed H} (named : deed.name? = some name) (values : Values) :
    (deed.edit values).Under name := by
  cases deed with
  | request attr ask =>
    obtain rfl : attr.name = name := Option.some.inj named
    simp only [edit]
    split
    · rfl
    · trivial
    · trivial
  | set attr value => exact Option.some.inj named
  | commit => cases named

theorem edit_congr {deed : Deed H} (concerned : deed.concerns name) (alike : Values.Alike name one other) :
    deed.edit one = deed.edit other := by
  cases deed with
  | request attr ask =>
    obtain rfl : attr.name = name := by simpa [concerns, name?] using concerned
    have judge : (⟨attr, []⟩ : Machine Values).judge one ask.target =
        (⟨attr, []⟩ : Machine Values).judge other ask.target := Machine.judge_of_get alike.get ask.target
    simp only [edit, judge, alike.get]
  | set attr value => rfl
  | commit => rfl

end Deed

end StateAttributes
