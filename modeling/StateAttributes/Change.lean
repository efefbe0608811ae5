import StateAttributes.Event

namespace StateAttributes

-- The account only grows: no later step can read or change it.
structure Outcome (H α : Type) where
  value : α
  host : H
  events : List Event

def Act (H α : Type) := H → Outcome H α

namespace Act

def pure (value : α) : Act H α := fun host => ⟨value, host, []⟩

def bind (first : Act H α) (next : α → Act H β) : Act H β := fun host =>
  let before := first host
  let after := next before.value before.host
  ⟨after.value, after.host, before.events ++ after.events⟩

instance : Monad (Act H) where
  pure := pure
  bind := bind

def emit (event : Event) : Act H Unit := fun host => ⟨(), host, [event]⟩

def look : Act H H := fun host => ⟨host, host, []⟩

def modify (change : H → H) : Act H Unit := fun host => ⟨(), change host, []⟩

end Act

-- Called after every accepted transition on any attribute of the host.
abbrev Observer (H : Type) := Transition → Act H Unit

abbrev SideEffect (H ε : Type) := Act H (Except ε Unit)

-- One attribute together with the observers of its registry.
structure Machine (H : Type) where
  subject : Attribute
  observers : List (Observer H)

-- Calls the observers in order, each on the host that the one before it left.
def notifyAll (transition : Transition) (position : Nat) : List (Observer H) → Act H Unit
  | [] => pure ()
  | observer :: rest => do
    Act.emit (.observed position transition)
    observer transition
    notifyAll transition (position + 1) rest

namespace Machine

variable {H : Type} [Stateful H] (machine : Machine H)

def current (host : H) : Option StateName := (Stateful.values host).get machine.subject.name

def state? (host : H) : Option State := (machine.current host).bind machine.subject.state?

def isWithin (host : H) (name : StateName) : Bool := (machine.state? host).any (·.isWithin name)

def isValid (host : H) : Bool := (machine.state? host).any State.isLeaf

def canReach (host : H) (target : StateName) : Bool := (machine.state? host).any (·.canReach target)

-- The value at the last commit where it differs.
def previous (host : H) : Option StateName := (Stateful.values host).previous machine.subject.name

def previousState? (host : H) : Option State := (machine.previous host).bind machine.subject.state?

-- Overwrites the stored value without check and without notice; answers the old one.
def set (value : Option StateName) : Act H (Option StateName) := do
  let host ← Act.look
  Act.modify fun host => Stateful.setValues host ((Stateful.values host).set machine.subject.name value)
  return machine.current host

-- Whether the request moves the attribute at all. A stored value that is not a declared leaf leads
-- nowhere.
def judge (host : H) (target : StateName) : Except Refusal Bool :=
  if machine.current host = some target then .ok false
  else
    match machine.subject.state? target with
    | none => .error (.unknownTarget machine.subject.name target)
    | some goal =>
      if goal.isGroup then .error (.groupTarget machine.subject.name goal.name)
      else if machine.canReach host target then .ok true
      else .error (.unreachable machine.subject.name (machine.current host) goal.name)

def move (now : Instant) (target : StateName) : Act H Transition := do
  let host ← Act.look
  let transition : Transition := ⟨machine.subject.name, machine.current host, target, now⟩
  Act.modify fun host =>
    Stateful.setValues host
      (((Stateful.values host).set machine.subject.name (some target)).record transition)
  Act.emit (.moved transition)
  return transition

def notify (transition : Transition) : Act H Unit := notifyAll transition 0 machine.observers

def carryOut (now : Instant) (target : StateName) : Act H Unit := do
  let transition ← machine.move now target
  machine.notify transition

-- An accepted request with a side effect. A failure is passed on and the observers hear nothing, but the stored
-- value and the record stay.
def carryOutWith (now : Instant) (target : StateName) (effect : SideEffect H ε) :
    Act H (Except ε Bool) := do
  let transition ← machine.move now target
  match ← effect with
  | .error failure => return .error failure
  | .ok () =>
    machine.notify transition
    return .ok true

def change (now : Instant) (target : StateName) : Act H Bool := do
  match machine.judge (← Act.look) target with
  | .ok true =>
    machine.carryOut now target
    return true
  | .ok false => return false
  | .error refusal =>
    Act.emit (.refused false refusal)
    return false

-- As `change`, with a side effect. A refusal is still no error.
def changeWith (now : Instant) (target : StateName) (effect : SideEffect H ε) :
    Act H (Except ε Bool) := do
  match machine.judge (← Act.look) target with
  | .ok true => machine.carryOutWith now target effect
  | .ok false => return .ok false
  | .error refusal =>
    Act.emit (.refused false refusal)
    return .ok false

def changeStrict (now : Instant) (target : StateName) : Act H (Except Refusal Bool) := do
  match machine.judge (← Act.look) target with
  | .ok true =>
    machine.carryOut now target
    return .ok true
  | .ok false => return .ok false
  | .error refusal =>
    Act.emit (.refused true refusal)
    return .error refusal

-- As `changeStrict`, with a side effect; refusals are passed on as errors of its kind.
def changeStrictWith (ofRefusal : Refusal → ε) (now : Instant) (target : StateName)
    (effect : SideEffect H ε) : Act H (Except ε Bool) := do
  match machine.judge (← Act.look) target with
  | .ok true => machine.carryOutWith now target effect
  | .ok false => return .ok false
  | .error refusal =>
    Act.emit (.refused true refusal)
    return .error (ofRefusal refusal)

end Machine
end StateAttributes
