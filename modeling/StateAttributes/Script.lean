import StateAttributes.Script.Action

namespace StateAttributes.Script

-- Requests inside requests may stand at any depth, so what is left to do is kept as data: each step takes the first
-- piece of work off the agenda and puts what comes of it in its place.
-- A piece of work that is left: the rest of a list of actions; the observers, from a position on, that
-- have not heard of a transition yet; the end of a request that moved.
inductive Pending where
  | actions (rest : List Action)
  | telling (transition : Transition) (position : Nat) (rest : List ObserverScript)
  | moved
deriving DecidableEq, Repr, Inhabited

namespace RegistryScript

variable (script : RegistryScript) (now : Instant)

-- A request for a transition. One that does not move, for whatever reason, is over at once.
def request (name : String) (target : StateName) : Act Host (List Pending) := do
  match script.attributes.find? (·.name == name) with
  | none =>
    noteChanged false
    return []
  | some attr =>
    let machine : Machine Host := ⟨attr, []⟩
    match machine.judge (← Act.look) target with
    | .ok true =>
      let transition ← machine.move now target
      return [.telling transition 0 script.observers, .moved]
    | .ok false =>
      noteChanged false
      return []
    | .error refusal =>
      Act.emit (.refused false refusal)
      noteChanged false
      return []

def act : Action → Act Host (Except String (List Pending))
  | .log text => do
    Host.note fun _ => text
    return .ok []
  | .see name => do
    Host.note fun values => "see " ++ name ++ "=" ++ showValue (values.get name)
    return .ok []
  | .set name value => do
    Act.modify fun host => { host with values := host.values.set name value }
    return .ok []
  | .commit => do
    Act.modify fun host => { host with values := host.values.commit }
    return .ok []
  | .change name target => do
    return .ok (← script.request now name target)
  | .fail text => return .error text

def advance : Pending → Act Host (Except String (List Pending))
  | .actions [] => return .ok []
  | .actions (action :: rest) => do
    match ← script.act now action with
    | .ok more => return .ok (more ++ [.actions rest])
    | .error text => return .error text
  | .telling _ _ [] => return .ok []
  | .telling transition position (observer :: rest) => do
    Act.emit (.observed position transition)
    let others := Pending.telling transition (position + 1) rest
    if observer.hears transition then
      observer.note transition
      return .ok [.actions observer.actions, others]
    else return .ok [others]
  | .moved => do
    noteChanged true
    return .ok []

-- Works the agenda off. A failure drops its own list of actions and nothing else; only that of the last
-- list on the agenda, the one that the run began with, is the failure of the run.
def workOff (fuel : Nat) (agenda : List Pending) (events : Array Event) (host : Host) :
    Outcome Host (Except String Unit) :=
  match fuel, agenda with
  | 0, _ | _, [] => ⟨.ok (), host, events.toList⟩
  | fuel + 1, piece :: rest =>
    let step := script.advance now piece host
    let events := events ++ step.events
    match step.value with
    | .ok more => workOff fuel (more ++ rest) events step.host
    | .error text =>
      if rest.isEmpty then ⟨.error text, step.host, events.toList⟩
      else workOff fuel rest events step.host

-- Scripts that keep answering one another are cut off here.
def maxSteps : Nat := 1000000000

def perform (actions : List Action) : Act Host (Except String Unit) :=
  script.workOff now maxSteps [.actions actions] #[]

-- A failure among the actions of an observer or a callback ends them and goes no further.
def observe (observer : ObserverScript) : Observer Host := fun transition => do
  if observer.hears transition then
    observer.note transition
    let _ ← script.perform now observer.actions

def call (callback : CallbackScript) : Callback Host := fun context => do
  callback.note context
  let _ ← script.perform now callback.actions

def registry : Registry Host where
  attributes := script.attributes
  observers := script.observers.map (script.observe now)
  callbacks := script.callbacks.map fun callback => (callback.hook, script.call now callback)

def effect (actions : List Action) : SideEffect Host String := script.perform now actions

end RegistryScript
end StateAttributes.Script
