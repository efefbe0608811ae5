import StateAttributes.Lifecycle

namespace StateAttributes.Script

structure Host where
  values : Values
  log : Array String
deriving DecidableEq, Repr, Inhabited

instance : Stateful Host := ⟨Host.values, fun host values => { host with values }⟩

-- Notes a line that may tell of the values at this point.
def Host.note (line : Values → String) : Act Host Unit :=
  Act.modify fun host => { host with log := host.log.push (line host.values) }

inductive Action where
  | log (text : String)
  | see (attributeName : String)
  | set (attributeName : String) (value : Option StateName)
  | commit
  | change (attributeName : String) (target : StateName)
  | fail (text : String)
deriving DecidableEq, Repr, Inhabited

-- An observer that may be limited to one attribute and one target.
structure ObserverScript where
  tag : String
  attributeName? : Option String
  target? : Option StateName
  actions : List Action
deriving DecidableEq, Repr, Inhabited

structure CallbackScript where
  tag : String
  hook : LifecycleHook
  actions : List Action
deriving DecidableEq, Repr, Inhabited

structure RegistryScript where
  attributes : List Attribute
  observers : List ObserverScript
  callbacks : List CallbackScript
deriving DecidableEq, Repr, Inhabited

-- Notes under a tag the step from one value to another, and the value that the slot holds by now.
def noteStep (tag name : String) (source target : Option StateName) : Act Host Unit :=
  Host.note fun values =>
    tag ++ " " ++ name ++ ":" ++ showValue source ++ "->" ++ showValue target ++ " now="
      ++ showValue (values.get name)

def noteChanged (moved : Bool) : Act Host Unit :=
  Host.note fun _ => if moved then "changed true" else "changed false"

namespace ObserverScript

variable (observer : ObserverScript) (transition : Transition)

def hears : Bool :=
  observer.attributeName?.all (· == transition.attributeName)
    && observer.target?.all (· == transition.target)

def note : Act Host Unit :=
  noteStep observer.tag transition.attributeName transition.source (some transition.target)

end ObserverScript

def CallbackScript.note (callback : CallbackScript) (context : HookContext) : Act Host Unit :=
  noteStep (callback.tag ++ " " ++ context.hook.name) context.attributeName context.source
    context.target

end StateAttributes.Script
