import StateAttributes.Change
import StateAttributes.Config

namespace StateAttributes

abbrev Callback (H : Type) := HookContext → Act H Unit

-- Attributes keep the order of their first registration; a later definition of a name takes the place of the
-- earlier one.
structure Registry (H : Type) where
  attributes : List Attribute
  observers : List (Observer H)
  callbacks : List (LifecycleHook × Callback H)

structure UnknownAttribute where
  name : String
deriving DecidableEq, Repr, Inhabited

def UnknownAttribute.message (error : UnknownAttribute) : String :=
  "No state attribute named '" ++ error.name ++ "' is registered"

def Attribute.compiledEvent (attr : Attribute) : Event :=
  .compiled attr.name attr.size attr.values.length

namespace Registry

variable {H : Type}

def empty : Registry H := ⟨[], [], []⟩

-- Observers and callbacks act on the parent's host type, so only the attributes pass on.
def inherit (parent : Registry P) : Registry H := ⟨parent.attributes, [], []⟩

def spec? (registry : Registry H) (name : String) : Option Attribute :=
  registry.attributes.find? (·.name == name)

def replaceFirst (attr : Attribute) : List Attribute → List Attribute
  | [] => []
  | existing :: rest =>
    if existing.name == attr.name then attr :: rest else existing :: replaceFirst attr rest

def register (registry : Registry H) (attr : Attribute) : Registry H × Event :=
  if (registry.spec? attr.name).isSome then
    ({ registry with attributes := replaceFirst attr registry.attributes }, .shadowed attr.name)
  else
    ({ registry with attributes := registry.attributes ++ [attr] }, .registered attr.name attr.size)

def declare (registry : Registry H) (draft : Draft) :
    Except CompileError (Registry H × List Event) := do
  let attr ← draft.compile
  let (registry, event) := registry.register attr
  return (registry, [attr.compiledEvent, event])

def observe (registry : Registry H) (observer : Observer H) : Registry H :=
  { registry with observers := registry.observers ++ [observer] }

def onHook (registry : Registry H) (hook : LifecycleHook) (callback : Callback H) : Registry H :=
  { registry with callbacks := registry.callbacks ++ [(hook, callback)] }

def machineOf (registry : Registry H) (attr : Attribute) : Machine H := ⟨attr, registry.observers⟩

def machine (registry : Registry H) (name : String) : Except UnknownAttribute (Machine H) :=
  match registry.spec? name with
  | some attr => .ok (registry.machineOf attr)
  | none => .error ⟨name⟩

def names (registry : Registry H) : List String := registry.attributes.map (·.name)

def newValues (registry : Registry H) : Values := .initial registry.attributes

end Registry
end StateAttributes
