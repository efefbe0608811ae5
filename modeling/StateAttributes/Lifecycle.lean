import StateAttributes.Registry

namespace StateAttributes

open Json

namespace LifecycleHook

def all : List LifecycleHook := [validate, beforeSave, afterSave, beforeValidation, afterValidation]

def ofName? (name : String) : Option LifecycleHook := all.find? (·.name == name)

def toJson (hook : LifecycleHook) : Value := .string hook.name

def readName (name : String) : Read LifecycleHook :=
  match ofName? name with
  | some hook => .ok hook
  | none => refuse (.unknownVariant name (all.map LifecycleHook.name))

-- The only content that may stand beside a name is no content at all.
def readNothing (value : Value) : Read Unit :=
  match value with
  | .null => .ok ()
  | value => value.unexpected "unit"

-- A hook stands as its name, or as the single key of an object over `null`.
def read (room : Nat) (value : Value) : Read LifecycleHook :=
  match value with
  | .text (some name) => readName name
  | .object (.field (some name) content rest) => do
    let _ ← enter room
    let hook ← readName name
    readNothing content
    match rest with
    | .closed => return hook
    | _ => malformed
  | _ => malformed

def toText (hook : LifecycleHook) : String := hook.toJson.render

def ofText (text : String) : Read LifecycleHook := Read.ofText read text

end LifecycleHook

def runCallbacks (context : HookContext) : List (Callback H) → Act H Bool
  | [] => return false
  | callback :: rest => do
    callback context
    let _ ← runCallbacks context rest
    return true

namespace Registry

variable {H : Type} (registry : Registry H)

def callbacksOf (hook : LifecycleHook) : List (Callback H) :=
  (registry.callbacks.filter (·.1 = hook)).map (·.2)

-- Runs the callbacks of a hook for one attribute, unless nothing changed or the attribute is unknown.
def process (name : String) (hook : LifecycleHook) (old new : Option StateName) : Act H Bool :=
  if old = new ∨ registry.spec? name = none then return false
  else do
    let context : HookContext := ⟨name, hook, old, new⟩
    let ran ← runCallbacks context (registry.callbacksOf hook)
    if ran then Act.emit (.calledBack context)
    return ran

def pendingChanges (values : Values) : List (String × Option StateName × Option StateName) :=
  registry.attributes.filterMap fun attr =>
    (values.changes? attr.name).map fun (old, new) => (attr.name, old, new)

def processAll (hook : LifecycleHook) :
    List (String × Option StateName × Option StateName) → Act H Nat
  | [] => return 0
  | (name, old, new) :: rest => do
    let ran ← registry.process name hook old new
    let more ← processAll hook rest
    return (if ran then 1 else 0) + more

-- The list is drawn up before the first callback runs, so no callback can add to it or take from it.
def processChanges [Stateful H] (hook : LifecycleHook) : Act H Nat := do
  let host ← Act.look
  registry.processAll hook (registry.pendingChanges (Stateful.values host))

end Registry
end StateAttributes
