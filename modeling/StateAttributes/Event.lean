import StateAttributes.Values

namespace StateAttributes

inductive Refusal where
  | unknownTarget (attributeName : String) (target : StateName)
  | groupTarget (attributeName : String) (target : StateName)
  | unreachable (attributeName : String) (source : Option StateName) (target : StateName)
deriving DecidableEq, Repr, Inhabited

def showValue (value : Option StateName) : String := value.getD "nil"

def Refusal.message : Refusal → String
  | .unknownTarget name target => "Attribute '" ++ name ++ "' has no state named '" ++ target ++ "'"
  | .groupTarget name target =>
    "'" ++ target ++ "' is a group state of attribute '" ++ name ++ "' and cannot be assigned"
  | .unreachable name source target =>
    "Attribute '" ++ name ++ "' cannot transition from '" ++ showValue source ++ "' to '" ++ target
      ++ "'"

inductive LifecycleHook where
  | validate
  | beforeSave
  | afterSave
  | beforeValidation
  | afterValidation
deriving DecidableEq, Repr, Inhabited

-- What a lifecycle callback is told: the attribute that changed, from what and to what.
structure HookContext where
  attributeName : String
  hook : LifecycleHook
  source : Option StateName
  target : Option StateName
deriving DecidableEq, Repr, Inhabited

def LifecycleHook.name : LifecycleHook → String
  | .validate => "validate"
  | .beforeSave => "before_save"
  | .afterSave => "after_save"
  | .beforeValidation => "before_validation"
  | .afterValidation => "after_validation"

inductive Event where
  | compiled (attributeName : String) (states leaves : Nat)
  | registered (attributeName : String) (states : Nat)
  | shadowed (attributeName : String)
  | moved (transition : Transition)
  | refused (strict : Bool) (refusal : Refusal)
  | observed (position : Nat) (transition : Transition)
  | calledBack (context : HookContext)
deriving DecidableEq, Repr

-- An absent value and a present one are told apart even where the name is odd.
def debugValue : Option StateName → String
  | none => "None"
  | some name => "Some(" ++ name.debug ++ ")"

def Event.line? : Event → Option String
  | .compiled name states leaves =>
    some ("TRACE compiled state attribute attribute=" ++ name ++ " states=" ++ toString states
      ++ " leaves=" ++ toString leaves)
  | .registered name states =>
    some ("DEBUG registered state attribute attribute=" ++ name ++ " states=" ++ toString states)
  | .shadowed name => some ("DEBUG shadowing state attribute attribute=" ++ name)
  | .moved transition =>
    some ("DEBUG state transition attribute=" ++ transition.attributeName ++ " from="
      ++ showValue transition.source ++ " to=" ++ transition.target)
  | .refused false refusal => some ("TRACE transition refused error=" ++ refusal.message)
  | .refused true refusal => some ("WARN strict transition refused error=" ++ refusal.message)
  | .observed _ _ => none
  | .calledBack context =>
    some ("DEBUG ran lifecycle callbacks attribute=" ++ context.attributeName ++ " hook="
      ++ context.hook.name ++ " from=" ++ debugValue context.source ++ " to="
      ++ debugValue context.target)

def logLines (events : List Event) : List String := events.filterMap Event.line?

end StateAttributes
