import StateAttributes.Lifecycle
import StateAttributes.Text.Quoted

namespace StateAttributes

def debugList (items : List String) : String := "[" ++ ", ".intercalate items ++ "]"

def debugRecord (name : String) (fields : List (String × String)) : String :=
  name ++ " \x7b "
    ++ ", ".intercalate (fields.map fun (key, text) => key ++ ": " ++ text) ++ " \x7d"

def NodeKind.debug : NodeKind → String
  | .leaf targets => debugRecord "Leaf" [("targets", debugList (targets.map StateName.debug))]
  | .group children =>
    debugRecord "Group"
      [("children", debugList (children.map fun id => "NodeId(" ++ toString id ++ ")"))]

def State.debug (state : State) : String :=
  debugRecord "StateInfo" [
    ("attribute", Text.quoted state.owner.name),
    ("name", state.name.debug),
    ("kind", state.node.kind.debug)]

def Machine.debug (machine : Machine H) : String :=
  debugRecord "Attribute" [("name", Text.quoted machine.subject.name)]

def Registry.debug (registry : Registry H) : String :=
  debugRecord "TypeRegistry" [
    ("attributes", debugList (registry.names.map Text.quoted)),
    ("observers", toString registry.observers.length),
    ("hooks", toString registry.callbacks.length)]

end StateAttributes
