import StateAttributes.Registry

namespace StateAttributes

structure InclusionError where
  attributeName : String
  value : Option StateName
  message : String
deriving DecidableEq, Repr, Inhabited

def InclusionError.text (error : InclusionError) : String := error.attributeName ++ " " ++ error.message

def defaultInvalidMessage : String := "has invalid value"

-- A stored value has to be a declared leaf, or missing where that is allowed.
def Attribute.inclusion? (attr : Attribute) (value : Option StateName) : Option InclusionError :=
  let included :=
    match value with
    | some name => attr.values.contains name
    | none => attr.options.allowNil
  if included then none
  else some ⟨attr.name, value, attr.options.message.getD defaultInvalidMessage⟩

def Registry.validate [Stateful H] (registry : Registry H) (host : H) : List InclusionError :=
  registry.attributes.filterMap fun attr => attr.inclusion? ((Stateful.values host).get attr.name)

theorem Attribute.inclusion?_leaf {attr : Attribute} {name : StateName} (listed : name ∈ attr.values) :
    attr.inclusion? (some name) = none := by
  simp [inclusion?, listed]

-- Where the leaves stand in their list plays no part.
theorem Attribute.inclusion?_congr {attr twin : Attribute} (named : twin.name = attr.name)
    (options : twin.options = attr.options)
    (values : ∀ name, twin.values.contains name = attr.values.contains name) (value : Option StateName) :
    twin.inclusion? value = attr.inclusion? value := by
  cases value with
  | none => simp only [inclusion?, named, options]
  | some name => simp only [inclusion?, named, options, values]

theorem Registry.validate_nil [Stateful H] {registry : Registry H} {host : H} :
    registry.validate host = [] ↔
      ∀ attr ∈ registry.attributes, attr.inclusion? ((Stateful.values host).get attr.name) = none :=
  List.filterMap_eq_nil_iff

end StateAttributes
