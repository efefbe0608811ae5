import StateAttributes.Proofs.Course
import StateAttributes.Proofs.Preorder

namespace StateAttributes

namespace Attribute

variable {attr : Attribute} {states : Forest}

-- The report on an attribute, with the value that it holds.
def report (attr : Attribute) (value : Option StateName) : InclusionError where
  attributeName := attr.name
  value := value
  message :=
    match attr.options.message with
    | some message => message
    | none => "has invalid value"

theorem inclusion_value (compiled : attr.CompiledFrom states) (value : Option StateName) :
    attr.inclusion? value =
      if (value.bind attr.state?).any State.isLeaf ∨ value = none ∧ attr.options.allowNil then none
      else some (attr.report value) := by
  have text : attr.options.message.getD defaultInvalidMessage = (attr.report value).message := by
    cases message : attr.options.message <;> simp [report, message, defaultInvalidMessage]
  cases value with
  | none => simp [inclusion?, text, report]
  | some name => simp [inclusion?, text, report, compiled.values_eq, compiled.any_isLeaf]

end Attribute

namespace Registry

variable {H : Type} [Stateful H] {registry : Registry H} {host : H}

-- Nothing is said against an attribute that is valid, nor against a missing value where none is needed.
def Passes (registry : Registry H) (host : H) (attr : Attribute) : Prop :=
  (registry.machineOf attr).isValid host ∨
    (Stateful.values host).get attr.name = none ∧ attr.options.allowNil

instance (attr : Attribute) : Decidable (registry.Passes host attr) := by
  unfold Passes
  infer_instance

-- What a validation says of a host: who offends, in the order of the registry, and in whose words.
structure Validates (registry : Registry H) (host : H) : Prop where
  succeeds : registry.validate host = [] ↔ ∀ attr ∈ registry.attributes, registry.Passes host attr
  reports : registry.validate host =
    (registry.attributes.filter fun attr => ¬ registry.Passes host attr).map fun attr =>
      attr.report ((Stateful.values host).get attr.name)
  offends : ∀ attr ∈ registry.attributes,
    attr.name ∈ (registry.validate host).map (·.attributeName) ↔ ¬ registry.Passes host attr
  once : ((registry.validate host).map (·.attributeName)).Nodup

theorem Sound.inclusion_passes (sound : registry.Sound) (host : H) {attr : Attribute}
    (member : attr ∈ registry.attributes) :
    attr.inclusion? ((Stateful.values host).get attr.name) =
      if registry.Passes host attr then none else some (attr.report ((Stateful.values host).get attr.name)) := by
  obtain ⟨states, compiled⟩ := sound.compiled attr member
  exact attr.inclusion_value compiled _

theorem Sound.validate_reports (sound : registry.Sound) (host : H) :
    registry.validate host =
      (registry.attributes.filter fun attr => ¬ registry.Passes host attr).map fun attr =>
        attr.report ((Stateful.values host).get attr.name) := by
  have each (attr : Attribute) (member : attr ∈ registry.attributes) := sound.inclusion_passes host member
  rw [validate]
  generalize registry.attributes = attributes at each ⊢
  induction attributes with
  | nil => rfl
  | cons attr rest ih =>
    obtain ⟨own, others⟩ := List.forall_mem_cons.mp each
    rw [List.filterMap_cons, own, ih others]
    by_cases passes : registry.Passes host attr <;> simp [passes]

theorem validate_validates (built : registry.Built) (host : H) : registry.Validates host := by
  have sound := built.sound
  have reports := sound.validate_reports host
  have named : (registry.validate host).map (·.attributeName) =
      (registry.attributes.filter fun attr => ¬ registry.Passes host attr).map (·.name) := by
    rw [reports, List.map_map]
    rfl
  constructor
  case succeeds =>
    rw [reports, List.map_eq_nil_iff, List.filter_eq_nil_iff]
    simp
  case reports => exact reports
  case offends =>
    intro attr member
    rw [named, List.mem_map]
    constructor
    · rintro ⟨other, listed, same⟩
      obtain ⟨registered, offends⟩ := List.mem_filter.mp listed
      rw [← sound.same_name registered member same]
      exact of_decide_eq_true offends
    · intro offends
      exact ⟨attr, List.mem_filter.mpr ⟨member, decide_eq_true offends⟩, rfl⟩
  case once =>
    rw [named]
    exact sound.unique.sublist (List.filter_sublist.map _)

-- A shelf keeps a document, a copy that may be missing, and a loan that words its own complaint.
def shelf : Registry Values :=
  ((((empty : Registry Values).register .document).1.register
    { Attribute.document with name := "copy", options := { allowNil := true } }).1.register
    { Attribute.document with name := "loan", options := { message := some "is not on loan" } }).1

-- The document is said to be in review, which is a group, and the loan is as good as forgotten.
theorem shelf_validates :
    shelf.Built ∧ shelf.Validates (Values.empty.set "state" (some "review")) ∧
      shelf.validate (Values.empty.set "state" (some "review")) =
        [⟨"state", some "review", "has invalid value"⟩, ⟨"loan", none, "is not on loan"⟩] := by
  have built : shelf.Built :=
    .register
      (.register
        (.register .empty ⟨"state", some "draft", [], some Attribute.documentStates, {}⟩ rfl)
        ⟨"copy", some "draft", [], some Attribute.documentStates, { allowNil := true }⟩ rfl)
      ⟨"loan", some "draft", [], some Attribute.documentStates, { message := some "is not on loan" }⟩ rfl
  have validates := validate_validates built (Values.empty.set "state" (some "review"))
  exact ⟨built, validates, validates.reports.trans (by decide +kernel)⟩

end Registry
end StateAttributes
