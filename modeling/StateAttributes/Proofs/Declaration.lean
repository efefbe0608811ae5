import Mathlib.Data.List.Nodup
import StateAttributes.Forest

namespace StateAttributes

-- The targets of a leaf; a group has none, which is not the same as having an empty list of them.
def Body.targets? : Body → Option (List StateName)
  | leaf targets => some targets.toList
  | group _ => none

@[simp] theorem Body.targets?_leaf (targets : Targets) :
    (Body.leaf targets).targets? = some targets.toList := rfl
@[simp] theorem Body.targets?_group : (Body.group children).targets? = none := rfl

@[simp] theorem Body.targets?_getD (body : Body) : body.targets?.getD [] = body.targets := by
  cases body <;> rfl

@[simp] theorem Body.targets?_isSome (body : Body) : body.targets?.isSome = !body.isGroup := by
  cases body <;> rfl

namespace Forest

-- Every leaf and group at any depth. A group stands before everything inside it.
def declared : Forest → List (StateName × Body)
  | nil => []
  | leaf name targets rest => (name, .leaf targets) :: rest.declared
  | group name children rest => (name, .group children) :: (children.declared ++ rest.declared)

def names (states : Forest) : List StateName := states.declared.map (·.1)

def leafEntry? (entry : StateName × Body) : Option StateName :=
  if entry.2.isGroup then none else some entry.1

def leafNames (states : Forest) : List StateName := states.declared.filterMap leafEntry?

def count (states : Forest) : Nat := states.declared.length

@[simp] theorem count_nil : nil.count = 0 := rfl
@[simp] theorem count_leaf : (leaf name targets rest).count = rest.count + 1 := rfl
@[simp] theorem count_group :
    (group name children rest).count = children.count + rest.count + 1 := by
  simp [count, declared]

@[simp] theorem names_nil : nil.names = [] := rfl
@[simp] theorem names_leaf : (leaf name targets rest).names = name :: rest.names := rfl
@[simp] theorem names_group :
    (group name children rest).names = name :: (children.names ++ rest.names) := by
  simp [names, declared]

@[simp] theorem leafNames_nil : nil.leafNames = [] := rfl
@[simp] theorem leafNames_leaf : (leaf name targets rest).leafNames = name :: rest.leafNames := rfl
@[simp] theorem leafNames_group :
    (group name children rest).leafNames = children.leafNames ++ rest.leafNames := by
  simp [leafNames, declared, leafEntry?, Body.isGroup]

def inside : Body → Nat
  | .leaf _ => 0
  | .group children => children.count

theorem inside_bound {states : Forest} (entry : states.declared[position]? = some (name, body)) :
    position + inside body < states.count := by
  induction states generalizing position with
  | nil => cases entry
  | leaf own targets rest ih =>
    rw [count_leaf]
    cases position with
    | zero => cases entry; simp [inside]
    | succ position =>
      have bound := ih entry
      omega
  | group own children rest insideIh restIh =>
    rw [count_group]
    cases position with
    | zero => cases entry; simp only [inside]; omega
    | succ position =>
      simp only [declared, List.getElem?_cons_succ] at entry
      rcases Nat.lt_or_ge position children.count with early | late
      · rw [List.getElem?_append_left early] at entry
        have bound := insideIh entry
        omega
      · rw [List.getElem?_append_right late] at entry
        have bound := restIh entry
        change position - children.count + inside body < rest.count at bound
        omega

theorem names_length (states : Forest) : states.names.length = states.count := by
  simp [names, count]

theorem mem_names {states : Forest} : name ∈ states.names ↔ ∃ body, (name, body) ∈ states.declared := by
  simp [names]

theorem mem_leafNames {states : Forest} :
    name ∈ states.leafNames ↔ ∃ targets, (name, .leaf targets) ∈ states.declared := by
  simp only [leafNames, List.mem_filterMap, leafEntry?]
  constructor
  · intro entry
    obtain ⟨⟨found, body⟩, member, own⟩ := entry
    cases body with
    | leaf targets => cases own; exact ⟨targets, member⟩
    | group children => cases own
  · intro declared
    obtain ⟨targets, member⟩ := declared
    exact ⟨_, member, rfl⟩

theorem leafNames_subset (states : Forest) : states.leafNames ⊆ states.names := by
  intro name member
  obtain ⟨targets, declared⟩ := mem_leafNames.mp member
  exact mem_names.mpr ⟨_, declared⟩

theorem leafNames_sublist (states : Forest) : states.leafNames.Sublist states.names := by
  induction states with
  | nil => exact .refl _
  | leaf name targets rest ih => simpa using ih
  | group name children rest insideIh restIh =>
    simpa using (insideIh.append restIh).cons name

-- What a group contains stands together in its own order, with nothing in between.
theorem declared_segment {states children : Forest} (outer : (name, .group children) ∈ states.declared) :
    children.declared <:+: states.declared := by
  induction states with
  | nil => cases outer
  | leaf own targets rest ih =>
    rcases List.mem_cons.mp outer with same | later
    · cases same
    · exact List.infix_cons (ih later)
  | group own inner rest innerIh restIh =>
    rcases List.mem_cons.mp outer with same | later
    · cases same
      exact List.infix_cons (List.prefix_append _ _).isInfix
    · rcases List.mem_append.mp later with inside | after
      · exact List.infix_cons ((innerIh inside).trans (List.prefix_append _ _).isInfix)
      · exact List.infix_cons ((restIh after).trans (List.suffix_append _ _).isInfix)

theorem declared_inside {states children : Forest} (outer : (name, .group children) ∈ states.declared) :
    children.declared.Sublist states.declared := (declared_segment outer).sublist

theorem declared_unique {states : Forest} (unique : states.names.Nodup)
    (one : (name, body) ∈ states.declared) (other : (name, body') ∈ states.declared) : body = body' := by
  have pair := List.inj_on_of_nodup_map unique one other rfl
  cases pair
  rfl

theorem declared_kind (states : Forest) (name : StateName) :
    (∃ targets, (name, .leaf targets) ∈ states.declared) ∨
      (∃ children, (name, .group children) ∈ states.declared) ∨ name ∉ states.names := by
  by_cases declared : name ∈ states.names
  · obtain ⟨body, entry⟩ := mem_names.mp declared
    cases body with
    | leaf targets => exact .inl ⟨targets, entry⟩
    | group children => exact .inr (.inl ⟨children, entry⟩)
  · exact .inr (.inr declared)

-- A name lies within itself, and within every group that it is declared in, at any depth.
def Within (states : Forest) (name outer : StateName) : Prop :=
  name = outer ∨ ∃ children, (outer, .group children) ∈ states.declared ∧ name ∈ children.names

def Resolved (states : Forest) (targets : List StateName) : Prop := ∀ target ∈ targets, target ∈ states.names

end Forest
end StateAttributes
