import StateAttributes.Proofs.Ancestry

namespace StateAttributes

variable {states : Forest} {inner middle outer : StateName} {body content : Body} {id lower : Nat}

namespace Forest

theorem within_block (unique : states.names.Nodup) (under : states.declared[lower]? = some (inner, body))
    (above : states.declared[id]? = some (outer, content)) :
    states.Within inner outer ↔ id ≤ lower ∧ lower ≤ id + inside content := by
  rw [within_positions unique under above]
  omega

-- A block that begins inside another one ends inside it as well.
theorem block_ends (under : states.declared[lower]? = some (inner, body))
    (above : states.declared[id]? = some (outer, content)) (begins : id ≤ lower)
    (within : lower ≤ id + inside content) : lower + inside body ≤ id + inside content := by
  rcases Nat.eq_or_lt_of_le begins with rfl | later
  · rw [under] at above
    cases above
    exact Nat.le_refl _
  · cases content with
    | leaf targets =>
      simp only [inside] at within
      omega
    | group children =>
      change lower ≤ id + children.count at within
      change lower + inside body ≤ id + children.count
      have placed := declared_block above (show lower - (id + 1) < children.count by omega)
      rw [show id + 1 + (lower - (id + 1)) = lower by omega, under] at placed
      have bound := inside_bound placed.symm
      omega

theorem within_antisymm (unique : states.names.Nodup) (declared : inner ∈ states.names)
    (below : states.Within inner outer) (above : states.Within outer inner) : inner = outer := by
  obtain ⟨lower, body, under⟩ := name_placed declared
  obtain ⟨id, content, around⟩ := name_placed (within_declared declared below)
  have first := (within_block unique under around).mp below
  have second := (within_block unique around under).mp above
  have same : lower = id := Nat.le_antisymm second.1 first.1
  rw [same, around] at under
  cases under
  rfl

theorem within_trans (unique : states.names.Nodup) (declared : inner ∈ states.names)
    (first : states.Within inner middle) (second : states.Within middle outer) : states.Within inner outer := by
  have known := within_declared declared first
  obtain ⟨lower, body, under⟩ := name_placed declared
  obtain ⟨mid, between, half⟩ := name_placed known
  obtain ⟨id, content, around⟩ := name_placed (within_declared known second)
  have short := (within_block unique under half).mp first
  have long := (within_block unique half around).mp second
  have ends := block_ends half around long.1 long.2
  exact (within_block unique under around).mpr ⟨by omega, by omega⟩

-- Both blocks hold the inner name. The one that begins later begins inside the other.
theorem within_chain (unique : states.names.Nodup) (declared : inner ∈ states.names)
    (one : states.Within inner middle) (other : states.Within inner outer) :
    states.Within middle outer ∨ states.Within outer middle := by
  obtain ⟨lower, body, under⟩ := name_placed declared
  obtain ⟨mid, between, half⟩ := name_placed (within_declared declared one)
  obtain ⟨id, content, around⟩ := name_placed (within_declared declared other)
  have first := (within_block unique under half).mp one
  have second := (within_block unique under around).mp other
  rcases Nat.le_total id mid with before | behind
  · exact .inl ((within_block unique half around).mpr ⟨before, by omega⟩)
  · exact .inr ((within_block unique around half).mpr ⟨behind, by omega⟩)

theorem leavesOf_nested (unique : states.names.Nodup) (under : (inner, body) ∈ states.declared)
    (above : (outer, content) ∈ states.declared) (within : states.Within inner outer) :
    leavesOf inner body <:+: leavesOf outer content := by
  rcases within with rfl | ⟨children, group, inside⟩
  · cases declared_unique unique under above
    exact List.infix_refl _
  · cases declared_unique unique group above
    obtain ⟨own, entry⟩ := mem_names.mp inside
    cases declared_unique unique ((declared_inside group).subset entry) under
    exact leavesOf_segment entry

theorem leavesOf_apart (unique : states.names.Nodup) (one : (inner, body) ∈ states.declared)
    (other : (outer, content) ∈ states.declared) (notWithin : ¬ states.Within inner outer)
    (notAround : ¬ states.Within outer inner) : (leavesOf inner body).Disjoint (leavesOf outer content) := by
  intro leaf here there
  obtain ⟨value, first⟩ := (mem_leavesOf unique one).mp here
  obtain ⟨-, second⟩ := (mem_leavesOf unique other).mp there
  rcases within_chain unique (states.leafNames_subset value) first second with within | around
  · exact notWithin within
  · exact notAround around

end Forest

namespace Attribute

-- The states of the declared names, ordered by what they lie within, and their leaves.
structure Nested (attr : Attribute) (states : Forest) : Prop where
  denoted : ∀ name ∈ states.names, ∃ state, attr.state? name = some state ∧ state.name = name
  reflexive : ∀ {a one}, attr.state? a = some one → one.isWithin a
  antisymmetric : ∀ {a b one other}, attr.state? a = some one → attr.state? b = some other →
    one.isWithin b → other.isWithin a → a = b
  transitive : ∀ {a b c one other}, attr.state? a = some one → attr.state? b = some other →
    one.isWithin b → other.isWithin c → one.isWithin c
  chain : ∀ {a b c one other third}, attr.state? a = some one → attr.state? b = some other →
    attr.state? c = some third → one.isWithin b → one.isWithin c → other.isWithin c ∨ third.isWithin b
  segment : ∀ {a b one other}, attr.state? a = some one → attr.state? b = some other →
    one.isWithin b → one.leaves <:+: other.leaves
  apart : ∀ {a b one other}, attr.state? a = some one → attr.state? b = some other →
    ¬ one.isWithin b → ¬ other.isWithin a → one.leaves.Disjoint other.leaves

variable {name : String} {initial : StateName} {events : List String} {options : Options}

theorem nested_of_compiled {attr : Attribute}
    (compiled : Attribute.compile name initial events options states = .ok attr) : attr.Nested states := by
  have origin := compiled_from compiled
  have unique := origin.well.unique
  constructor
  case denoted =>
    intro name declared
    obtain ⟨body, entry⟩ := Forest.mem_names.mp declared
    obtain ⟨state, found, -, named, -⟩ := origin.state_placed entry
    exact ⟨state, found, named⟩
  case reflexive =>
    intro a one own
    exact (origin.state_isWithin own a).mpr (.inl rfl)
  case antisymmetric =>
    intro a b one other own around below above
    rw [origin.state_isWithin own] at below
    rw [origin.state_isWithin around] at above
    exact Forest.within_antisymm unique (origin.state_name own).2 below above
  case transitive =>
    intro a b c one other own around first second
    rw [origin.state_isWithin own] at first ⊢
    rw [origin.state_isWithin around] at second
    exact Forest.within_trans unique (origin.state_name own).2 first second
  case chain =>
    intro a b c one other third own around beyond first second
    rw [origin.state_isWithin own] at first second
    rw [origin.state_isWithin around, origin.state_isWithin beyond]
    exact Forest.within_chain unique (origin.state_name own).2 first second
  case segment =>
    intro a b one other own around within
    obtain ⟨body, entry, leaves⟩ := origin.leaves_found own
    obtain ⟨content, outside, more⟩ := origin.leaves_found around
    rw [leaves, more]
    exact Forest.leavesOf_nested unique entry outside ((origin.state_isWithin own b).mp within)
  case apart =>
    intro a b one other own around notWithin notAround
    obtain ⟨body, entry, leaves⟩ := origin.leaves_found own
    obtain ⟨content, outside, more⟩ := origin.leaves_found around
    rw [origin.state_isWithin own] at notWithin
    rw [origin.state_isWithin around] at notAround
    rw [leaves, more]
    exact Forest.leavesOf_apart unique entry outside notWithin notAround

-- The later reading of a document lies in its review, and what is published lies outside it.
theorem late_nested :
    Attribute.compile "state" "draft" [] {} documentStates = .ok document ∧
      ∃ late review published, document.state? "late" = some late ∧ document.state? "review" = some review ∧
        document.state? "published" = some published ∧ late.leaves <:+: review.leaves ∧
        review.leaves.Disjoint published.leaves := by
  have compiled : Attribute.compile "state" "draft" [] {} documentStates = .ok document := rfl
  have nested := nested_of_compiled compiled
  have late : document.state? "late" = some ⟨document, 3, _⟩ := rfl
  have review : document.state? "review" = some ⟨document, 1, _⟩ := rfl
  have published : document.state? "published" = some ⟨document, 5, _⟩ := rfl
  refine ⟨compiled, _, _, _, late, review, published, nested.segment late review ?_, ?_⟩
  · decide +kernel
  · exact nested.apart review published (by decide +kernel) (by decide +kernel)

end Attribute
end StateAttributes
