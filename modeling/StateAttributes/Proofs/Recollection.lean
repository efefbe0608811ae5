import StateAttributes.Proofs.Ancestry

namespace StateAttributes

variable {states : Forest} {id : Nat} {memo : Memo}

namespace Table

-- The same question, but that the answers for the children are put one behind the other.
def gatherFrom (table : Table) (id : Nat) (memo : Memo) : List StateName × Memo :=
  match memo.flattened.lookup id with
  | some known => (known, memo)
  | none =>
    match table.nodes[id]? with
    | none => ([], memo)
    | some node =>
      match node.kind with
      | .leaf _ => ([node.name], { memo with flattened := (id, [node.name]) :: memo.flattened })
      | .group children =>
        let (names, memo) := children.foldl (fun (names, memo) child =>
          if _inside : id < child ∧ child < table.size then
            let (more, memo) := table.gatherFrom child memo
            (names ++ more, memo)
          else (names, memo)) ([], memo)
        (names, { memo with flattened := (id, names) :: memo.flattened })
termination_by table.size - id
decreasing_by omega

def gatherInto (table : Table) (id : Nat) (state : List StateName × Memo) (child : Nat) :
    List StateName × Memo :=
  if id < child ∧ child < table.size then
    (state.1 ++ (table.gatherFrom child state.2).1, (table.gatherFrom child state.2).2)
  else state

variable {table : Table}

theorem gatherFrom_group (unknown : memo.flattened.lookup id = none)
    (stored : table.nodes[id]? = some ⟨name, outer, .group children⟩) :
    table.gatherFrom id memo =
      ((children.foldl (table.gatherInto id) ([], memo)).1,
        { (children.foldl (table.gatherInto id) ([], memo)).2 with
          flattened := (id, (children.foldl (table.gatherInto id) ([], memo)).1) ::
            (children.foldl (table.gatherInto id) ([], memo)).2.flattened }) := by
  rw [gatherFrom, unknown, stored]
  rfl

def Gathers (table : Table) (id : Nat) : Prop :=
  ∀ memo : Memo, memo.Sound table → table.gatherFrom id memo = table.flattenFrom id memo

theorem gatherInto_fold {children : List Nat}
    (each : ∀ child ∈ children,
      (id < child ∧ child < table.size) ∧ table.Flattens child ∧ table.Gathers child)
    (listed : List StateName) (distinct : (listed ++ children.flatMap table.leavesUnder).Nodup)
    (sound : memo.Sound table) :
    children.foldl (table.gatherInto id) (listed, memo) = children.foldl (table.flattenInto id) (listed, memo) := by
  induction children generalizing listed memo with
  | nil => rfl
  | cons child rest ih =>
    obtain ⟨inside, flattens, gathers⟩ := each child List.mem_cons_self
    obtain ⟨answer, kept⟩ := flattens memo sound
    rw [List.flatMap_cons, ← List.append_assoc] at distinct
    have added : addNew listed (table.leavesUnder child) = listed ++ table.leavesUnder child :=
      addNew_fresh _ _ (List.nodup_append.mp distinct).1
    rw [List.foldl_cons, List.foldl_cons, gatherInto, flattenInto, if_pos inside, if_pos inside,
      gathers memo sound, answer, added]
    exact ih (fun other member => each other (List.mem_cons_of_mem _ member)) _ distinct kept

end Table

namespace Forest

-- The induction is the one of the expansion itself: children stand behind their group.
theorem table_gathers (unique : states.names.Nodup) (id : Nat) : states.table.Gathers id := by
  generalize behind : states.table.size - id = room
  induction room using Nat.strongRecOn generalizing id with
  | ind room ih =>
    intro memo sound
    cases known : memo.flattened.lookup id with
    | some names => rw [Table.gatherFrom, Table.flattenFrom, known]
    | none =>
      cases stored : states.table.nodes[id]? with
      | none => rw [Table.gatherFrom, Table.flattenFrom, known, stored]
      | some node =>
        obtain ⟨name, outer, kind⟩ := node
        cases kind with
        | leaf targets => rw [Table.gatherFrom, Table.flattenFrom, known, stored]
        | group children =>
          have inside := table_children stored
          have distinct := leavesUnder_distinct unique id
          rw [Table.leavesUnder_group stored inside] at distinct
          have each : ∀ child ∈ children, (id < child ∧ child < states.table.size) ∧
              states.table.Flattens child ∧ states.table.Gathers child := by
            intro child member
            have bound := inside child member
            exact ⟨bound, table_flattens unique child, ih _ (by omega) child rfl⟩
          rw [Table.gatherFrom_group known stored, Table.flattenFrom_group known stored,
            Table.gatherInto_fold each [] distinct sound]

end Forest

-- A question to a compiled attribute whose answer it keeps.
inductive Question where
  | flatten (name : StateName)
  | transitions (name : StateName)
deriving DecidableEq, Repr

namespace Attribute

-- The leaves that a name stands for, and what is known after the question.
def flattenFrom? (attr : Attribute) (name : StateName) (memo : Memo) : Option (List StateName) × Memo :=
  match attr.table.find? name with
  | none => (none, memo)
  | some id => (some (attr.table.flattenFrom id memo).1, (attr.table.flattenFrom id memo).2)

def knownAfter (attr : Attribute) (memo : Memo) : Question → Memo
  | .flatten name => (attr.flattenFrom? name memo).2
  | .transitions name =>
    match attr.table.find? name with
    | none => memo
    | some id => (attr.table.transitionsFrom id memo).2

def known (attr : Attribute) (asked : List Question) : Memo := asked.foldl attr.knownAfter .empty

namespace CompiledFrom

variable {attr : Attribute} (compiled : attr.CompiledFrom states)
include compiled

theorem flattens (id : Nat) : attr.table.Flattens id := by
  rw [compiled.table_eq]
  exact Forest.table_flattens compiled.well.unique id

theorem knownAfter_sound (sound : memo.Sound attr.table) (question : Question) :
    (attr.knownAfter memo question).Sound attr.table := by
  cases question with
  | flatten name =>
    simp only [knownAfter, flattenFrom?]
    cases attr.table.find? name with
    | none => exact sound
    | some id => exact (compiled.flattens id memo sound).2
  | transitions name =>
    simp only [knownAfter]
    cases attr.table.find? name with
    | none => exact sound
    | some id => exact (Table.transitionsFrom_exact compiled.flattens id sound).2

theorem known_sound (asked : List Question) : (attr.known asked).Sound attr.table := by
  have run : ∀ memo : Memo, memo.Sound attr.table → (asked.foldl attr.knownAfter memo).Sound attr.table := by
    induction asked with
    | nil => exact fun _ sound => sound
    | cons question rest ih => exact fun memo sound => ih _ (compiled.knownAfter_sound sound question)
  exact run .empty (Memo.empty_sound _)

theorem flattenFrom_state {inner : StateName} (sound : memo.Sound attr.table)
    (found : attr.state? inner = some state) : (attr.flattenFrom? inner memo).1 = some state.leaves := by
  obtain ⟨position, owner⟩ := state_position found
  simp only [flattenFrom?, position]
  rw [(compiled.flattens state.id memo sound).1, State.leaves, owner]

theorem flattenFrom_none (inner : StateName) (memo : Memo) :
    (attr.flattenFrom? inner memo).1 = none ↔ inner ∉ states.names := by
  rw [← compiled.contains_iff, contains, Table.contains, flattenFrom?]
  cases attr.table.find? inner <;> simp

end CompiledFrom

-- How a name is answered after any questions, and that nothing was dropped on the way.
structure Recollects (attr : Attribute) (states : Forest) (asked : List Question) : Prop where
  declared : ∀ inner ∈ states.names, ∃ state, attr.state? inner = some state ∧ state.name = inner ∧
    (attr.flattenFrom? inner (attr.known asked)).1 = some state.leaves
  undeclared : ∀ inner, (attr.flattenFrom? inner (attr.known asked)).1 = none ↔ inner ∉ states.names
  afresh : ∀ inner, (attr.flattenFrom? inner (attr.known asked)).1 = attr.flatten? inner
  whole : ∀ id, attr.table.flattenFrom id (attr.known asked) = attr.table.gatherFrom id (attr.known asked)

variable {name : String} {initial : StateName} {events : List String} {options : Options}

theorem recollects_of_compiled {attr : Attribute}
    (compiled : Attribute.compile name initial events options states = .ok attr) (asked : List Question) :
    attr.Recollects states asked := by
  have origin := compiled_from compiled
  have sound := origin.known_sound asked
  constructor
  case declared =>
    intro inner declared
    obtain ⟨body, entry⟩ := Forest.mem_names.mp declared
    obtain ⟨state, found, -, named, -⟩ := origin.state_placed entry
    exact ⟨state, found, named, origin.flattenFrom_state sound found⟩
  case undeclared => exact fun inner => origin.flattenFrom_none inner _
  case afresh =>
    intro inner
    rw [flatten?, flattenFrom?]
    cases attr.table.find? inner with
    | none => rfl
    | some id =>
      have first := (origin.flattens id .empty (Memo.empty_sound _)).1
      have later := (origin.flattens id _ sound).1
      simp only [Option.map_some, Table.flatten, first, later]
  case whole =>
    intro id
    rw [origin.table_eq] at sound ⊢
    exact (Forest.table_gathers origin.well.unique id _ sound).symm

-- The review is asked for after the late group in it, and after a leaf that leads to the review.
theorem review_recollected :
    Attribute.compile "state" "draft" [] {} documentStates = .ok document ∧
      (document.flattenFrom? "review" (document.known [.flatten "late", .transitions "second", .flatten "none"])).1 =
        some ["first", "second"] := by
  have compiled : Attribute.compile "state" "draft" [] {} documentStates = .ok document := rfl
  obtain ⟨state, found, -, answer⟩ := (recollects_of_compiled compiled
    [.flatten "late", .transitions "second", .flatten "none"]).declared "review" (by decide)
  have entry : ("review", Body.group _) ∈ documentStates.declared := .tail _ (.head _)
  rw [(compiled_from compiled).state_leaves entry found] at answer
  exact ⟨compiled, answer⟩

end Attribute
end StateAttributes
