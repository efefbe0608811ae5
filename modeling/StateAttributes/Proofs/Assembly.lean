import Mathlib.Data.List.Induction
import StateAttributes.Proofs.Independence

namespace StateAttributes

-- The ways to hand an attribute in. A compiled one was a draft before.
inductive Entry where
  | parts (name : String) (initial : StateName) (events : List String) (states : Forest)
  | draft (written : Draft)
  | config (data : Config)
  | compiled (attr : Attribute) (origin : ∃ draft : Draft, draft.compile = .ok attr)

namespace Entry

def ofParts (name : String) (initial : StateName) (events : List String) (states : Forest) : Draft :=
  { name, initial? := some initial, events, states? := some states }

def definition : Entry → Except CompileError Attribute
  | .parts name initial events states => (ofParts name initial events states).compile
  | .draft written => written.compile
  | .config data => data.compile
  | .compiled attr _ => .ok attr

theorem definition_compiled {entry : Entry} (defined : entry.definition = .ok attr) :
    ∃ draft : Draft, draft.compile = .ok attr := by
  cases entry with
  | parts name initial events states => exact ⟨ofParts name initial events states, defined⟩
  | draft written => exact ⟨written, defined⟩
  | config data => exact ⟨data.toDraft, defined⟩
  | compiled other origin =>
    cases defined
    exact origin

end Entry

-- The definition that counts for a name: the last one of its own, and the parent's where it has none.
def inForce (above own : List Attribute) (name : String) : Option Attribute :=
  (own.filter (·.name == name)).getLast?.or (above.find? (·.name == name))

theorem inForce_newest (above own : List Attribute) (attr : Attribute) (name : String) :
    inForce above (own ++ [attr]) name = if attr.name = name then some attr else inForce above own name := by
  unfold inForce
  split
  · rename_i named
    have kept : [attr].filter (·.name == name) = [attr] := by simp [named]
    rw [List.filter_append, kept, List.getLast?_concat, Option.some_or]
  · rename_i different
    have dropped : [attr].filter (·.name == name) = [] := by simp [different]
    rw [List.filter_append, dropped, List.append_nil]

theorem inForce_none {above own : List Attribute} : inForce above own name = none ↔
    name ∉ own.map (·.name) ∧ name ∉ above.map (·.name) := by
  simp only [inForce, Option.or_eq_none_iff, List.getLast?_eq_none_iff, List.filter_eq_nil_iff,
    List.find?_eq_none, beq_iff_eq, List.mem_map, not_exists, not_and]

theorem addNew_append (listed more : List StateName) (name : StateName) :
    addNew listed (more ++ [name]) =
      if name ∈ addNew listed more then addNew listed more else addNew listed more ++ [name] := by
  simp [addNew]

namespace Slots

variable {entries : List (String × Option StateName)}

theorem lookup_inserts (slots : Slots) (unique : (entries.map (·.1)).Nodup) (key : String) :
    (entries.foldl (fun slots entry => slots.insert entry.1 entry.2) slots).lookup key =
      (entries.lookup key).or (slots.lookup key) := by
  induction entries generalizing slots with
  | nil => rfl
  | cons first rest ih =>
    rw [List.map_cons, List.nodup_cons] at unique
    rw [List.foldl_cons, ih _ unique.2]
    by_cases own : key = first.1
    · have later : rest.lookup key = none := by
        rw [List.lookup_eq_none_iff]
        intro entry member
        have different : key ≠ entry.1 := by
          intro same
          exact unique.1 (own ▸ same ▸ List.mem_map_of_mem member)
        simp [different]
      rw [later, own, lookup_insert_self, List.lookup_cons, beq_self_eq_true]
      rfl
    · have skip : (key == first.1) = false := beq_false_of_ne own
      rw [lookup_insert_other _ _ own, List.lookup_cons, skip]

theorem mem_keys {slots : Slots} {key : String} : key ∈ slots.keys ↔ slots.lookup key ≠ none := by
  unfold keys
  constructor
  · intro member
    obtain ⟨entry, stored, rfl⟩ := List.mem_map.mp member
    rw [(slots.mem_entries _ _).mp stored]
    exact Option.some_ne_none _
  · intro present
    obtain ⟨value, found⟩ := Option.ne_none_iff_exists'.mp present
    exact List.mem_map_of_mem ((slots.mem_entries key value).mpr found)

theorem keys_nodup (slots : Slots) : slots.keys.Nodup :=
  (List.pairwise_map.mpr slots.ascending).imp fun before => String.ne_of_lt before

end Slots

namespace Registry

variable {H : Type} {start registry : Registry H} {above own : List Attribute} {name : String}

theorem find_replaceFirst_own {attributes : List Attribute} (known : attr.name ∈ attributes.map (·.name)) :
    (replaceFirst attr attributes).find? (·.name == attr.name) = some attr := by
  induction attributes with
  | nil => cases known
  | cons existing rest ih =>
    unfold replaceFirst
    split
    · simp
    · rename_i different
      have later : attr.name ∈ rest.map (·.name) := by
        apply (List.mem_cons.mp known).resolve_left
        intro same
        exact different (beq_iff_eq.mpr same.symm)
      rw [List.find?_cons, eq_false_of_ne_true different]
      exact ih later

theorem find_replaceFirst_other (different : attr.name ≠ name) (attributes : List Attribute) :
    (replaceFirst attr attributes).find? (·.name == name) = attributes.find? (·.name == name) := by
  induction attributes with
  | nil => rfl
  | cons existing rest ih =>
    unfold replaceFirst
    split
    · rename_i same
      have other : existing.name ≠ name := eq_of_beq same ▸ different
      simp [different, other]
    · simp only [List.find?_cons, ih]

theorem register_spec (registry : Registry H) (attr : Attribute) (name : String) :
    (registry.register attr).1.spec? name = if attr.name = name then some attr else registry.spec? name := by
  unfold register
  by_cases known : attr.name ∈ registry.names
  · rw [if_pos (spec_isSome.mpr known)]
    split
    · rename_i own
      subst own
      exact find_replaceFirst_own known
    · rename_i different
      exact find_replaceFirst_other different _
  · have absent : registry.spec? attr.name = none := spec_none.mpr known
    have added : (registry.attributes ++ [attr]).find? (·.name == name) =
        (registry.spec? name).or ([attr].find? (·.name == name)) := List.find?_append
    rw [absent]
    apply added.trans
    split
    · rename_i own
      subst own
      simp [absent]
    · rename_i different
      simp [different]

-- A builder starts from nothing, or from the attributes of a finished registry.
inductive Begins : Registry H → List Attribute → Prop where
  | empty : Begins empty []
  | inherit {P : Type} {parent : Registry P} (built : parent.Built) : Begins parent.inherit parent.attributes

theorem Begins.built (begins : start.Begins above) : start.Built := by
  cases begins with
  | empty => exact .empty
  | inherit built => exact .inherit built

theorem Begins.attributes_eq (begins : start.Begins above) : start.attributes = above := by
  cases begins <;> rfl

def enter (registry : Registry H) : Entry → Except CompileError (Registry H)
  | .parts name initial events states => (·.1) <$> registry.declare (Entry.ofParts name initial events states)
  | .draft written => (·.1) <$> registry.declare written
  | .config data => (·.1) <$> registry.declare data.toDraft
  | .compiled attr _ => .ok (registry.register attr).1

def enterAll (registry : Registry H) (entries : List Entry) : Except CompileError (Registry H) :=
  entries.foldlM enter registry

def extend (registry : Registry H) (own : List Attribute) : Registry H :=
  own.foldl (fun registry attr => (registry.register attr).1) registry

theorem declare_registry (registry : Registry H) (draft : Draft) :
    (·.1) <$> registry.declare draft = (fun attr => (registry.register attr).1) <$> draft.compile := by
  unfold declare
  cases draft.compile <;> rfl

-- However an attribute is handed in, it is compiled and then stored.
theorem enter_eq (registry : Registry H) (entry : Entry) :
    registry.enter entry = (fun attr => (registry.register attr).1) <$> entry.definition := by
  cases entry with
  | parts name initial events states => exact declare_registry _ _
  | draft written => exact declare_registry _ _
  | config data => exact declare_registry _ _
  | compiled attr origin => rfl

theorem enter_ok {entry : Entry} (done : start.enter entry = .ok registry) :
    ∃ attr, entry.definition = .ok attr ∧ registry = (start.register attr).1 := by
  rw [enter_eq] at done
  cases defined : entry.definition with
  | error error =>
    rw [defined] at done
    cases done
  | ok attr =>
    rw [defined] at done
    cases done
    exact ⟨attr, rfl, rfl⟩

theorem enterAll_ok {entries : List Entry} (built : start.Built) (done : start.enterAll entries = .ok registry) :
    ∃ own, entries.mapM Entry.definition = .ok own ∧ registry = start.extend own ∧ registry.Built := by
  unfold enterAll at done
  induction entries generalizing start with
  | nil =>
    cases done
    exact ⟨[], rfl, rfl, built⟩
  | cons entry rest ih =>
    rw [List.foldlM_cons] at done
    cases first : start.enter entry with
    | error error =>
      rw [first] at done
      cases done
    | ok next =>
      rw [first] at done
      obtain ⟨attr, defined, rfl⟩ := enter_ok first
      obtain ⟨draft, compiled⟩ := Entry.definition_compiled defined
      obtain ⟨own, others, extended, after⟩ := ih (built.register draft compiled) done
      refine ⟨attr :: own, ?_, extended, after⟩
      rw [List.mapM_cons, defined, others]
      rfl

theorem extend_newest (registry : Registry H) (own : List Attribute) (attr : Attribute) :
    registry.extend (own ++ [attr]) = ((registry.extend own).register attr).1 := by
  unfold extend
  rw [List.foldl_append, List.foldl_cons, List.foldl_nil]

-- The induction goes from the last registration back, since the newest definition is the one that counts.
theorem extend_spec (registry : Registry H) (own : List Attribute) (name : String) :
    (registry.extend own).spec? name = inForce registry.attributes own name := by
  induction own using List.reverseRecOn with
  | nil => rfl
  | append_singleton own attr ih => rw [extend_newest, register_spec, inForce_newest, ih]

theorem extend_names (registry : Registry H) (own : List Attribute) :
    (registry.extend own).names = addNew registry.names (own.map (·.name)) := by
  induction own using List.reverseRecOn with
  | nil => rfl
  | append_singleton own attr ih =>
    rw [extend_newest, register_names, List.map_append, List.map_singleton, addNew_append, ih]

theorem lookup_defaults (attributes : List Attribute) (name : String) :
    (attributes.map fun attr => (attr.name, some attr.initial)).lookup name =
      (attributes.find? (·.name == name)).map fun attr => some attr.initial := by
  induction attributes with
  | nil => rfl
  | cons first rest ih =>
    rw [List.map_cons, List.lookup_cons, List.find?_cons, ih, BEq.comm]
    cases first.name == name <;> rfl

namespace Sound

variable (sound : registry.Sound)
include sound

theorem spec_own (member : attr ∈ registry.attributes) : registry.spec? attr.name = some attr := by
  obtain ⟨found, spec⟩ := Option.ne_none_iff_exists'.mp (spec_registered member)
  have named : found.name = attr.name := by simpa using List.find?_some spec
  rw [spec, sound.same_name (List.mem_of_find?_eq_some spec) member named]

theorem newValues_lookup (name : String) : registry.newValues.current.lookup name =
    (registry.spec? name).map fun attr => some attr.initial := by
  have unique : ((registry.attributes.map fun attr => (attr.name, some attr.initial)).map (·.1)).Nodup := by
    rw [List.map_map]
    exact sound.unique
  apply (Slots.lookup_inserts .empty unique name).trans
  rw [lookup_defaults, show Slots.empty.lookup name = none from rfl, Option.or_none]
  rfl

theorem newValues_keys : registry.newValues.current.keys.Perm registry.names := by
  apply (List.perm_ext_iff_of_nodup (Slots.keys_nodup _) sound.unique).mpr
  intro name
  rw [Slots.mem_keys, sound.newValues_lookup, Ne, Option.map_eq_none_iff, spec_none, not_not]

theorem newValues_changes (member : attr ∈ registry.attributes) :
    registry.newValues.changes? attr.name = some (none, some attr.initial) := by
  have nothing : registry.newValues.committed.get attr.name = none := rfl
  simp [Values.changes?, nothing, sound.newValues_get member]

end Sound

-- What a finished registry is to its parent's attributes and the definitions that were handed in, in order.
structure Assembled [Stateful H] (registry : Registry H) (above own : List Attribute) : Prop where
  unique : registry.names.Nodup
  spec : ∀ name, registry.spec? name = inForce above own name
  handle : ∀ name machine, registry.machine name = .ok machine ↔
    ∃ attr, inForce above own name = some attr ∧ machine = registry.machineOf attr
  unknown : ∀ name error, registry.machine name = .error error ↔
    error = ⟨name⟩ ∧ name ∉ own.map (·.name) ∧ name ∉ above.map (·.name)
  order : registry.names = addNew (above.map (·.name)) (own.map (·.name))
  listed : ∀ attr ∈ registry.attributes, inForce above own attr.name = some attr
  slots : ∀ name, registry.newValues.current.lookup name =
    (inForce above own name).map fun attr => some attr.initial
  keys : registry.newValues.current.keys.Perm registry.names
  leaf : ∀ attr ∈ registry.attributes, attr.isLeaf attr.initial
  changes : ∀ attr ∈ registry.attributes,
    registry.newValues.changes? attr.name = some (none, some attr.initial)
  valid : ∀ host : H, Stateful.values host = registry.newValues →
    ∀ attr ∈ registry.attributes, (registry.machineOf attr).isValid host
  included : ∀ host : H, Stateful.values host = registry.newValues → registry.validate host = []

theorem enterAll_assembled [Stateful H] {entries : List Entry} (begins : start.Begins above)
    (done : start.enterAll entries = .ok registry) :
    ∃ own, entries.mapM Entry.definition = .ok own ∧ registry.Assembled above own := by
  obtain ⟨own, defined, extended, built⟩ := enterAll_ok begins.built done
  have sound := built.sound
  have spec : ∀ name, registry.spec? name = inForce above own name := by
    intro name
    rw [extended, extend_spec, begins.attributes_eq]
  have inOrder : ∀ host : H, Stateful.values host = registry.newValues → registry.InOrder host := by
    intro host fresh
    apply onCourse_inOrder sound
    rw [fresh]
    exact newValues_onCourse sound
  refine ⟨own, defined, ?_⟩
  constructor
  case unique => exact sound.unique
  case spec => exact spec
  case handle =>
    intro name machine
    unfold Registry.machine
    rw [spec]
    cases inForce above own name <;> simp [eq_comm]
  case unknown =>
    intro name error
    rw [← inForce_none]
    unfold Registry.machine
    rw [spec]
    cases inForce above own name <;> simp [eq_comm]
  case order =>
    rw [extended, extend_names, names, begins.attributes_eq]
  case listed =>
    intro attr member
    rw [← spec]
    exact sound.spec_own member
  case slots =>
    intro name
    rw [sound.newValues_lookup, spec]
  case keys => exact sound.newValues_keys
  case leaf =>
    intro attr member
    obtain ⟨states, compiled⟩ := sound.compiled attr member
    exact (compiled.isLeaf_iff _).mpr compiled.well.initial_leaf
  case changes => exact fun attr member => sound.newValues_changes member
  case valid => exact fun host fresh => (inOrder host fresh).valid
  case included => exact fun host fresh => (inOrder host fresh).included

-- A branch office takes over the archive and adds its stages. Its own branch reprints copies, shadows
-- the stages, and changes its mind on formats.
def stageStates : Forest := .leaf "open" (.one "closed") (.leaf "closed" .terminal .nil)

def stage : Attribute := ⟨"stage", "open", [], {}, stageStates.table⟩

def branch : Registry Values := ((copyRoom.inherit : Registry Values).register stage).1

def branchEntries : List Entry :=
  [.config ⟨"copy", "draft", ["reprint"], copyStates, "", true, none⟩,
    .parts "format" "open" [] stageStates,
    .compiled stage ⟨Entry.ofParts "stage" "open" [] stageStates, rfl⟩,
    .draft (Entry.ofParts "format" "closed" [] stageStates)]

theorem branch_built : branch.Built := by
  have document : (Entry.ofParts "state" "draft" [] Attribute.documentStates).compile = .ok .document := rfl
  have copied : (Entry.ofParts "copy" "draft" [] copyStates).compile = .ok copy := rfl
  have archive : copyRoom.Built := ((Built.empty.register _ document).register _ copied).observe logger
  exact archive.inherit.register (Entry.ofParts "stage" "open" [] stageStates) rfl

theorem branch_assembled : branch.Built ∧ ∃ registry,
    (branch.inherit : Registry Values).enterAll branchEntries = .ok registry ∧
      registry.names = ["state", "copy", "stage", "format"] ∧
      ∃ own, branchEntries.mapM Entry.definition = .ok own ∧ registry.Assembled branch.attributes own :=
  ⟨branch_built, _, rfl, rfl, enterAll_assembled (.inherit branch_built) rfl⟩

end Registry
end StateAttributes
