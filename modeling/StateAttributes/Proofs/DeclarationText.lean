import StateAttributes.Config
import StateAttributes.Proofs.WrittenText

namespace StateAttributes

open Json

theorem Targets.isPlain_toJson (targets : Targets) : targets.toJson.isPlain := by
  cases targets with
  | terminal => rfl
  | one name => rfl
  | many names => exact isPlain_strings names

theorem Forest.arePlain_toFields (forest : Forest) : forest.toFields.arePlain := by
  induction forest with
  | nil => rfl
  | leaf name targets rest ih => simp [toFields, Fields.arePlain, targets.isPlain_toJson, ih]
  | group name children rest inner ih => simp [toFields, Fields.arePlain, Value.isPlain, inner, ih]

theorem Body.isPlain_toJson (body : Body) : body.toJson.isPlain := by
  cases body with
  | leaf targets => exact targets.isPlain_toJson
  | group children => exact children.arePlain_toFields

theorem names_strings (names : List StateName) : (Items.ofList (names.map Value.string)).names? = some names := by
  induction names with
  | nil => rfl
  | cons name rest ih => simp [Items.ofList, Items.names?, Value.string, ih]

theorem ofValue_targets (targets : Targets) : Body.ofValue? targets.toJson = some (.leaf targets) := by
  cases targets with
  | terminal => rfl
  | one name => rfl
  | many names => simp [Targets.toJson, Value.strings, Body.ofValue?, names_strings]

theorem ofFields_toFields (forest : Forest) : Forest.ofFields? forest.toFields = some forest := by
  induction forest with
  | nil => rfl
  | leaf name targets rest ih => simp [Forest.toFields, Forest.ofFields?, ofValue_targets, ih, Forest.cons]
  | group name children rest inner ih =>
    simp [Forest.toFields, Forest.ofFields?, Body.ofValue?, inner, ih, Forest.cons]

theorem ofValue_toJson (body : Body) : Body.ofValue? body.toJson = some body := by
  cases body with
  | leaf targets => exact ofValue_targets targets
  | group children => simp [Body.toJson, Forest.toJson, Body.ofValue?, ofFields_toFields]

theorem Body.read_toJson {body : Body} (shallow : body.toJson.depth ≤ room) :
    Body.read room body.toJson = .ok body := by
  have readable : body.toJson.isReadable room := (body.toJson.isReadable_iff body.isPlain_toJson room).mpr shallow
  simp [Body.read, readable, ofValue_toJson]

namespace Forest

theorem toFields_entries (forest : Forest) :
    forest.toFields = .ofList (forest.entries.map fun (name, body) => (name, body.toJson)) := by
  induction forest with
  | nil => rfl
  | leaf name targets rest ih => simp [toFields, entries, Fields.ofList, Body.toJson, ih]
  | group name children rest inner ih => simp [toFields, entries, Fields.ofList, Body.toJson, toJson, ih]

theorem ofEntries_entries (forest : Forest) : ofEntries forest.entries = forest := by
  induction forest with
  | nil => rfl
  | leaf name targets rest ih => exact congrArg (Forest.leaf name targets) ih
  | group name children rest inner ih => exact congrArg (Forest.group name children) ih

theorem read_toJson {forest : Forest} (shallow : forest.toJson.depth ≤ room) :
    Forest.read room forest.toJson = .ok forest := by
  rw [toJson, Value.depth, toFields_entries] at shallow
  obtain ⟨room, rfl⟩ : ∃ less, room = less + 1 := ⟨room - 1, by omega⟩
  have bodies := (depth_fields _ room).mp (Nat.le_of_succ_le_succ shallow)
  have reads : forest.toFields.readAll (Body.read room) = .ok forest.entries := by
    rw [toFields_entries]
    refine readAll_fields fun entry member => Body.read_toJson ?_
    exact bodies (entry.1, entry.2.toJson) (List.mem_map_of_mem member)
  simp [Forest.read, toJson, Value.readEntries, enter, reads, bind, Except.bind, Functor.map, Except.map,
    ofEntries_entries]

end Forest

namespace Config

theorem isPlain_toJson (config : Config) : config.toJson.isPlain := by
  have states : config.states.toJson.isPlain := config.states.arePlain_toFields
  cases message : config.message <;>
    simp [toJson, message, Value.isPlain, states]

-- The draft that is full when the last field has been read.
def gathered (config : Config) : Gathered :=
  ⟨some config.name, some config.initial, some config.events, some config.states, some config.scopePrefix,
    some config.allowNil, config.message.map some⟩

theorem fill_toJson {config : Config} (states : Forest.read (room + 1) config.states.toJson = .ok config.states) :
    RecordForm.read form (room + 2) config.toJson = .ok (config.gathered, .object) := by
  refine read_record ?_
  refine (fill_once rfl (readString_string config.name)).trans ?_
  refine (fill_once rfl (readString_string config.initial)).trans ?_
  refine (fill_once rfl (readList_strings room config.events)).trans ?_
  refine (fill_once rfl states).trans ?_
  refine (fill_once rfl (readString_string config.scopePrefix)).trans ?_
  refine (fill_once rfl (show (Value.bool config.allowNil).readBool = _ from rfl)).trans ?_
  cases message : config.message with
  | none => simp [gathered, message, Fields.ofList, Fields.fill, form]
  | some text =>
    refine (fill_once rfl (readOption_ofOption (some text))).trans ?_
    simp [gathered, message, Fields.ofList, Fields.fill, form]

theorem read_toJson {config : Config} (shallow : config.toJson.depth ≤ room) :
    Config.read room config.toJson = .ok config := by
  rw [toJson, Value.depth] at shallow
  obtain ⟨room, rfl⟩ : ∃ less, room = less + 1 := ⟨room - 1, by omega⟩
  have fields := (depth_fields _ room).mp (Nat.le_of_succ_le_succ shallow)
  have inner : config.states.toJson.depth ≤ room := fields ("states", config.states.toJson) (by simp)
  have positive : 1 ≤ config.states.toJson.depth := Nat.le_add_left 1 _
  obtain ⟨room, rfl⟩ : ∃ less, room = less + 1 := ⟨room - 1, by omega⟩
  rw [Config.read, fill_toJson (Forest.read_toJson inner)]
  obtain ⟨name, initial, events, states, scopePrefix, allowNil, message⟩ := config
  cases message <;> rfl

def listToJson (configs : List Config) : Value := .list (.ofList (configs.map toJson))

theorem isPlain_listToJson (configs : List Config) : (listToJson configs).isPlain := by
  simp [listToJson, Value.isPlain, isPlain_toJson]

theorem readList_toJson {configs : List Config} (shallow : (listToJson configs).depth ≤ room) :
    Value.readList Config.read room (listToJson configs) = .ok configs := by
  rw [listToJson, Value.depth] at shallow
  obtain ⟨room, rfl⟩ : ∃ less, room = less + 1 := ⟨room - 1, by omega⟩
  have items := (depth_items _ room).mp (Nat.le_of_succ_le_succ shallow)
  exact readList_items fun config member => read_toJson (items config.toJson (List.mem_map_of_mem member))

-- Reading with as much room as it takes tells declarations apart that nest deeper than a text may.
theorem toText_inj {one other : Config} (same : one.toText = other.toText) : one = other := by
  have json := render_inj one.isPlain_toJson other.isPlain_toJson same
  have first := read_toJson (Nat.le_refl one.toJson.depth)
  rw [json] at first
  exact Except.ok.inj (first.symm.trans (read_toJson (Nat.le_refl other.toJson.depth)))

theorem ofText_toText {config : Config} (shallow : config.toJson.depth ≤ maxNesting) :
    Config.ofText config.toText = .ok config :=
  ofText_render config.isPlain_toJson (read_toJson shallow)

theorem listOfText_render {configs : List Config} (shallow : (listToJson configs).depth ≤ maxNesting) :
    Config.listOfText (listToJson configs).render = .ok configs :=
  ofText_render (isPlain_listToJson configs) (readList_toJson shallow)

-- The same declaration made in code, setting by setting. A message is set only where there is one.
def built (config : Config) : Draft :=
  let named : Draft := { name := config.name }
  let started := { named with initial? := some config.initial, events := config.events }
  let stated := { started with states? := some config.states }
  let stored := { stated with options := { scopePrefix := config.scopePrefix, allowNil := config.allowNil } }
  match config.message with
  | none => stored
  | some message => { stored with options := { stored.options with message := some message } }

theorem compile_built (config : Config) : config.compile = config.built.compile := by
  obtain ⟨name, initial, events, states, scopePrefix, allowNil, message⟩ := config
  cases message <;> rfl

theorem declarations_survive :
    (∀ config : Config, config.toJson.depth ≤ maxNesting →
      Config.ofText config.toText = .ok config ∧
        (Config.ofText config.toText).map compile = .ok config.built.compile) ∧
    (∀ configs : List Config, (listToJson configs).depth ≤ maxNesting →
      Config.listOfText (listToJson configs).render = .ok configs ∧
        (Config.listOfText (listToJson configs).render).map (·.map compile) =
          .ok (configs.map fun config => config.built.compile)) ∧
    (∀ one other : Config, one.toText = other.toText → one = other) ∧
    ∀ one other : Body, one.toJson.render = other.toJson.render → one = other := by
  refine ⟨?_, ?_, fun one other => toText_inj, ?_⟩
  · intro config shallow
    have reads := ofText_toText shallow
    refine ⟨reads, ?_⟩
    rw [reads, ← compile_built]
    rfl
  · intro configs shallow
    have reads := listOfText_render shallow
    refine ⟨reads, ?_⟩
    simp only [reads, ← compile_built]
    rfl
  · intro one other same
    have json := render_inj one.isPlain_toJson other.isPlain_toJson same
    have first := ofValue_toJson one
    rw [json, ofValue_toJson] at first
    exact (Option.some.inj first).symm

-- Two entries of one name, a group without entries, a list of one target and one of none, and names that
-- cannot be written as they are.
def oddStates : Forest :=
  .leaf "a" (.many ["b"])
    (.leaf "a" (.one "b")
      (.group "\"" .nil
        (.group "\\n" (.leaf "\n\x01" (.many []) .nil)
          (.leaf "b" .terminal .nil))))

def odd : Config := ⟨"st\tate", "a", ["go", ""], oddStates, "é", true, some ""⟩

theorem odd_survives :
    odd.toJson.depth ≤ maxNesting ∧ Config.ofText odd.toText = .ok odd ∧
      (listToJson [odd, { odd with message := none }]).depth ≤ maxNesting ∧
        Config.listOfText (listToJson [odd, { odd with message := none }]).render =
          .ok [odd, { odd with message := none }] := by
  have shallow : odd.toJson.depth ≤ maxNesting := by decide
  have both : (listToJson [odd, { odd with message := none }]).depth ≤ maxNesting := by decide
  obtain ⟨single, many, -, -⟩ := declarations_survive
  exact ⟨shallow, (single odd shallow).1, both, (many _ both).1⟩

end Config
end StateAttributes
