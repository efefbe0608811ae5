import StateAttributes.Proofs.Acceptance
import StateAttributes.Proofs.TreeShape

namespace StateAttributes

open Json

-- The keys of a value, in the order of the text and at every depth.
mutual
def Json.Value.keys : Value → List String
  | .list items => items.keys
  | .object fields => fields.keys
  | _ => []
def Json.Items.keys : Items → List String
  | .item value rest => value.keys ++ rest.keys
  | _ => []
def Json.Fields.keys : Fields → List String
  | .field key value rest => key.toList ++ value.keys ++ rest.keys
  | _ => []
end

theorem keys_strings (names : List StateName) : (Value.strings names).keys = [] := by
  rw [Value.strings, Value.keys]
  induction names with
  | nil => rfl
  | cons name rest ih => simpa [Items.ofList, Items.keys, Value.keys, Value.string] using ih

theorem keys_toFields (states : Forest) : states.toFields.keys = states.names := by
  induction states with
  | nil => rfl
  | leaf name targets rest ih =>
    have none : targets.toJson.keys = [] := by
      cases targets with
      | terminal => rfl
      | one name => rfl
      | many names => exact keys_strings names
    simp [Forest.toFields, Fields.keys, none, ih]
  | group name children rest inner ih => simp [Forest.toFields, Fields.keys, Value.keys, inner, ih]

-- What stands for a field: in an object under its name, in a list at its place.
def Json.Fields.value? (key : String) : Fields → Option Value
  | .field name value rest => if name = some key then some value else rest.value? key
  | _ => none

def Json.Items.value? (key : String) : List String → Items → Option Value
  | name :: names, .item value rest => if name = key then some value else rest.value? key names
  | _, _ => none

namespace Config

def states? : Value → Option Value
  | .object fields => fields.value? "states"
  | .list items => items.value? "states" (form 0).keys
  | _ => none

-- Either no states have been read, or those of the one tree that stands there.
def Filled (room : Nat) (tree? : Option Value) (draft final : Gathered) : Prop :=
  (tree? = none ∧ final.states = draft.states) ∨
    draft.states = none ∧ ∃ tree states, tree? = some tree ∧ Forest.read room tree = .ok states ∧
      final.states = some states

theorem fill_ok {readField : Value → Read Gathered} (known : (form room).fill key draft = some readField)
    (reads : readField value = .ok next) :
    value.isWhole ∧ Filled room (if key = "states" then some value else none) draft next := by
  unfold form at known
  dsimp only at known
  split at known <;> cases known
  all_goals
    obtain ⟨absent, found, here, rfl⟩ := once_ok.mp reads
  case h_3.refl => exact ⟨whole_of_readList here fun _ _ _ => whole_of_readString, .inl ⟨rfl, rfl⟩⟩
  case h_4.refl =>
    have same := (Forest.read_iff.mp here).1
    have whole : value.isWhole := same ▸ found.toFields.isWhole_of_plain found.arePlain_toFields
    exact ⟨whole, .inr ⟨absent, value, found, rfl, here, rfl⟩⟩
  case h_6.refl => exact ⟨whole_of_readBool here, .inl ⟨rfl, rfl⟩⟩
  case h_7.refl => exact ⟨whole_of_readOption here fun _ => whole_of_readString, .inl ⟨rfl, rfl⟩⟩
  all_goals exact ⟨whole_of_readString here, .inl ⟨rfl, rfl⟩⟩

theorem Filled.trans (here : Filled room first draft next) (later : Filled room second next final) :
    Filled room (first.or second) draft final := by
  obtain ⟨rfl, kept⟩ | ⟨absent, tree, states, rfl, reads, found⟩ := here
  · rw [Filled, kept] at later
    exact later
  · obtain ⟨rfl, kept⟩ | ⟨other, -⟩ := later
    · exact .inr ⟨absent, tree, states, rfl, reads, kept.trans found⟩
    -- A second tree is not read, as the draft holds states by then.
    · rw [found] at other
      cases other

theorem fill_unknown (unknown : (form room).fill key draft = none) : key ≠ "states" := by
  rintro rfl
  simp [form] at unknown

theorem fields_filled : ∀ {fields : Fields} {draft final : Gathered},
    fields.fill (form room).fill draft = .ok final →
      fields.isWhole ∧ Filled room (fields.value? "states") draft final
  | .closed, _, _, fills => by cases fills; exact ⟨rfl, .inl ⟨rfl, rfl⟩⟩
  | .cut, _, _, fills => by cases fills
  | .field none _ _, _, _, fills => by cases fills
  | .field (some key) value rest, draft, final, fills => by
    unfold Fields.fill at fills
    split at fills
    · rename_i known
      obtain ⟨next, here, later⟩ := bind_ok.mp fills
      obtain ⟨whole, filled⟩ := fill_ok known here
      obtain ⟨others, more⟩ := fields_filled later
      refine ⟨by simp [Fields.isWhole, whole, others], ?_⟩
      have both := filled.trans more
      by_cases named : key = "states" <;> simpa [Fields.value?, named] using both
    · rename_i unknown
      split at fills
      · rename_i whole
        obtain ⟨others, more⟩ := fields_filled fills
        exact ⟨by simp [Fields.isWhole, whole, others], by simpa [Fields.value?, fill_unknown unknown] using more⟩
      · cases fills

theorem items_filled : ∀ {items : Items} {keys : List String} {draft final : Gathered},
    Items.fill (form room).fill keys items draft = .ok final →
      items.isWhole ∧ Filled room (items.value? "states" keys) draft final
  | .closed, keys, _, _, fills => by
    cases keys <;> cases fills <;> exact ⟨rfl, .inl ⟨rfl, rfl⟩⟩
  | .cut, keys, _, _, fills => by cases keys <;> cases fills
  | .item _ _, [], _, _, fills => by cases fills
  | .item value rest, key :: keys, draft, final, fills => by
    unfold Items.fill at fills
    split at fills
    · rename_i known
      obtain ⟨next, here, later⟩ := bind_ok.mp fills
      obtain ⟨whole, filled⟩ := fill_ok known here
      obtain ⟨others, more⟩ := items_filled later
      refine ⟨by simp [Items.isWhole, whole, others], ?_⟩
      have both := filled.trans more
      by_cases named : key = "states" <;> simpa [Items.value?, named] using both
    · cases fills

theorem record_filled (reads : RecordForm.read form room value = .ok (final, origin)) :
    value.isWhole ∧ ∃ inner, Filled inner (states? value) {} final := by
  unfold RecordForm.read at reads
  split at reads
  · obtain ⟨inner, -, reads⟩ := bind_ok.mp reads
    obtain ⟨draft, fills, same⟩ := bind_ok.mp reads
    cases same
    obtain ⟨whole, filled⟩ := fields_filled fills
    exact ⟨whole, inner, filled⟩
  · obtain ⟨inner, -, reads⟩ := bind_ok.mp reads
    obtain ⟨draft, fills, same⟩ := bind_ok.mp reads
    cases same
    obtain ⟨whole, filled⟩ := items_filled fills
    exact ⟨whole, inner, filled⟩
  · exact absurd reads (unexpected_ne _ _ _)

theorem read_states (reads : Config.read room value = .ok config) :
    value.isWhole ∧ ∃ tree inner, states? value = some tree ∧ Forest.read inner tree = .ok config.states := by
  obtain ⟨⟨draft, origin⟩, record, reads⟩ := bind_ok.mp reads
  obtain ⟨name, -, reads⟩ := bind_ok.mp reads
  obtain ⟨initial, -, reads⟩ := bind_ok.mp reads
  obtain ⟨states, given, reads⟩ := bind_ok.mp reads
  cases reads
  replace given := require_ok.mp given
  obtain ⟨whole, inner, filled⟩ := record_filled record
  refine ⟨whole, ?_⟩
  obtain ⟨-, kept⟩ | ⟨-, tree, found, here, reads, same⟩ := filled
  · rw [given] at kept
    cases kept
  · rw [given] at same
    cases same
    exact ⟨tree, inner, here, reads⟩

-- A declaration keeps its states as they stand in its text. If a key stands there twice, the first one that
-- repeats an earlier one is complained about.
def RefusesRepetition (config : Config) (value : Value) : Prop :=
  ∃ tree, states? value = some tree ∧ tree = config.states.toJson ∧
    (¬ tree.keys.Nodup → ∃ before key after, tree.keys = before ++ key :: after ∧ before.Nodup ∧ key ∈ before ∧
      config.compile = .error ⟨config.name, .duplicateName key⟩)

theorem refuses_repetition (reads : Config.read room value = .ok config) : config.RefusesRepetition value := by
  obtain ⟨-, tree, inner, here, reads⟩ := read_states reads
  obtain ⟨rfl, -⟩ := Forest.read_iff.mp reads
  refine ⟨_, here, rfl, fun repeated => ?_⟩
  have keys : config.states.toJson.keys = config.states.names := keys_toFields config.states
  rw [keys] at repeated ⊢
  cases first : firstTaken [] config.states.names with
  | none => exact absurd (distinct_none.mp first) repeated
  | some key =>
    obtain ⟨before, after, split, unique, again⟩ := repeated_some.mp first
    exact ⟨before, key, after, split, unique, again,
      Attribute.compile_error.mpr ⟨rfl, .duplicateName split unique again⟩⟩

end Config

-- A text that spells `value`, read as a body and as the states of a declaration.
structure ReadsTree (text : String) (value : Value) : Prop where
  body : ∀ body, Read.ofText Body.read text = .ok body ↔ value.Level body
  states : ∀ states, Read.ofText Forest.read text = .ok states ↔ value.Level (.group states)
  fits : (∃ body, Read.ofText Body.read text = .ok body) ↔ ∀ inner, value.Holds inner → inner.Fits
  statesFit : (∃ states, Read.ofText Forest.read text = .ok states) ↔
    (∃ entries, value = .object (.ofList entries)) ∧ ∀ inner, value.Holds inner → inner.Fits

theorem reads_tree (spells : Spells text value) (shallow : value.depth ≤ maxNesting) : ReadsTree text value := by
  have body : ∀ body, Read.ofText Body.read text = .ok body ↔ value = body.toJson := by
    intro body
    rw [ofText_spells spells, Body.read_iff, and_iff_left shallow]
  have states : ∀ states, Read.ofText Forest.read text = .ok states ↔ value = states.toJson := by
    intro states
    rw [ofText_spells spells, Forest.read_iff, and_iff_left shallow]
  have fits : (∃ body : Body, value = body.toJson) ↔ ∀ inner, value.Holds inner → inner.Fits := by
    constructor
    · rintro ⟨found, same⟩ inner holds
      obtain ⟨part, rfl⟩ := holds_body holds found same
      exact fits_toJson part
    · exact body_of_fits value
  refine ⟨?_, ?_, ?_, ?_⟩
  · intro found
    rw [body, level_iff shallow]
  · intro found
    rw [states, level_iff shallow]
    rfl
  · simp only [body, fits]
  · simp only [states, ← fits]
    constructor
    · rintro ⟨found, rfl⟩
      exact ⟨⟨_, congrArg Value.object found.toFields_entries⟩, .group found, rfl⟩
    · rintro ⟨⟨entries, rfl⟩, found, same⟩
      cases found with
      | leaf targets => cases targets <;> cases same
      | group children => exact ⟨children, same⟩

structure TreeText (text : String) : Prop where
  spelt : ∀ value, Spells text value → value.depth ≤ maxNesting → ReadsTree text value
  body : ∀ body, Read.ofText Body.read text = .ok body ↔
    Spells text body.toJson ∧ body.toJson.depth ≤ maxNesting
  states : ∀ states, Read.ofText Forest.read text = .ok states ↔
    Spells text states.toJson ∧ states.toJson.depth ≤ maxNesting
  declaration : ∀ config, Config.ofText text = .ok config →
    ∃ value, Spells text value ∧ config.RefusesRepetition value
  declarations : ∀ configs, Config.listOfText text = .ok configs →
    ∃ values, Spells text (.list (.ofList values)) ∧
      List.Forall₂ (fun value config => config.RefusesRepetition value) values configs

theorem tree_text_exact (text : String) : TreeText text where
  spelt _ := reads_tree
  body _ := ofText_iff Body.isPlain_toJson fun _ _ => Body.read_iff
  states _ := ofText_iff (fun states => states.arePlain_toFields) fun _ _ => Forest.read_iff
  declaration config reads := by
    obtain ⟨value, spells, here⟩ := spells_of_ofText reads fun value here => (Config.read_states here).1
    exact ⟨value, spells, Config.refuses_repetition here⟩
  declarations configs reads := by
    obtain ⟨value, spells, here⟩ := spells_of_ofText reads fun value here =>
      whole_of_readList here fun room value config here => (Config.read_states here).1
    obtain ⟨inner, values, rfl, each⟩ := items_of_readList here
    exact ⟨values, spells, each.imp fun value config here => Config.refuses_repetition here⟩

-- A key that is written with an escape is the same key, and here it repeats that of the group around it.
def escapedText : String :=
  "\x7b \"name\": \"s\", \"default\": \"b\", \"states\": \x7b\"a\": \x7b\"b\": [], \"\\u0061\": null\x7d\x7d\x7d"

def escaped : Config :=
  ⟨"s", "b", [], .group "a" (.leaf "b" (.many []) (.leaf "a" .terminal .nil)) .nil, "", false, none⟩

theorem escaped_refused :
    Config.ofText escapedText = .ok escaped ∧ ¬ escaped.states.toJson.keys.Nodup ∧
      ∃ value, Spells escapedText value ∧ escaped.RefusesRepetition value :=
  ⟨by decide +kernel, by decide +kernel, (tree_text_exact escapedText).declaration escaped (by decide +kernel)⟩

end StateAttributes
