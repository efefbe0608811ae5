import StateAttributes.Proofs.DeclarationText
import StateAttributes.Proofs.TypedReading

namespace StateAttributes

open Json

theorem strings_of_names : ∀ {items names}, Items.names? items = some names → items = .ofList (names.map .string)
  | .closed, _, found => by cases found; rfl
  | .item (.text (some name)) rest, _, found => by
    obtain ⟨others, later, rfl⟩ := Option.map_eq_some_iff.mp found
    rw [strings_of_names later]
    rfl

mutual
theorem toJson_of_ofValue : ∀ {value body}, Body.ofValue? value = some body → value = body.toJson
  | .null, _, found => by cases found; rfl
  | .text (some name), _, found => by cases found; rfl
  | .list items, _, found => by
    obtain ⟨names, same, rfl⟩ := Option.map_eq_some_iff.mp found
    rw [strings_of_names same]
    rfl
  | .object fields, _, found => by
    obtain ⟨children, same, rfl⟩ := Option.map_eq_some_iff.mp found
    rw [toFields_of_ofFields same]
    rfl
theorem toFields_of_ofFields : ∀ {fields states}, Forest.ofFields? fields = some states → fields = states.toFields
  | .closed, _, found => by cases found; rfl
  | .field (some name) value rest, _, found => by
    obtain ⟨body, here, found⟩ := Option.bind_eq_some_iff.mp found
    obtain ⟨others, later, same⟩ := Option.bind_eq_some_iff.mp found
    cases same
    rw [toJson_of_ofValue here, toFields_of_ofFields later]
    cases body <;> rfl
end

theorem Body.read_iff : Body.read room value = .ok body ↔ value = body.toJson ∧ value.depth ≤ room := by
  constructor
  · intro reads
    unfold Body.read at reads
    split at reads
    · rename_i readable
      split at reads
      · rename_i found
        cases reads
        have same := toJson_of_ofValue found
        subst same
        exact ⟨rfl, (Value.isReadable_iff _ body.isPlain_toJson room).mp readable⟩
      · cases reads
    · cases reads
  · rintro ⟨rfl, shallow⟩
    exact Body.read_toJson shallow

theorem each_body_iff {entries : List (String × Value)} {children : List (StateName × Body)} :
    List.Forall₂ (fun entry child => entry.1 = child.1 ∧ Body.read room entry.2 = .ok child.2) entries children ↔
      entries = children.map (fun (name, body) => (name, body.toJson)) ∧ ∀ entry ∈ entries, entry.2.depth ≤ room := by
  constructor
  · intro each
    have judged : List.Forall₂ (fun entry child => entry.2.depth ≤ room ∧ entry = (child.1, child.2.toJson))
        entries children := by
      refine each.imp fun entry child read => ?_
      obtain ⟨same, shallow⟩ := Body.read_iff.mp read.2
      exact ⟨shallow, Prod.ext read.1 same⟩
    obtain ⟨shallow, same⟩ := (List.forall₂_and_left _ _).mp judged
    exact ⟨List.forall₂_eq_eq_eq ▸ List.forall₂_map_right_iff.mpr same, shallow⟩
  · rintro ⟨rfl, shallow⟩
    refine List.forall₂_map_left_iff.mpr (List.forall₂_same.mpr fun child member => ⟨rfl, ?_⟩)
    exact Body.read_toJson (shallow _ (List.mem_map_of_mem member))

namespace Forest

theorem entries_ofEntries (entries : List (StateName × Body)) : (ofEntries entries).entries = entries := by
  induction entries with
  | nil => rfl
  | cons entry rest ih =>
    obtain ⟨name, body⟩ := entry
    cases body <;> simpa [ofEntries, cons, Forest.entries] using ih

theorem read_iff : Forest.read room value = .ok states ↔ value = states.toJson ∧ value.depth ≤ room := by
  constructor
  · intro reads
    obtain ⟨found, entries, rfl⟩ := map_ok.mp reads
    unfold Value.readEntries at entries
    split at entries
    · obtain ⟨inner, entered, entries⟩ := bind_ok.mp entries
      obtain ⟨rfl⟩ := enter_ok.mp entered
      obtain ⟨fields, rfl, each⟩ := fields_of_readAll entries
      obtain ⟨same, shallow⟩ := each_body_iff.mp each
      refine ⟨?_, Nat.succ_le_succ ((depth_fields fields inner).mpr shallow)⟩
      rw [toJson, toFields_entries, entries_ofEntries, same]
    · exact absurd entries (unexpected_ne _ _ _)
  · rintro ⟨rfl, shallow⟩
    exact read_toJson shallow

end Forest

-- What one level of a tree may look like and what is read off it; the values of an object are read on their own.
inductive Json.Value.Level : Value → Body → Prop where
  | null : Level .null (.leaf .terminal)
  | name (name : StateName) : Level (.string name) (.leaf (.one name))
  | names (names : List StateName) : Level (.strings names) (.leaf (.many names))
  | group (each : List.Forall₂ (fun entry child => entry.1 = child.1 ∧ Body.read maxNesting entry.2 = .ok child.2)
      entries children.entries) : Level (.object (.ofList entries)) (.group children)

theorem level_iff {value : Value} (shallow : value.depth ≤ maxNesting) : value.Level body ↔ value = body.toJson := by
  constructor
  · intro level
    cases level with
    | null => rfl
    | name name => rfl
    | names names => rfl
    | @group entries children each =>
      rw [(each_body_iff.mp each).1, ← Forest.toFields_entries]
      rfl
  · rintro rfl
    cases body with
    | leaf targets =>
      cases targets with
      | terminal => exact .null
      | one name => exact .name name
      | many names => exact .names names
    | group children =>
      rw [Body.toJson, Forest.toJson, Value.depth, Forest.toFields_entries] at shallow
      rw [Body.toJson, Forest.toJson, Forest.toFields_entries]
      exact .group (each_body_iff.mpr ⟨rfl, (depth_fields _ _).mp (Nat.le_of_succ_le shallow)⟩)

-- A value and everything that stands under it in an object, at any depth.
inductive Json.Value.Holds : Value → Value → Prop where
  | itself (value : Value) : Holds value value
  | under {next inner : Value} (entry : (key, next) ∈ entries) (holds : Holds next inner) :
      Holds (.object (.ofList entries)) inner

def Json.Value.Fits (value : Value) : Prop :=
  value = .null ∨ (∃ name, value = .string name) ∨ (∃ names, value = .strings names) ∨
    ∃ entries, value = .object (.ofList entries)

theorem entries_of_fits (fits : (Value.object fields).Fits) : ∃ entries, fields = .ofList entries := by
  obtain other | ⟨_, other⟩ | ⟨_, other⟩ | ⟨entries, same⟩ := fits
  · cases other
  · cases other
  · cases other
  · exact ⟨entries, Value.object.inj same⟩

theorem fits_toJson (body : Body) : body.toJson.Fits := by
  cases body with
  | leaf targets =>
    cases targets with
    | terminal => exact .inl rfl
    | one name => exact .inr (.inl ⟨name, rfl⟩)
    | many names => exact .inr (.inr (.inl ⟨names, rfl⟩))
  | group children => exact .inr (.inr (.inr ⟨_, congrArg Value.object children.toFields_entries⟩))

theorem holds_body {value inner : Value} (holds : value.Holds inner) :
    ∀ body : Body, value = body.toJson → ∃ part : Body, inner = part.toJson := by
  induction holds with
  | itself => exact fun body same => ⟨body, same⟩
  | @under entries key next inner entry holds ih =>
    intro body same
    cases body with
    | leaf targets => cases targets <;> cases same
    | group children =>
      injection same with same
      rw [Forest.toFields_entries] at same
      rw [fields_ofList_inj same] at entry
      obtain ⟨child, -, same⟩ := List.mem_map.mp entry
      exact ih child.2 (congrArg Prod.snd same).symm

mutual
theorem body_of_fits : ∀ (value : Value), (∀ inner, value.Holds inner → inner.Fits) →
    ∃ body : Body, value = body.toJson
  | .null, _ => ⟨.leaf .terminal, rfl⟩
  | .text (some name), _ => ⟨.leaf (.one name), rfl⟩
  | .list items, fits => by
    obtain other | ⟨_, other⟩ | ⟨names, same⟩ | ⟨_, other⟩ := fits _ (.itself _)
    · cases other
    · cases other
    · exact ⟨.leaf (.many names), same⟩
    · cases other
  | .object fields, fits => by
    obtain ⟨entries, same⟩ := entries_of_fits (fits _ (.itself _))
    obtain ⟨children, rfl⟩ := states_of_fits fields entries same fun entry member inner holds =>
      fits inner (same ▸ .under member holds)
    exact ⟨.group children, rfl⟩
  | .text none, fits | .broken, fits | .bool _, fits | .number _, fits => by
    obtain other | ⟨_, other⟩ | ⟨_, other⟩ | ⟨_, other⟩ := fits _ (.itself _) <;> cases other
theorem states_of_fits : ∀ (fields : Fields) (entries : List (String × Value)), fields = .ofList entries →
    (∀ entry ∈ entries, ∀ inner, entry.2.Holds inner → inner.Fits) → ∃ states : Forest, fields = states.toFields
  | .closed, _, _, _ => ⟨.nil, rfl⟩
  | .cut, entries, same, _ => by cases entries <;> cases same
  | .field key value rest, [], same, _ => by cases same
  | .field key value rest, (name, own) :: others, same, fits => by
    injection same with named here later
    subst named here
    obtain ⟨body, rfl⟩ := body_of_fits value (fits _ List.mem_cons_self)
    obtain ⟨states, rfl⟩ := states_of_fits rest others later fun entry member =>
      fits entry (List.mem_cons_of_mem _ member)
    refine ⟨states.cons name body, ?_⟩
    cases body <;> rfl
end

end StateAttributes
