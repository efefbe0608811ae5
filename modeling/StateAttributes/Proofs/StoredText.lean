import StateAttributes.Scope
import StateAttributes.Values
import StateAttributes.Proofs.InstantText
import StateAttributes.Proofs.WrittenText

namespace StateAttributes

open Json

namespace Slots

theorem insertEntry_last {entries : List (String × Option StateName)} (value : Option StateName)
    (above : ∀ entry ∈ entries, entry.1 < key) :
    insertEntry key value entries = entries ++ [(key, value)] := by
  induction entries with
  | nil => rfl
  | cons first rest ih =>
    have before := above first List.mem_cons_self
    have later := ih fun entry member => above entry (List.mem_cons_of_mem _ member)
    rw [insertEntry, if_neg (String.lt_asymm before), if_neg (String.ne_of_lt before).symm, later]
    rfl

-- Keys that come in their order are put behind one another.
theorem foldl_insert {rest : List (String × Option StateName)} {slots : Slots}
    (ascending : (slots.entries ++ rest).Pairwise fun a b => a.1 < b.1) :
    (rest.foldl (fun slots (key, value) => slots.insert key value) slots).entries = slots.entries ++ rest := by
  induction rest generalizing slots with
  | nil => exact (List.append_nil _).symm
  | cons entry rest ih =>
    have above : ∀ earlier ∈ slots.entries, earlier.1 < entry.1 := fun earlier member =>
      (List.pairwise_append.mp ascending).2.2 earlier member entry List.mem_cons_self
    have inserted : (slots.insert entry.1 entry.2).entries = slots.entries ++ [entry] :=
      insertEntry_last entry.2 above
    have next : ((slots.insert entry.1 entry.2).entries ++ rest).Pairwise fun a b => a.1 < b.1 := by
      rw [inserted, List.append_assoc]
      exact ascending
    rw [List.foldl_cons, ih next, inserted, List.append_assoc]
    rfl

theorem ofList_entries (slots : Slots) : ofList slots.entries = slots :=
  eq_of_entries (foldl_insert slots.ascending)

theorem isPlain_toJson (slots : Slots) : slots.toJson.isPlain := by
  rw [toJson, Value.isPlain, arePlain_fields]
  intro entry member
  obtain ⟨slot, -, rfl⟩ := List.mem_map.mp member
  exact isPlain_ofOption slot.2

theorem read_toJson (room : Nat) (slots : Slots) : Slots.read (room + 1) slots.toJson = .ok slots := by
  have reads : (Fields.ofList (slots.entries.map fun (key, value) => (key, .ofOption value))).readAll
      (Value.readOption Value.readString) = .ok slots.entries :=
    readAll_fields fun entry _ => readOption_ofOption entry.2
  simp [Slots.read, toJson, Value.readEntries, enter, reads, bind, Except.bind, Functor.map, Except.map,
    ofList_entries]

end Slots

theorem Instant.readJson_render (instant : Instant) : Instant.readJson (.string instant.render) = .ok instant := by
  simp [Instant.readJson, Value.string, instant.parse_render]

namespace Transition

theorem isPlain_toJson (transition : Transition) : transition.toJson.isPlain := by
  simp [toJson, Value.isPlain]

theorem read_toJson (room : Nat) (transition : Transition) :
    Transition.read (room + 1) transition.toJson = .ok transition := by
  have filled : RecordForm.read form (room + 1) transition.toJson =
      .ok (⟨some transition.attributeName, some transition.source, some transition.target,
        some transition.timestamp⟩, .object) := by
    refine read_record ?_
    refine (fill_once rfl (readString_string transition.attributeName)).trans ?_
    refine (fill_once rfl (readOption_ofOption transition.source)).trans ?_
    refine (fill_once rfl (readString_string transition.target)).trans ?_
    refine (fill_once rfl (Instant.readJson_render transition.timestamp)).trans ?_
    rfl
  rw [Transition.read, filled]
  rfl

end Transition

namespace History

theorem isPlain_toJson (history : History) : history.toJson.isPlain := by
  simp [toJson, Value.isPlain, Transition.isPlain_toJson]

theorem read_toJson (room : Nat) (history : History) : History.read (room + 3) history.toJson = .ok history := by
  have records : Value.readList Transition.read (room + 2)
      (.list (.ofList (history.transitions.map Transition.toJson))) = .ok history.transitions :=
    readList_items fun transition _ => transition.read_toJson room
  have filled : RecordForm.read form (room + 3) history.toJson =
      .ok (⟨some history.transitions⟩, .object) := by
    refine read_record ?_
    refine (fill_once rfl records).trans ?_
    rfl
  rw [History.read, filled]
  rfl

end History

namespace Values

theorem isPlain_toJson (values : Values) : values.toJson.isPlain := by
  simp [toJson, Value.isPlain, Slots.isPlain_toJson, History.isPlain_toJson]

theorem read_toJson (room : Nat) (values : Values) : Values.read (room + 4) values.toJson = .ok values := by
  have filled : RecordForm.read form (room + 4) values.toJson =
      .ok (⟨some values.current, some values.committed, some values.history⟩, .object) := by
    refine read_record ?_
    refine (fill_once rfl (values.current.read_toJson (room + 2))).trans ?_
    refine (fill_once rfl (values.committed.read_toJson (room + 2))).trans ?_
    refine (fill_once rfl (values.history.read_toJson room)).trans ?_
    rfl
  rw [Values.read, filled]
  rfl

end Values

namespace Scope

theorem isPlain_toJson (scope : Scope) : scope.toJson.isPlain := by
  simp [toJson, Value.isPlain]

theorem read_toJson (room : Nat) (scope : Scope) : Scope.read (room + 2) scope.toJson = .ok scope := by
  have filled : RecordForm.read form (room + 2) scope.toJson =
      .ok (⟨some scope.name, some scope.attributeName, some scope.states⟩, .object) := by
    refine read_record ?_
    refine (fill_once rfl (readString_string scope.name)).trans ?_
    refine (fill_once rfl (readString_string scope.attributeName)).trans ?_
    refine (fill_once rfl (readList_strings room scope.states)).trans ?_
    rfl
  rw [Scope.read, filled]
  rfl

end Scope

theorem Values.ofText_toText (values : Values) : Values.ofText values.toText = .ok values :=
  ofText_render values.isPlain_toJson (values.read_toJson 123)

theorem History.ofText_toText (history : History) : History.ofText history.toText = .ok history :=
  ofText_render history.isPlain_toJson (history.read_toJson 124)

theorem Scope.ofText_toText (scope : Scope) : Scope.ofText scope.toText = .ok scope :=
  ofText_render scope.isPlain_toJson (scope.read_toJson 125)

theorem text_eq_iff {toText : α → String} {ofText : String → Read α}
    (rereads : ∀ stored, ofText (toText stored) = .ok stored) (one other : α) :
    toText one = toText other ↔ one = other := by
  constructor
  · intro same
    have first := rereads one
    rw [same] at first
    exact (Except.ok.inj ((rereads other).symm.trans first)).symm
  · exact congrArg toText

-- What is stored comes back as it was, and no two stores share a text.
structure Rereads (toText : α → String) (ofText : String → Read α) : Prop where
  same : ∀ stored, ofText (toText stored) = .ok stored
  distinct : ∀ one other, toText one = toText other ↔ one = other

theorem stored_rereads :
    Rereads Values.toText Values.ofText ∧ Rereads History.toText History.ofText ∧
      Rereads Scope.toText Scope.ofText :=
  ⟨⟨Values.ofText_toText, text_eq_iff Values.ofText_toText⟩,
    ⟨History.ofText_toText, text_eq_iff History.ofText_toText⟩,
    ⟨Scope.ofText_toText, text_eq_iff Scope.ofText_toText⟩⟩

end StateAttributes
