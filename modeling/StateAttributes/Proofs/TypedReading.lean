import Mathlib.Data.List.Forall2
import StateAttributes.Proofs.WrittenText

namespace StateAttributes.Json

theorem bind_ok {read : Read α} {onward : α → Read β} :
    read >>= onward = .ok result ↔ ∃ found, read = .ok found ∧ onward found = .ok result := by
  cases read <;> simp [bind, Except.bind]

theorem map_ok {read : Read α} {put : α → β} :
    put <$> read = .ok result ↔ ∃ found, read = .ok found ∧ put found = result := by
  cases read <;> simp [Functor.map, Except.map]

theorem enter_ok {room inner : Nat} : enter room = .ok inner ↔ room = inner + 1 := by
  cases room <;> simp [enter, malformed]

theorem unexpected_ne (value : Value) (expected : String) (result : α) :
    value.unexpected expected ≠ .ok result := by
  cases value with
  | text t => cases t <;> simp [Value.unexpected, malformed, refuse]
  | number n =>
    simp only [Value.unexpected]
    split <;> simp [malformed, refuse]
  | _ => simp [Value.unexpected, malformed, refuse]

theorem once_ok {read : Value → Read α} :
    once key present read put value = .ok result ↔
      present = none ∧ ∃ found, read value = .ok found ∧ put found = result := by
  cases present with
  | none => simp [once, map_ok]
  | some _ => simp [once, refuse]

theorem require_ok {origin : Origin} : origin.require key field = .ok result ↔ field = some result := by
  cases field with
  | none => cases origin <;> simp [Origin.require, Origin.miss, refuse]
  | some found => simp [Origin.require]

theorem fields_ofList_inj {one other : List (String × Value)} (same : Fields.ofList one = Fields.ofList other) :
    one = other := by
  induction one generalizing other with
  | nil => cases other <;> cases same; rfl
  | cons entry rest ih =>
    cases other with
    | nil => cases same
    | cons next others =>
      injection same with key value later
      rw [Prod.ext (Option.some.inj key) value, ih later]

theorem items_of_readAll {read : Value → Read α} : ∀ {items results}, Items.readAll read items = .ok results →
    ∃ values, items = .ofList values ∧ List.Forall₂ (fun value result => read value = .ok result) values results
  | .closed, _, reads => by cases reads; exact ⟨[], rfl, .nil⟩
  | .cut, _, reads => by cases reads
  | .item value rest, _, reads => by
    obtain ⟨first, here, reads⟩ := bind_ok.mp reads
    obtain ⟨others, later, same⟩ := bind_ok.mp reads
    cases same
    obtain ⟨values, rfl, each⟩ := items_of_readAll later
    exact ⟨value :: values, rfl, .cons here each⟩

theorem fields_of_readAll {read : Value → Read α} : ∀ {fields results}, Fields.readAll read fields = .ok results →
    ∃ entries, fields = .ofList entries ∧
      List.Forall₂ (fun entry result => entry.1 = result.1 ∧ read entry.2 = .ok result.2) entries results
  | .closed, _, reads => by cases reads; exact ⟨[], rfl, .nil⟩
  | .cut, _, reads => by cases reads
  | .field none _ _, _, reads => by cases reads
  | .field (some key) value rest, _, reads => by
    obtain ⟨first, here, reads⟩ := bind_ok.mp reads
    obtain ⟨others, later, same⟩ := bind_ok.mp reads
    cases same
    obtain ⟨entries, rfl, each⟩ := fields_of_readAll later
    exact ⟨(key, value) :: entries, rfl, .cons ⟨rfl, here⟩ each⟩

theorem items_of_readList {read : Nat → Value → Read α} (reads : Value.readList read room value = .ok results) :
    ∃ inner values, value = .list (.ofList values) ∧
      List.Forall₂ (fun value result => read inner value = .ok result) values results := by
  unfold Value.readList at reads
  split at reads
  · obtain ⟨inner, -, reads⟩ := bind_ok.mp reads
    obtain ⟨values, rfl, each⟩ := items_of_readAll reads
    exact ⟨inner, values, rfl, each⟩
  · exact absurd reads (unexpected_ne _ _ _)

mutual
theorem Value.isWhole_of_plain : ∀ {value : Value}, value.isPlain → value.isWhole
  | .null, _ | .bool _, _ | .text _, _ => rfl
  | .list items, plain => items.isWhole_of_plain plain
  | .object fields, plain => fields.isWhole_of_plain plain
theorem Items.isWhole_of_plain : ∀ (items : Items), items.arePlain → items.isWhole
  | .closed, _ => rfl
  | .item value rest, plain => by
    simp only [Items.arePlain, Bool.and_eq_true] at plain
    simp [Items.isWhole, Value.isWhole_of_plain plain.1, rest.isWhole_of_plain plain.2]
theorem Fields.isWhole_of_plain : ∀ (fields : Fields), fields.arePlain → fields.isWhole
  | .closed, _ => rfl
  | .field key value rest, plain => by
    simp only [Fields.arePlain, Bool.and_eq_true] at plain
    simp [Fields.isWhole, Value.isWhole_of_plain plain.1.2, rest.isWhole_of_plain plain.2]
end

theorem whole_of_readString {value : Value} (reads : value.readString = .ok result) : value.isWhole := by
  unfold Value.readString at reads
  split at reads
  · rfl
  · exact absurd reads (unexpected_ne _ _ _)

theorem whole_of_readBool {value : Value} (reads : value.readBool = .ok result) : value.isWhole := by
  unfold Value.readBool at reads
  split at reads
  · rfl
  · exact absurd reads (unexpected_ne _ _ _)

theorem whole_of_readOption {read : Value → Read α} (reads : Value.readOption read value = .ok result)
    (whole : ∀ found, read value = .ok found → value.isWhole) : value.isWhole := by
  unfold Value.readOption at reads
  split at reads
  · rfl
  · obtain ⟨found, here, -⟩ := map_ok.mp reads
    exact whole found here

theorem isWhole_items {values : List Value} (whole : ∀ value ∈ values, value.isWhole) :
    (Items.ofList values).isWhole := by
  induction values with
  | nil => rfl
  | cons value rest ih =>
    rw [List.forall_mem_cons] at whole
    simp [Items.ofList, Items.isWhole, whole.1, ih whole.2]

theorem whole_of_readList {read : Nat → Value → Read α} (reads : Value.readList read room value = .ok results)
    (whole : ∀ room value found, read room value = .ok found → value.isWhole) : value.isWhole := by
  obtain ⟨inner, values, rfl, each⟩ := items_of_readList reads
  have judged := each.imp fun value found reads => And.intro (whole inner value found reads) trivial
  exact isWhole_items ((List.forall₂_and_left _ _).mp judged).1

theorem ofText_spells {read : Nat → Value → Read α} (spells : Spells text value) :
    Read.ofText read text = read maxNesting value := by
  rw [Read.ofText, (spells_iff.mp spells).1]
  cases read maxNesting value <;> rfl

-- A text that a typed reader takes spells a value, if the reader takes none with a fault of form in it.
theorem spells_of_ofText {read : Nat → Value → Read α} (reads : Read.ofText read text = .ok result)
    (whole : ∀ value, read maxNesting value = .ok result → value.isWhole) :
    ∃ value, Spells text value ∧ read maxNesting value = .ok result := by
  obtain ⟨found, here, finish⟩ := bind_ok.mp reads
  split at finish
  · rename_i ends
    cases finish
    refine ⟨_, spells_iff.mpr ⟨?_, whole _ here⟩, here⟩
    rw [← ends]
  · cases finish

-- Where a typed reader takes just what its writer writes, a text is taken that spells such a value.
theorem ofText_iff {read : Nat → Value → Read α} {write : α → Value} (plain : ∀ result, (write result).isPlain)
    (exact : ∀ value result, read maxNesting value = .ok result ↔
      value = write result ∧ value.depth ≤ maxNesting) :
    Read.ofText read text = .ok result ↔ Spells text (write result) ∧ (write result).depth ≤ maxNesting := by
  constructor
  · intro reads
    obtain ⟨value, spells, here⟩ := spells_of_ofText reads fun value here =>
      ((exact value result).mp here).1 ▸ Value.isWhole_of_plain (plain result)
    obtain ⟨rfl, shallow⟩ := (exact value result).mp here
    exact ⟨spells, shallow⟩
  · rintro ⟨spells, shallow⟩
    rw [ofText_spells spells]
    exact (exact _ result).mpr ⟨rfl, shallow⟩

end StateAttributes.Json
