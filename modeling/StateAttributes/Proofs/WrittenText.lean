import StateAttributes.Json.Decode
import StateAttributes.Proofs.Spelling

namespace StateAttributes.Json

theorem unit_hexDigit {n : Nat} (control : n < 0x20) :
    unit? '0' '0' (hexDigit (n / 16)) (hexDigit (n % 16)) = some n := by
  have all : ∀ n < 0x20, unit? '0' '0' (hexDigit (n / 16)) (hexDigit (n % 16)) = some n := by decide
  exact all n control

theorem spelling_escape (c : Char) (rest : Spelling pieces text behind) :
    Spelling (.char c :: pieces) (escape c ++ text) behind := by
  unfold escape
  split
  case h_8 quote slash _ _ _ _ _ =>
    split
    · rename_i control
      have unit := Spelling.unit (unit_hexDigit control) (by omega) rest
      rwa [Char.ofNat_toNat] at unit
    · rename_i visible
      exact .itself quote slash (Nat.not_lt.mp visible) rest
  all_goals exact .short rfl rest

theorem spelling_escaped (chars behind : List Char) :
    Spelling (chars.map .char) (chars.flatMap escape ++ '"' :: behind) behind := by
  induction chars with
  | nil => exact .done
  | cons c chars ih =>
    rw [List.flatMap_cons, List.append_assoc]
    exact spelling_escape c ih

theorem joinHalves_chars (chars : List Char) : joinHalves? (chars.map .char) = some chars := by
  induction chars with
  | nil => rfl
  | cons c chars ih => simp [joinHalves?, ih]

theorem spelt_text (text : String) (behind : List Char) :
    Value.Spelt (.text (some text)) (writeText text ++ behind) behind := by
  have spelt := Value.Spelt.text (spelling_escaped text.toList behind)
  rw [joinHalves_chars, Option.map_some, String.ofList_toList] at spelt
  simpa [writeText] using spelt

-- No fault of form, no text without value, and no number: a number may have been written in several ways.
mutual
def Value.isPlain : Value → Bool
  | .broken | .number _ => false
  | .null | .bool _ => true
  | .text t => t.isSome
  | .list items => items.arePlain
  | .object fields => fields.arePlain
def Items.arePlain : Items → Bool
  | .closed => true
  | .cut => false
  | .item value rest => value.isPlain && rest.arePlain
def Fields.arePlain : Fields → Bool
  | .closed => true
  | .cut => false
  | .field key value rest => key.isSome && value.isPlain && rest.arePlain
end

-- How many containers stand inside one another.
mutual
def Value.depth : Value → Nat
  | .broken | .null | .bool _ | .number _ | .text _ => 0
  | .list items => items.depth + 1
  | .object fields => fields.depth + 1
def Items.depth : Items → Nat
  | .closed | .cut => 0
  | .item value rest => max value.depth rest.depth
def Fields.depth : Fields → Nat
  | .closed | .cut => 0
  | .field _ value rest => max value.depth rest.depth
end

mutual
theorem Value.isReadable_iff : ∀ (value : Value), value.isPlain → ∀ room,
    value.isReadable room ↔ value.depth ≤ room
  | .null, _, room => by simp [Value.isReadable, Value.depth]
  | .bool _, _, room => by simp [Value.isReadable, Value.depth]
  | .text (some _), _, room => by simp [Value.isReadable, Value.depth]
  | .list items, plain, room => by
    have inner := items.areReadable_iff plain (room - 1)
    simp only [Value.isReadable, Value.depth, Bool.and_eq_true, decide_eq_true_eq, inner]
    omega
  | .object fields, plain, room => by
    have inner := fields.areReadable_iff plain (room - 1)
    simp only [Value.isReadable, Value.depth, Bool.and_eq_true, decide_eq_true_eq, inner]
    omega
theorem Items.areReadable_iff : ∀ (items : Items), items.arePlain → ∀ room,
    items.areReadable room ↔ items.depth ≤ room
  | .closed, _, room => by simp [Items.areReadable, Items.depth]
  | .item value rest, plain, room => by
    simp only [Items.arePlain, Bool.and_eq_true] at plain
    simp only [Items.areReadable, Items.depth, Bool.and_eq_true, value.isReadable_iff plain.1,
      rest.areReadable_iff plain.2, Nat.max_le]
theorem Fields.areReadable_iff : ∀ (fields : Fields), fields.arePlain → ∀ room,
    fields.areReadable room ↔ fields.depth ≤ room
  | .closed, _, room => by simp [Fields.areReadable, Fields.depth]
  | .field key value rest, plain, room => by
    simp only [Fields.arePlain, Bool.and_eq_true] at plain
    simp only [Fields.areReadable, Fields.depth, Bool.and_eq_true, plain.1.1, true_and,
      value.isReadable_iff plain.1.2, rest.areReadable_iff plain.2, Nat.max_le]
end

theorem Value.Spelt.spaced {text behind : List Char} (spelt : Value.Spelt value text behind) :
    value.Spaced text behind :=
  .between .none spelt .none

theorem Items.write_item (value : Value) (more : rest ≠ .closed) :
    (Items.item value rest).write = value.write ++ ',' :: rest.write := by
  cases rest with
  | closed => exact absurd rfl more
  | cut => simp [Items.write]
  | item next others => simp [Items.write]

theorem Fields.write_field (key : String) (value : Value) (more : rest ≠ .closed) :
    (Fields.field (some key) value rest).write = writeText key ++ ':' :: value.write ++ ',' :: rest.write := by
  cases rest with
  | closed => exact absurd rfl more
  | cut => simp [Fields.write]
  | field next content others => simp [Fields.write]

mutual
theorem Value.spelt_write : ∀ (value : Value), value.isPlain → ∀ behind, value.Spelt (value.write ++ behind) behind
  | .null, _, _ => .null
  | .bool true, _, _ => .yes
  | .bool false, _, _ => .no
  | .text (some text), _, behind => by
    rw [Value.write]
    exact spelt_text text behind
  | .list .closed, _, _ => .noItems .none
  | .list (.item value rest), plain, behind => by
    have items := Items.spelt_write (.item value rest) plain (by simp) behind
    simpa [Value.write] using Value.Spelt.list items
  | .object .closed, _, _ => .noFields .none
  | .object (.field key value rest), plain, behind => by
    have fields := Fields.spelt_write (.field key value rest) plain (by simp) behind
    simpa [Value.write] using Value.Spelt.object fields
theorem Items.spelt_write : ∀ (items : Items), items.arePlain → items ≠ .closed → ∀ behind,
    items.Spelt (items.write ++ ']' :: behind) behind
  | .item value rest, plain, _, behind => by
    simp only [Items.arePlain, Bool.and_eq_true] at plain
    by_cases last : rest = .closed
    · subst last
      exact .last (value.spelt_write plain.1 _).spaced
    · rw [Items.write_item value last, List.append_assoc]
      exact .next (value.spelt_write plain.1 _).spaced (rest.spelt_write plain.2 last behind)
theorem Fields.spelt_write : ∀ (fields : Fields), fields.arePlain → fields ≠ .closed → ∀ behind,
    fields.Spelt (fields.write ++ '}' :: behind) behind
  | .field none value rest, plain, _, behind => by simp [Fields.arePlain] at plain
  | .field (some key) value rest, plain, _, behind => by
    simp only [Fields.arePlain, Option.isSome_some, Bool.true_and, Bool.and_eq_true] at plain
    by_cases last : rest = .closed
    · subst last
      rw [Fields.write, Option.getD_some, List.append_assoc]
      exact .last (spelt_text key _).spaced (value.spelt_write plain.1 _).spaced
    · rw [Fields.write_field key value last, List.append_assoc, List.append_assoc]
      exact .next (spelt_text key _).spaced (value.spelt_write plain.1 _).spaced
        (rest.spelt_write plain.2 last behind)
end

theorem spells_render {value : Value} (plain : value.isPlain) : Spells value.render value := by
  have spelt := value.spelt_write plain []
  rw [List.append_nil] at spelt
  rw [Spells, Value.render, String.toList_ofList]
  exact spelt.spaced

-- The text is read to its end, and what it holds is the value that was written.
theorem read_render {value : Value} (plain : value.isPlain) : Document.read value.render = ⟨value, true⟩ :=
  (spells_iff.mp (spells_render plain)).1

theorem render_inj {one other : Value} (plain : one.isPlain) (also : other.isPlain)
    (same : one.render = other.render) : one = other := by
  have first := read_render plain
  rw [same, read_render also] at first
  exact (congrArg Document.value first).symm

-- A typed reader gets the value and is not stopped by what follows it.
theorem ofText_render {value : Value} (plain : value.isPlain) {read : Nat → Value → Read α}
    (reads : read maxNesting value = .ok result) : Read.ofText read value.render = .ok result := by
  simp [Read.ofText, read_render plain, reads]

@[simp] theorem isPlain_string (text : String) : (Value.string text).isPlain := rfl

@[simp] theorem isPlain_ofOption (text? : Option String) : (Value.ofOption text?).isPlain := by cases text? <;> rfl

@[simp] theorem arePlain_items (values : List Value) :
    (Items.ofList values).arePlain ↔ ∀ value ∈ values, value.isPlain := by
  induction values with
  | nil => simp [Items.ofList, Items.arePlain]
  | cons value rest ih => simp [Items.ofList, Items.arePlain, ih]

@[simp] theorem arePlain_fields (entries : List (String × Value)) :
    (Fields.ofList entries).arePlain ↔ ∀ entry ∈ entries, entry.2.isPlain := by
  induction entries with
  | nil => simp [Fields.ofList, Fields.arePlain]
  | cons entry rest ih => simp [Fields.ofList, Fields.arePlain, ih]

theorem depth_items (values : List Value) (bound : Nat) :
    (Items.ofList values).depth ≤ bound ↔ ∀ value ∈ values, value.depth ≤ bound := by
  induction values with
  | nil => simp [Items.ofList, Items.depth]
  | cons value rest ih => simp only [Items.ofList, Items.depth, Nat.max_le, ih, List.forall_mem_cons]

theorem depth_fields (entries : List (String × Value)) (bound : Nat) :
    (Fields.ofList entries).depth ≤ bound ↔ ∀ entry ∈ entries, entry.2.depth ≤ bound := by
  induction entries with
  | nil => simp [Fields.ofList, Fields.depth]
  | cons entry rest ih => simp only [Fields.ofList, Fields.depth, Nat.max_le, ih, List.forall_mem_cons]

@[simp] theorem isPlain_strings (texts : List String) : (Value.strings texts).isPlain := by
  simp [Value.strings, Value.isPlain]

theorem readString_string (text : String) : (Value.string text).readString = .ok text := rfl

theorem readOption_ofOption (text? : Option String) :
    Value.readOption Value.readString (.ofOption text?) = .ok text? := by
  cases text? <;> rfl

theorem readAll_items {write : α → Value} {read : Value → Read α} {results : List α}
    (reads : ∀ result ∈ results, read (write result) = .ok result) :
    (Items.ofList (results.map write)).readAll read = .ok results := by
  induction results with
  | nil => rfl
  | cons result rest ih =>
    have first := reads result List.mem_cons_self
    have later := ih fun other member => reads other (List.mem_cons_of_mem _ member)
    simp [Items.ofList, Items.readAll, first, later, bind, Except.bind, pure, Except.pure]

theorem readAll_fields {write : α → Value} {read : Value → Read α} {entries : List (String × α)}
    (reads : ∀ entry ∈ entries, read (write entry.2) = .ok entry.2) :
    (Fields.ofList (entries.map fun (key, value) => (key, write value))).readAll read = .ok entries := by
  induction entries with
  | nil => rfl
  | cons entry rest ih =>
    have first := reads entry List.mem_cons_self
    have later := ih fun other member => reads other (List.mem_cons_of_mem _ member)
    simp [Fields.ofList, Fields.readAll, first, later, bind, Except.bind, pure, Except.pure]

theorem readList_items {write : α → Value} {read : Nat → Value → Read α} {results : List α}
    (reads : ∀ result ∈ results, read room (write result) = .ok result) :
    Value.readList read (room + 1) (.list (.ofList (results.map write))) = .ok results :=
  readAll_items reads

theorem readList_strings (room : Nat) (texts : List String) :
    Value.readList (fun _ => Value.readString) (room + 1) (.strings texts) = .ok texts :=
  readList_items fun text _ => readString_string text

-- A field that stands for the first time is put into its place, and the reader goes on with the next.
theorem fill_once {fill : String → δ → Option (Value → Read δ)} {read : Value → Read α} {put : α → δ}
    (known : fill key draft = some (once key none read put)) (reads : read value = .ok result) :
    Fields.fill fill (.field (some key) value rest) draft = rest.fill fill (put result) := by
  simp [Fields.fill, known, once, reads, bind, Except.bind, Functor.map, Except.map]

theorem read_record {form : Nat → RecordForm δ}
    (fills : fields.fill (form room).fill (form room).empty = .ok draft) :
    RecordForm.read form (room + 1) (.object fields) = .ok (draft, .object) := by
  simp [RecordForm.read, enter, fills, bind, Except.bind, pure, Except.pure]

end StateAttributes.Json
