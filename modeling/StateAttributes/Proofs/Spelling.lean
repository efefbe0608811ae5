import StateAttributes.Proofs.Numeral

namespace StateAttributes.Json

inductive Blanks : List Char → List Char → Prop where
  | none : Blanks text text
  | more (blank : isBlank c) (rest : Blanks text behind) : Blanks (c :: text) behind

-- The elements of a text, from behind its opening quote to behind its closing one. As with numerals, a judgement
-- relates a text to what stands behind the part that it spells.
inductive Spelling : List Piece → List Char → List Char → Prop where
  | done : Spelling [] ('"' :: behind) behind
  | itself (quote : c ≠ '"') (slash : c ≠ '\\') (visible : 0x20 ≤ c.toNat)
      (rest : Spelling pieces text behind) : Spelling (.char c :: pieces) (c :: text) behind
  | short (letter : unescape? l = some c) (rest : Spelling pieces text behind) :
      Spelling (.char c :: pieces) ('\\' :: l :: text) behind
  | unit (digits : unit? a b c d = some n) (whole : ¬ (0xD800 ≤ n ∧ n < 0xE000))
      (rest : Spelling pieces text behind) :
      Spelling (.char (Char.ofNat n) :: pieces) ('\\' :: 'u' :: a :: b :: c :: d :: text) behind
  | half (digits : unit? a b c d = some n) (half : 0xD800 ≤ n ∧ n < 0xE000)
      (rest : Spelling pieces text behind) :
      Spelling (.half n :: pieces) ('\\' :: 'u' :: a :: b :: c :: d :: text) behind

-- `Spaced` is a value with blanks around it. Items and fields are spelt up to behind the closing bracket.
mutual
inductive Value.Spelt : Value → List Char → List Char → Prop where
  | null : Value.Spelt .null ('n' :: 'u' :: 'l' :: 'l' :: behind) behind
  | yes : Value.Spelt (.bool true) ('t' :: 'r' :: 'u' :: 'e' :: behind) behind
  | no : Value.Spelt (.bool false) ('f' :: 'a' :: 'l' :: 's' :: 'e' :: behind) behind
  | number (numeral : Numeral n text behind) : Value.Spelt (.number n) text behind
  | text (spelling : Spelling pieces text behind) :
      Value.Spelt (.text ((joinHalves? pieces).map String.ofList)) ('"' :: text) behind
  | noItems (gap : Blanks text (']' :: behind)) : Value.Spelt (.list .closed) ('[' :: text) behind
  | list (items : Items.Spelt found text behind) : Value.Spelt (.list found) ('[' :: text) behind
  | noFields (gap : Blanks text ('}' :: behind)) : Value.Spelt (.object .closed) ('{' :: text) behind
  | object (fields : Fields.Spelt found text behind) : Value.Spelt (.object found) ('{' :: text) behind
inductive Value.Spaced : Value → List Char → List Char → Prop where
  | between (before : Blanks text start) (here : Value.Spelt value start rest) (after : Blanks rest behind) :
      Value.Spaced value text behind
inductive Items.Spelt : Items → List Char → List Char → Prop where
  | last (here : Value.Spaced value text (']' :: behind)) : Items.Spelt (.item value .closed) text behind
  | next (here : Value.Spaced value text (',' :: more)) (others : Items.Spelt items more behind) :
      Items.Spelt (.item value items) text behind
inductive Fields.Spelt : Fields → List Char → List Char → Prop where
  | last (key : Value.Spaced (.text name) text (':' :: own)) (here : Value.Spaced value own ('}' :: behind)) :
      Fields.Spelt (.field name value .closed) text behind
  | next (key : Value.Spaced (.text name) text (':' :: own)) (here : Value.Spaced value own (',' :: more))
      (others : Fields.Spelt fields more behind) : Fields.Spelt (.field name value fields) text behind
end

def Spells (text : String) (value : Value) : Prop := value.Spaced text.toList []

theorem skipBlank_of_visible {c : Char} (visible : isBlank c = false) (rest : List Char) :
    skipBlank (c :: rest) = c :: rest := by
  simp [skipBlank, visible]

theorem Blanks.skipped (blanks : Blanks text behind) : skipBlank text = skipBlank behind := by
  induction blanks with
  | none => rfl
  | more blank rest ih => simpa [skipBlank, blank] using ih

theorem blanks_skipBlank (text : List Char) : Blanks text (skipBlank text) := by
  induction text with
  | nil => exact .none
  | cons c rest ih =>
    cases blank : isBlank c with
    | true => simpa [skipBlank, blank] using Blanks.more blank ih
    | false => rw [skipBlank_of_visible blank]; exact .none

theorem Blanks.length_le (blanks : Blanks text behind) : behind.length ≤ text.length := by
  induction blanks with
  | none => exact Nat.le_refl _
  | more blank rest ih => exact Nat.le_succ_of_le ih

theorem Spelling.length_lt (spelling : Spelling pieces text behind) : behind.length < text.length := by
  induction spelling <;> simp only [List.length_cons] <;> omega

theorem Spelling.reads (spelling : Spelling pieces text behind) : readPieces text = some (pieces, behind) := by
  induction spelling with
  | done => rw [readPieces]
  | itself quote slash visible rest ih =>
    rw [readPieces.eq_def]
    simp [slash, Nat.not_lt.mpr visible, ih]
  | @short l c pieces text behind letter rest ih =>
    have other : l ≠ 'u' := by rintro rfl; cases letter
    rw [readPieces]
    · simp [letter, ih]
    · intro a b c d behind same
      exact fun _ => other same
  | unit digits whole rest ih =>
    rw [readPieces]
    simp [digits, ih, if_neg whole]
  | half digits half rest ih =>
    rw [readPieces]
    simp [digits, ih, half]

theorem spelling_of_reads (reads : readPieces text = some (pieces, behind)) : Spelling pieces text behind := by
  fun_induction readPieces text generalizing pieces with
  | case1 => cases reads
  | case2 => cases reads; exact .done
  | case3 a b c d rest ih =>
    obtain ⟨n, digits, reads⟩ := Option.bind_eq_some_iff.mp reads
    obtain ⟨⟨more, after⟩, inner, same⟩ := Option.bind_eq_some_iff.mp reads
    cases same
    by_cases half : 0xD800 ≤ n ∧ n < 0xE000
    · simpa [half] using Spelling.half digits half (ih inner)
    · simpa [half] using Spelling.unit digits half (ih inner)
  | case4 l rest _ ih =>
    obtain ⟨c, letter, reads⟩ := Option.bind_eq_some_iff.mp reads
    obtain ⟨⟨more, after⟩, inner, same⟩ := Option.bind_eq_some_iff.mp reads
    cases same
    exact .short letter (ih inner)
  | case5 => cases reads
  | case6 c rest quote _ escaped visible ih =>
    obtain ⟨⟨more, after⟩, inner, same⟩ := Option.bind_eq_some_iff.mp reads
    cases same
    refine .itself quote ?_ (Nat.not_lt.mp visible) (ih inner)
    -- A backslash at the very end is followed by no element, so nothing would have been read.
    rintro rfl
    cases rest with
    | nil => cases inner
    | cons next rest => exact escaped next rest rfl rfl

variable {text behind : List Char}

theorem Ended.blanks (blanks : Blanks text behind) (ended : Ended behind) : Ended text := by
  cases blanks with
  | none => exact ended
  | more blank =>
    rintro _ ⟨⟩
    exact .inl blank

theorem readValue_number (numeral : Numeral n text behind) (ended : Ended behind) :
    readValue (fuel + 1) text = (.number n, behind) := by
  have reads := numeral.reads ended
  obtain ⟨c, rest, rfl, first⟩ := numeral.head
  have visible : isBlank c = false := by
    rcases first with rfl | digit
    · rfl
    · exact visible_of_digit digit
  rw [readValue, skipBlank_of_visible visible]
  split
  case h_7 => rw [reads]
  all_goals
    rename_i same
    cases same
    rcases first with other | other <;> cases other

theorem Value.Spelt.head (spelt : Value.Spelt value text behind) :
    ∃ c rest, text = c :: rest ∧ isBlank c = false ∧ c ≠ ']' := by
  cases spelt with
  | number numeral => exact numeral.visible
  | _ => exact ⟨_, _, rfl, by decide, by decide⟩

theorem Value.Spaced.head (spaced : Value.Spaced value text behind) :
    ∃ c rest, skipBlank text = c :: rest ∧ isBlank c = false ∧ c ≠ ']' := by
  obtain ⟨before, here, -⟩ := spaced
  obtain ⟨c, rest, rfl, visible, inside⟩ := here.head
  exact ⟨c, rest, before.skipped.trans (skipBlank_of_visible visible rest), visible, inside⟩

theorem Items.Spelt.head (spelt : Items.Spelt items text behind) :
    ∃ c rest, skipBlank text = c :: rest ∧ isBlank c = false ∧ c ≠ ']' := by
  cases spelt with
  | last here => exact here.head
  | next here => exact here.head

mutual
theorem Value.Spelt.length_lt : ∀ {value text behind}, Value.Spelt value text behind → behind.length < text.length
  | _, _, _, .null | _, _, _, .yes | _, _, _, .no => by simp only [List.length_cons]; omega
  | _, _, _, .number numeral => numeral.length_lt
  | _, _, _, .text spelling => Nat.lt_succ_of_lt spelling.length_lt
  | _, _, _, .noItems gap | _, _, _, .noFields gap => by
    have inner := gap.length_le
    simp only [List.length_cons] at inner ⊢
    omega
  | _, _, _, .list items => Nat.lt_succ_of_lt items.length_lt
  | _, _, _, .object fields => Nat.lt_succ_of_lt fields.length_lt
theorem Value.Spaced.length_lt : ∀ {value text behind}, Value.Spaced value text behind →
    behind.length < text.length
  | _, _, _, .between before here after =>
    Nat.lt_of_le_of_lt after.length_le (Nat.lt_of_lt_of_le here.length_lt before.length_le)
theorem Items.Spelt.length_lt : ∀ {items text behind}, Items.Spelt items text behind → behind.length < text.length
  | _, _, _, .last here => Nat.lt_of_succ_lt here.length_lt
  | _, _, _, .next here others => Nat.lt_trans others.length_lt (Nat.lt_of_succ_lt here.length_lt)
theorem Fields.Spelt.length_lt : ∀ {fields text behind}, Fields.Spelt fields text behind →
    behind.length < text.length
  | _, _, _, .last key here => Nat.lt_trans (Nat.lt_of_succ_lt here.length_lt) (Nat.lt_of_succ_lt key.length_lt)
  | _, _, _, .next key here others =>
    Nat.lt_trans (Nat.lt_trans others.length_lt (Nat.lt_of_succ_lt here.length_lt))
      (Nat.lt_of_succ_lt key.length_lt)
end

theorem skipBlank_twice (text : List Char) : skipBlank (skipBlank text) = skipBlank text :=
  (blanks_skipBlank text).skipped.symm

theorem readValue_skipBlank (fuel : Nat) (text : List Char) :
    readValue fuel (skipBlank text) = readValue fuel text := by
  cases fuel with
  | zero => rfl
  | succ fuel => simp only [readValue, skipBlank_twice]

theorem readItems_skipBlank (fuel : Nat) (text : List Char) :
    readItems fuel (skipBlank text) = readItems fuel text := by
  cases fuel with
  | zero => rfl
  | succ fuel => simp only [readItems, readValue_skipBlank]

theorem readFields_skipBlank (fuel : Nat) (text : List Char) :
    readFields fuel (skipBlank text) = readFields fuel text := by
  cases fuel with
  | zero => rfl
  | succ fuel => simp only [readFields, skipBlank_twice]

theorem readValue_list {first : Char} (head : skipBlank text = first :: rest) (inside : first ≠ ']')
    (items : readItems fuel text = (found, behind)) : readValue (fuel + 1) ('[' :: text) = (.list found, behind) := by
  rw [readValue, skipBlank_of_visible (by decide)]
  rw [← readItems_skipBlank, head] at items
  simp [head, inside, items]

theorem readValue_object {first : Char} (head : skipBlank text = first :: rest) (inside : first ≠ '}')
    (fields : readFields fuel text = (found, behind)) :
    readValue (fuel + 1) ('{' :: text) = (.object found, behind) := by
  rw [readValue, skipBlank_of_visible (by decide)]
  rw [← readFields_skipBlank, head] at fields
  simp [head, inside, fields]

theorem Value.Spaced.key (spaced : Value.Spaced (.text name) text behind) :
    ∃ start rest, skipBlank text = '"' :: start ∧ readText start = some (name, rest) ∧
      skipBlank rest = skipBlank behind := by
  obtain ⟨before, here, after⟩ := spaced
  cases here with
  | text spelling =>
    exact ⟨_, _, before.skipped.trans (skipBlank_of_visible (by decide) _), by simp [readText, spelling.reads],
      after.skipped⟩

theorem Fields.Spelt.head (spelt : Fields.Spelt fields text behind) : ∃ rest, skipBlank text = '"' :: rest := by
  cases spelt with
  | last key here =>
    obtain ⟨start, rest, head, -⟩ := key.key
    exact ⟨start, head⟩
  | next key here =>
    obtain ⟨start, rest, head, -⟩ := key.key
    exact ⟨start, head⟩

theorem readItems_last (here : readValue fuel text = (value, rest))
    (after : skipBlank rest = skipBlank (']' :: behind)) :
    readItems (fuel + 1) text = (.item value .closed, behind) := by
  simp [readItems, here, after, skipBlank_of_visible, isBlank]

theorem readItems_next (here : readValue fuel text = (value, rest))
    (after : skipBlank rest = skipBlank (',' :: more)) (others : readItems fuel more = (items, behind)) :
    readItems (fuel + 1) text = (.item value items, behind) := by
  rw [readItems]
  simp [here, after, skipBlank_of_visible, isBlank, others]

theorem readFields_last (key : Value.Spaced (.text name) text (':' :: own))
    (here : readValue fuel own = (value, rest)) (after : skipBlank rest = skipBlank ('}' :: behind)) :
    readFields (fuel + 1) text = (.field name value .closed, behind) := by
  obtain ⟨start, between, head, name, colon⟩ := key.key
  simp [readFields, head, name, colon, here, after, skipBlank_of_visible, isBlank]

theorem readFields_next (key : Value.Spaced (.text name) text (':' :: own))
    (here : readValue fuel own = (value, rest)) (after : skipBlank rest = skipBlank (',' :: more))
    (others : readFields fuel more = (fields, behind)) :
    readFields (fuel + 1) text = (.field name value fields, behind) := by
  obtain ⟨start, between, head, name, colon⟩ := key.key
  rw [readFields]
  simp [head, name, colon, here, after, skipBlank_of_visible, isBlank, others]

-- Of two calls inside each other the outer one stands for a character of the text.
mutual
theorem Value.Spelt.reads : ∀ {value text behind}, Value.Spelt value text behind → Ended behind →
    ∀ fuel, 2 * text.length ≤ fuel + 1 → readValue (fuel + 1) text = (value, behind)
  | _, _, _, .null, _, fuel, _ => by simp [readValue, skipBlank_of_visible, isBlank]
  | _, _, _, .yes, _, fuel, _ => by simp [readValue, skipBlank_of_visible, isBlank]
  | _, _, _, .no, _, fuel, _ => by simp [readValue, skipBlank_of_visible, isBlank]
  | _, _, _, .number numeral, ended, fuel, _ => readValue_number numeral ended
  | _, _, _, .text spelling, _, fuel, _ => by
    simp [readValue, skipBlank_of_visible, isBlank, readText, spelling.reads]
  | _, _, _, .noItems gap, _, fuel, _ => by
    simp [readValue, skipBlank_of_visible, isBlank, gap.skipped]
  | _, _, _, .noFields gap, _, fuel, _ => by
    simp [readValue, skipBlank_of_visible, isBlank, gap.skipped]
  | _, _, _, .list items, _, fuel, enough => by
    rw [List.length_cons] at enough
    obtain ⟨fuel, rfl⟩ : ∃ less, fuel = less + 1 := ⟨fuel - 1, by omega⟩
    obtain ⟨c, rest, head, -, inside⟩ := items.head
    exact readValue_list head inside (items.reads fuel (by omega))
  | _, _, _, .object fields, _, fuel, enough => by
    rw [List.length_cons] at enough
    obtain ⟨fuel, rfl⟩ : ∃ less, fuel = less + 1 := ⟨fuel - 1, by omega⟩
    obtain ⟨rest, head⟩ := fields.head
    exact readValue_object head (by decide) (fields.reads fuel (by omega))
theorem Value.Spaced.reads : ∀ {value text behind}, Value.Spaced value text behind → Ended behind →
    ∀ fuel, 2 * text.length ≤ fuel + 1 →
      ∃ rest, readValue (fuel + 1) text = (value, rest) ∧ skipBlank rest = skipBlank behind
  | _, _, _, .between before here after, ended, fuel, enough => by
    have shorter := before.length_le
    refine ⟨_, ?_, after.skipped⟩
    rw [← readValue_skipBlank, before.skipped, readValue_skipBlank]
    exact here.reads (ended.blanks after) fuel (by omega)
theorem Items.Spelt.reads : ∀ {items text behind}, Items.Spelt items text behind →
    ∀ fuel, 2 * text.length ≤ fuel → readItems (fuel + 1) text = (items, behind)
  | _, _, _, .last here, fuel, enough => by
    have shorter := here.length_lt
    obtain ⟨fuel, rfl⟩ : ∃ less, fuel = less + 1 := ⟨fuel - 1, by omega⟩
    obtain ⟨rest, reads, after⟩ := here.reads (.mark (by decide)) fuel (by omega)
    exact readItems_last reads after
  | _, _, _, .next here others, fuel, enough => by
    have shorter := here.length_lt
    rw [List.length_cons] at shorter
    obtain ⟨fuel, rfl⟩ : ∃ less, fuel = less + 1 := ⟨fuel - 1, by omega⟩
    obtain ⟨rest, reads, after⟩ := here.reads (.mark (by decide)) fuel (by omega)
    exact readItems_next reads after (others.reads fuel (by omega))
theorem Fields.Spelt.reads : ∀ {fields text behind}, Fields.Spelt fields text behind →
    ∀ fuel, 2 * text.length ≤ fuel → readFields (fuel + 1) text = (fields, behind)
  | _, _, _, .last key here, fuel, enough => by
    have keyShorter := key.length_lt
    have shorter := here.length_lt
    rw [List.length_cons] at keyShorter shorter
    obtain ⟨fuel, rfl⟩ : ∃ less, fuel = less + 1 := ⟨fuel - 1, by omega⟩
    obtain ⟨rest, reads, after⟩ := here.reads (.mark (by decide)) fuel (by omega)
    exact readFields_last key reads after
  | _, _, _, .next key here others, fuel, enough => by
    have keyShorter := key.length_lt
    have shorter := here.length_lt
    rw [List.length_cons] at keyShorter shorter
    obtain ⟨fuel, rfl⟩ : ∃ less, fuel = less + 1 := ⟨fuel - 1, by omega⟩
    obtain ⟨rest, reads, after⟩ := here.reads (.mark (by decide)) fuel (by omega)
    exact readFields_next key reads after (others.reads fuel (by omega))
end

theorem spelling_of_readText (reads : readText text = some (name, behind)) :
    Value.Spelt (.text name) ('"' :: text) behind := by
  obtain ⟨⟨pieces, rest⟩, spelling, same⟩ := Option.map_eq_some_iff.mp reads
  cases same
  exact .text (spelling_of_reads spelling)

-- By the fuel. Where the reader breaks off it leaves a fault in its place, and then nothing is whole.
mutual
theorem spelt_of_readValue : ∀ (fuel : Nat) (text : List Char) (value : Value) (behind : List Char),
    readValue fuel text = (value, behind) → value.isWhole → value.Spelt (skipBlank text) behind
  | 0, _, _, _, reads, whole => by cases reads; cases whole
  | fuel + 1, text, value, behind, reads, whole => by
    rw [readValue] at reads
    split at reads
    case h_1 start => cases reads; rw [start]; exact .null
    case h_2 start => cases reads; rw [start]; exact .yes
    case h_3 start => cases reads; rw [start]; exact .no
    case h_4 start =>
      rw [start]
      split at reads
      · rename_i here
        cases reads
        exact spelling_of_readText here
      · cases reads
        cases whole
    case h_5 start =>
      rw [start]
      split at reads
      · rename_i gap
        cases reads
        exact .noItems (gap ▸ blanks_skipBlank _)
      · rw [readItems_skipBlank] at reads
        cases reads
        exact .list (spelt_of_readItems fuel _ _ _ rfl whole)
    case h_6 start =>
      rw [start]
      split at reads
      · rename_i gap
        cases reads
        exact .noFields (gap ▸ blanks_skipBlank _)
      · rw [readFields_skipBlank] at reads
        cases reads
        exact .object (spelt_of_readFields fuel _ _ _ rfl whole)
    case h_7 =>
      split at reads
      · rename_i here
        cases reads
        exact .number (numeral_of_reads here)
      · cases reads
        cases whole
theorem spelt_of_readItems : ∀ (fuel : Nat) (text : List Char) (items : Items) (behind : List Char),
    readItems fuel text = (items, behind) → items.isWhole → items.Spelt text behind
  | 0, _, _, _, reads, whole => by cases reads; cases whole
  | fuel + 1, text, items, behind, reads, whole => by
    have here := spelt_of_readValue fuel text _ _ rfl
    rw [readItems] at reads
    dsimp only at reads
    split at reads
    case h_1 after =>
      cases reads
      simp only [Items.isWhole, Bool.and_eq_true] at whole
      exact .next (.between (blanks_skipBlank text) (here whole.1) (after ▸ blanks_skipBlank _))
        (spelt_of_readItems fuel _ _ _ rfl whole.2)
    case h_2 after =>
      cases reads
      simp only [Items.isWhole, Bool.and_eq_true] at whole
      exact .last (.between (blanks_skipBlank text) (here whole.1) (after ▸ blanks_skipBlank _))
    case h_3 =>
      cases reads
      simp [Items.isWhole] at whole
theorem spelt_of_readFields : ∀ (fuel : Nat) (text : List Char) (fields : Fields) (behind : List Char),
    readFields fuel text = (fields, behind) → fields.isWhole → fields.Spelt text behind
  | 0, _, _, _, reads, whole => by cases reads; cases whole
  | fuel + 1, text, fields, behind, reads, whole => by
    rw [readFields] at reads
    split at reads
    case h_2 => cases reads; cases whole
    case h_1 start =>
      split at reads
      case h_1 => cases reads; cases whole
      case h_2 key =>
        split at reads
        case h_2 => cases reads; simp [Fields.isWhole, Value.isWhole] at whole
        case h_1 colon =>
          have name := Value.Spaced.between (start ▸ blanks_skipBlank text) (spelling_of_readText key)
            (colon ▸ blanks_skipBlank _)
          dsimp only at reads
          split at reads
          case h_1 after =>
            cases reads
            simp only [Fields.isWhole, Bool.and_eq_true] at whole
            exact .next name (.between (blanks_skipBlank _) (spelt_of_readValue fuel _ _ _ rfl whole.1)
              (after ▸ blanks_skipBlank _)) (spelt_of_readFields fuel _ _ _ rfl whole.2)
          case h_2 after =>
            cases reads
            simp only [Fields.isWhole, Bool.and_eq_true] at whole
            exact .last name (.between (blanks_skipBlank _) (spelt_of_readValue fuel _ _ _ rfl whole.1)
              (after ▸ blanks_skipBlank _))
          case h_3 =>
            cases reads
            simp [Fields.isWhole] at whole
end

mutual
theorem Value.Spelt.isWhole : ∀ {value text behind}, Value.Spelt value text behind → value.isWhole
  | _, _, _, .null | _, _, _, .yes | _, _, _, .no | _, _, _, .number _ | _, _, _, .text _ => rfl
  | _, _, _, .noItems _ | _, _, _, .noFields _ => rfl
  | _, _, _, .list items => items.isWhole
  | _, _, _, .object fields => fields.isWhole
theorem Value.Spaced.isWhole : ∀ {value text behind}, Value.Spaced value text behind → value.isWhole
  | _, _, _, .between _ here _ => here.isWhole
theorem Items.Spelt.isWhole : ∀ {items text behind}, Items.Spelt items text behind → items.isWhole
  | _, _, _, .last here => by simp [Items.isWhole, here.isWhole]
  | _, _, _, .next here others => by simp [Items.isWhole, here.isWhole, others.isWhole]
theorem Fields.Spelt.isWhole : ∀ {fields text behind}, Fields.Spelt fields text behind → fields.isWhole
  | _, _, _, .last _ here => by simp [Fields.isWhole, here.isWhole]
  | _, _, _, .next _ here others => by simp [Fields.isWhole, here.isWhole, others.isWhole]
end

-- The reader finds what a text spells; a text that spells nothing has a fault somewhere, or does not end.
theorem spells_iff {text : String} {value : Value} :
    Spells text value ↔ Document.read text = ⟨value, true⟩ ∧ value.isWhole := by
  constructor
  · intro spells
    obtain ⟨rest, reads, after⟩ := Value.Spaced.reads spells (fun c first => by cases first)
      (2 * text.toList.length + 1) (by omega)
    have ends : skipBlank rest = [] := after
    exact ⟨by simp [Document.read, reads, ends], Value.Spaced.isWhole spells⟩
  · rintro ⟨reads, whole⟩
    simp only [Document.read, Document.mk.injEq, List.isEmpty_iff] at reads
    have here := spelt_of_readValue _ _ _ _ rfl (reads.1 ▸ whole)
    exact .between (blanks_skipBlank _) (reads.1 ▸ here) (reads.2 ▸ blanks_skipBlank _)

end StateAttributes.Json
