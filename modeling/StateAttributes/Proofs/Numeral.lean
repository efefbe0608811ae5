import Mathlib.Data.Option.Basic
import StateAttributes.Json.Reader

namespace StateAttributes.Json

def digitValue (c : Char) : Nat := c.toNat - '0'.toNat

-- Each judgement relates a text to what stands behind the part that it is about.
inductive Digits : List Nat → List Char → List Char → Prop where
  | last (digit : c.isDigit) : Digits [digitValue c] (c :: behind) behind
  | more (digit : c.isDigit) (rest : Digits digits text behind) :
      Digits (digitValue c :: digits) (c :: text) behind

inductive Fraction : List Nat → List Char → List Char → Prop where
  | absent : Fraction [] text text
  | point (digits : Digits fraction text behind) : Fraction fraction ('.' :: text) behind

inductive Power : Bool × List Nat → List Char → List Char → Prop where
  | plain (digits : Digits power text behind) : Power (false, power) text behind
  | up (digits : Digits power text behind) : Power (false, power) ('+' :: text) behind
  | down (digits : Digits power text behind) : Power (true, power) ('-' :: text) behind

inductive Exponent : Option (Bool × List Nat) → List Char → List Char → Prop where
  | absent : Exponent none text text
  | marked (mark : c = 'e' ∨ c = 'E') (power : Power exponent text behind) :
      Exponent (some exponent) (c :: text) behind

-- A leading zero stands alone.
inductive Unsigned (n : Number) : List Char → List Char → Prop where
  | parts (whole : Digits n.whole text afterWhole) (leading : n.whole.head? = some 0 → n.whole.length = 1)
      (fraction : Fraction n.fraction afterWhole afterPoint) (exponent : Exponent n.exponent afterPoint behind) :
      Unsigned n text behind

inductive Numeral (n : Number) : List Char → List Char → Prop where
  | positive (sign : n.negative = false) (parts : Unsigned n text behind) : Numeral n text behind
  | negative (sign : n.negative = true) (parts : Unsigned n text behind) : Numeral n ('-' :: text) behind

def NoDigit (text : List Char) : Prop := ∀ c ∈ text.head?, c.isDigit = false

theorem visible_of_digit (digit : c.isDigit) : isBlank c = false := by
  simp only [isBlank, Bool.or_eq_false_iff, decide_eq_false_iff_not]
  refine ⟨⟨⟨?_, ?_⟩, ?_⟩, ?_⟩ <;> rintro rfl <;> cases digit

theorem Digits.length_lt (digits : Digits found text behind) : behind.length < text.length := by
  induction digits <;> simp only [List.length_cons] <;> omega

theorem Digits.ne_nil (digits : Digits found text behind) : found ≠ [] := by
  cases digits <;> exact List.cons_ne_nil _ _

theorem Digits.head (digits : Digits found text behind) : ∃ c rest, text = c :: rest ∧ c.isDigit := by
  cases digits with
  | last digit => exact ⟨_, _, rfl, digit⟩
  | more digit rest => exact ⟨_, _, rfl, digit⟩

theorem readDigits_digit (digit : c.isDigit) (rest : List Char) :
    readDigits (c :: rest) = (digitValue c :: (readDigits rest).1, (readDigits rest).2) := by
  simp [readDigits, digit, digitValue]

theorem readDigits_stop (stop : NoDigit text) : readDigits text = ([], text) := by
  cases text with
  | nil => rfl
  | cons c rest => simp [readDigits, stop c rfl]

theorem Digits.reads (digits : Digits found text behind) (stop : NoDigit behind) :
    readDigits text = (found, behind) := by
  induction digits with
  | last digit => rw [readDigits_digit digit, readDigits_stop stop]
  | more digit rest ih => rw [readDigits_digit digit, ih stop]

theorem readDigits_splits (text : List Char) :
    readDigits text = ([], text) ∨ Digits (readDigits text).1 text (readDigits text).2 := by
  induction text with
  | nil => exact .inl rfl
  | cons c rest ih =>
    cases digit : c.isDigit with
    | false => exact .inl (readDigits_stop (by simpa [NoDigit] using digit))
    | true =>
      rw [readDigits_digit digit]
      rcases ih with stopped | more
      · rw [stopped]
        exact .inr (.last digit)
      · exact .inr (.more digit more)

theorem digits_of_reads (reads : readDigits text = (found, behind)) (any : found ≠ []) :
    Digits found text behind := by
  rcases readDigits_splits text with stopped | digits
  · rw [reads] at stopped
    cases stopped
    exact absurd rfl any
  · rwa [reads] at digits

def readFraction? : List Char → Option (List Nat × List Char)
  | '.' :: rest =>
    match readDigits rest with
    | ([], _) => none
    | found => some found
  | text => some ([], text)

def readScale? : List Char → Option (Option (Bool × List Nat) × List Char)
  | 'e' :: rest | 'E' :: rest => (readExponent? rest).map fun (exponent, text) => (some exponent, text)
  | text => some (none, text)

theorem Fraction.length_le (fraction : Fraction found text behind) : behind.length ≤ text.length := by
  cases fraction with
  | absent => exact Nat.le_refl _
  | point digits => exact Nat.le_of_lt (Nat.lt_succ_of_lt digits.length_lt)

theorem Fraction.head (fraction : Fraction found text behind) : ∀ c ∈ text.head?, c = '.' ∨ c ∈ behind.head? := by
  cases fraction with
  | absent => exact fun c first => .inr first
  | point digits => simp

theorem Fraction.reads (fraction : Fraction found text behind) (stop : NoDigit behind)
    (point : behind.head? ≠ some '.') : readFraction? text = some (found, behind) := by
  cases fraction with
  | absent =>
    rw [readFraction?]
    rintro rest rfl
    exact point rfl
  | point digits =>
    rw [readFraction?, digits.reads stop]
    cases digits <;> rfl

theorem fraction_of_reads (reads : readFraction? text = some (found, behind)) : Fraction found text behind := by
  unfold readFraction? at reads
  split at reads
  · split at reads
    · cases reads
    · rename_i any
      refine .point (digits_of_reads (Option.some.inj reads) ?_)
      rintro rfl
      exact any _ (Option.some.inj reads)
  · cases reads
    exact .absent

theorem Power.length_lt (power : Power found text behind) : behind.length < text.length := by
  cases power with
  | plain digits => exact digits.length_lt
  | up digits | down digits => exact Nat.lt_succ_of_lt digits.length_lt

theorem Power.reads (power : Power found text behind) (stop : NoDigit behind) :
    readExponent? text = some (found, behind) := by
  cases power with
  | plain digits =>
    obtain ⟨c, rest, rfl, digit⟩ := digits.head
    have plus : c ≠ '+' := by rintro rfl; cases digit
    have minus : c ≠ '-' := by rintro rfl; cases digit
    have reads := digits.reads stop
    cases digits <;> simp [readExponent?, plus, minus, reads]
  | up digits | down digits =>
    have reads := digits.reads stop
    cases digits <;> simp [readExponent?, reads]

theorem power_of_reads (reads : readExponent? text = some (found, behind)) : Power found text behind := by
  unfold readExponent? at reads
  split at reads
  rename_i sign
  split at reads
  · cases reads
  · rename_i any here
    cases reads
    have digits := digits_of_reads here any
    split at sign <;> cases sign
    · exact .up digits
    · exact .down digits
    · exact .plain digits

theorem Exponent.length_le (exponent : Exponent found text behind) : behind.length ≤ text.length := by
  cases exponent with
  | absent => exact Nat.le_refl _
  | marked mark power => exact Nat.le_of_lt (Nat.lt_succ_of_lt power.length_lt)

theorem Exponent.head (exponent : Exponent found text behind) :
    ∀ c ∈ text.head?, c = 'e' ∨ c = 'E' ∨ c ∈ behind.head? := by
  cases exponent with
  | absent => exact fun c first => .inr (.inr first)
  | marked mark power => rcases mark with rfl | rfl <;> simp

theorem Exponent.reads (exponent : Exponent found text behind) (stop : NoDigit behind)
    (mark : behind.head? ≠ some 'e' ∧ behind.head? ≠ some 'E') : readScale? text = some (found, behind) := by
  cases exponent with
  | absent =>
    rw [readScale?]
    · rintro rest rfl
      exact mark.1 rfl
    · rintro rest rfl
      exact mark.2 rfl
  | marked mark power => rcases mark with rfl | rfl <;> simp [readScale?, power.reads stop]

theorem exponent_of_reads (reads : readScale? text = some (found, behind)) : Exponent found text behind := by
  unfold readScale? at reads
  split at reads
  · obtain ⟨⟨exponent, rest⟩, inner, same⟩ := Option.map_eq_some_iff.mp reads
    cases same
    exact .marked (.inl rfl) (power_of_reads inner)
  · obtain ⟨⟨exponent, rest⟩, inner, same⟩ := Option.map_eq_some_iff.mp reads
    cases same
    exact .marked (.inr rfl) (power_of_reads inner)
  · cases reads
    exact .absent

-- A number is read sign by sign and part by part.
def readUnsigned? (negative : Bool) (text : List Char) : Option (Number × List Char) := do
  let (whole, text) := readDigits text
  guard (!whole.isEmpty && (whole.head? ≠ some 0 || whole.length = 1))
  let (fraction, text) ← readFraction? text
  let (exponent, text) ← readScale? text
  return (⟨negative, whole, fraction, exponent⟩, text)

theorem readFraction_parts (text : List Char) (onward : List Nat × List Char → Option α) :
    (match text with
      | '.' :: rest =>
        match readDigits rest with
        | ([], _) => none >>= onward
        | found => some found >>= onward
      | _ => some ([], text) >>= onward) = readFraction? text >>= onward := by
  unfold readFraction?
  split
  · cases readDigits _ with
    | mk digits rest => cases digits <;> rfl
  · rfl

theorem readScale_parts (negative : Bool) (whole fraction : List Nat) (text : List Char) :
    (match text with
      | 'e' :: rest | 'E' :: rest => do
        let (exponent, text) ← readExponent? rest
        return ((⟨negative, whole, fraction, some exponent⟩ : Number), text)
      | _ => return (⟨negative, whole, fraction, none⟩, text)) = do
    let (exponent, text) ← readScale? text
    return (⟨negative, whole, fraction, exponent⟩, text) := by
  unfold readScale?
  split
  · cases readExponent? _ <;> rfl
  · cases readExponent? _ <;> rfl
  · rfl

theorem readNumber_parts (text : List Char) :
    readNumber? text =
      match text with
      | '-' :: rest => readUnsigned? true rest
      | _ => readUnsigned? false text := by
  split
  case' h_2 other => rw [readNumber?.eq_2 _ other]
  case' h_1 => rw [readNumber?.eq_1]
  all_goals
    rw [readUnsigned?]
    cases readDigits _ with
    | mk whole afterWhole =>
      refine bind_congr fun _ => (readFraction_parts afterWhole _).trans ?_
      exact bind_congr fun _ => readScale_parts ..

theorem Unsigned.head (parts : Unsigned n text behind) : ∃ c rest, text = c :: rest ∧ c.isDigit := by
  obtain ⟨whole⟩ := parts
  exact whole.head

theorem Unsigned.length_lt (parts : Unsigned n text behind) : behind.length < text.length := by
  obtain ⟨whole, -, fraction, exponent⟩ := parts
  exact Nat.lt_of_le_of_lt exponent.length_le (Nat.lt_of_le_of_lt fraction.length_le whole.length_lt)

-- What stands behind a value in a document: nothing, a blank, or the next mark.
def Ended (text : List Char) : Prop := ∀ c ∈ text.head?, isBlank c ∨ c ∈ [',', ':', ']', '}']

theorem Ended.mark (mark : c ∈ [',', ':', ']', '}']) : Ended (c :: rest) := by
  rintro _ ⟨⟩
  exact .inr mark

theorem Ended.ne (ended : Ended text) (inside : isBlank c = false ∧ c ∉ [',', ':', ']', '}']) :
    text.head? ≠ some c := by
  intro first
  rcases ended c first with blank | mark
  · rw [inside.1] at blank
    cases blank
  · exact inside.2 mark

theorem Ended.noDigit (ended : Ended text) : NoDigit text := by
  intro c first
  rcases ended c first with blank | mark
  · cases digit : c.isDigit with
    | false => rfl
    | true =>
      rw [visible_of_digit digit] at blank
      cases blank
  · simp only [List.mem_cons, List.not_mem_nil, or_false] at mark
    rcases mark with rfl | rfl | rfl | rfl <;> rfl

theorem Unsigned.reads (parts : Unsigned n text behind) (ended : Ended behind) :
    readUnsigned? n.negative text = some (n, behind) := by
  obtain ⟨whole, leading, fraction, exponent⟩ := parts
  rename_i afterWhole afterPoint
  have marks := exponent.head
  have point : afterPoint.head? ≠ some '.' := by
    intro first
    rcases marks '.' first with other | other | later
    · cases other
    · cases other
    · exact ended.ne (by decide) later
  have afterPointStops : NoDigit afterPoint := by
    intro c first
    rcases marks c first with rfl | rfl | later
    · rfl
    · rfl
    · exact ended.noDigit c later
  have afterWholeStops : NoDigit afterWhole := by
    intro c first
    rcases fraction.head c first with rfl | later
    · rfl
    · exact afterPointStops c later
  have leads : ¬ n.whole.head? = some 0 ∨ n.whole.length = 1 := Decidable.not_or_of_imp leading
  unfold readUnsigned?
  rw [whole.reads afterWholeStops]
  refine Option.bind_eq_some_iff.mpr ⟨(), (Option.guard_eq_some' _).mpr (by simpa [whole.ne_nil] using leads), ?_⟩
  refine Option.bind_eq_some_iff.mpr ⟨_, fraction.reads afterPointStops point, ?_⟩
  refine Option.bind_eq_some_iff.mpr ⟨_, exponent.reads ended.noDigit ?_, rfl⟩
  exact ⟨ended.ne (by decide), ended.ne (by decide)⟩

theorem unsigned_of_reads (reads : readUnsigned? negative text = some (n, behind)) :
    n.negative = negative ∧ Unsigned n text behind := by
  unfold readUnsigned? at reads
  cases digits : readDigits text with
  | mk whole afterWhole =>
    rw [digits] at reads
    obtain ⟨_, checked, reads⟩ := Option.bind_eq_some_iff.mp reads
    obtain ⟨⟨fraction, afterPoint⟩, point, reads⟩ := Option.bind_eq_some_iff.mp reads
    obtain ⟨⟨exponent, rest⟩, scale, same⟩ := Option.bind_eq_some_iff.mp reads
    cases same
    have judged : whole ≠ [] ∧ (¬ whole.head? = some 0 ∨ whole.length = 1) := by
      simpa using (Option.guard_eq_some' _).mp checked
    exact ⟨rfl, .parts (digits_of_reads digits judged.1) judged.2.neg_resolve_left (fraction_of_reads point)
      (exponent_of_reads scale)⟩

namespace Numeral

theorem head (numeral : Numeral n text behind) : ∃ c rest, text = c :: rest ∧ (c = '-' ∨ c.isDigit) := by
  cases numeral with
  | positive sign parts =>
    obtain ⟨c, rest, same, digit⟩ := parts.head
    exact ⟨c, rest, same, .inr digit⟩
  | negative sign parts => exact ⟨'-', _, rfl, .inl rfl⟩

theorem visible (numeral : Numeral n text behind) :
    ∃ c rest, text = c :: rest ∧ isBlank c = false ∧ c ≠ ']' := by
  obtain ⟨c, rest, rfl, rfl | digit⟩ := numeral.head
  · exact ⟨_, _, rfl, rfl, by decide⟩
  · refine ⟨c, rest, rfl, visible_of_digit digit, ?_⟩
    rintro rfl
    cases digit

theorem length_lt (numeral : Numeral n text behind) : behind.length < text.length := by
  cases numeral with
  | positive sign parts => exact parts.length_lt
  | negative sign parts => exact Nat.lt_succ_of_lt parts.length_lt

theorem reads (numeral : Numeral n text behind) (ended : Ended behind) : readNumber? text = some (n, behind) := by
  rw [readNumber_parts]
  cases numeral with
  | positive sign parts =>
    obtain ⟨c, rest, rfl, digit⟩ := parts.head
    have reads := parts.reads ended
    rw [sign] at reads
    split
    · rename_i same
      cases same
      cases digit
    · exact reads
  | negative sign parts =>
    have reads := parts.reads ended
    rwa [sign] at reads

end Numeral

theorem numeral_of_reads (reads : readNumber? text = some (n, behind)) : Numeral n text behind := by
  rw [readNumber_parts] at reads
  split at reads
  · obtain ⟨sign, parts⟩ := unsigned_of_reads reads
    exact .negative sign parts
  · obtain ⟨sign, parts⟩ := unsigned_of_reads reads
    exact .positive sign parts

end StateAttributes.Json
