import Mathlib.Algebra.Ring.Nat
import Mathlib.Data.List.TakeWhile
import StateAttributes.Instant.Text

namespace StateAttributes.Instant

theorem digitsValue_eq (digits : List Char) : digitsValue digits = Nat.ofDigitChars 10 digits 0 :=
  Nat.ofDigitChars_eq_foldl.symm

theorem padded_length (width n : Nat) : (padded width n).length = width := by
  induction width generalizing n with
  | zero => rfl
  | succ width ih => simp [padded, ih]

theorem padded_digits (width n : Nat) : ∀ c ∈ padded width n, c.isDigit := by
  induction width generalizing n with
  | zero => simp [padded]
  | succ width ih =>
    intro c member
    rcases List.mem_append.mp member with earlier | last
    · exact ih (n / 10) c earlier
    · rw [List.mem_singleton.mp last, Nat.isDigit_digitChar]
      exact decide_eq_true (Nat.mod_lt n (by decide))

theorem padded_value (width n : Nat) : digitsValue (padded width n) = n % 10 ^ width := by
  rw [digitsValue_eq]
  induction width generalizing n with
  | zero => simp [padded, Nat.mod_one]
  | succ width ih =>
    have last : n % 10 < 10 := Nat.mod_lt n (by decide)
    rw [padded, Nat.ofDigitChars_append, ih, Nat.ofDigitChars_cons_digitChar_of_lt_ten last, Nat.ofDigitChars_nil,
      Nat.pow_succ, Nat.mul_comm (10 ^ width), Nat.mod_mul, Nat.add_comm]

theorem digit_visible {c : Char} (digit : c.isDigit) : Text.isBlank c = false := by
  simp only [Char.isDigit, ge_iff_le, Bool.and_eq_true, decide_eq_true_eq, UInt32.le_iff_toNat_le] at digit
  have low : 48 ≤ c.toNat := digit.1
  have high : c.toNat ≤ 57 := digit.2
  simp only [Text.isBlank, Text.blankRanges, List.any_cons, List.any_nil, Bool.or_false, Bool.or_eq_false_iff,
    Bool.and_eq_false_iff, decide_eq_false_iff_not]
  omega

theorem trimStart_of_visible {c : Char} (visible : Text.isBlank c = false) (rest : List Char) :
    Text.trimStart (c :: rest) = c :: rest := by
  simp [Text.trimStart, visible]

theorem trimStart_digits {digits : List Char} (all : ∀ c ∈ digits, c.isDigit) (nonempty : digits ≠ [])
    (behind : List Char) : Text.trimStart (digits ++ behind) = digits ++ behind := by
  obtain ⟨first, rest, rfl⟩ := List.exists_cons_of_ne_nil nonempty
  exact trimStart_of_visible (digit_visible (all first List.mem_cons_self)) _

theorem takeNumber_of_takeWhile {digits behind : List Char} (nonempty : digits ≠ [])
    (ends : ((digits ++ behind).take width).takeWhile Char.isDigit = digits) :
    takeNumber? width (digits ++ behind) = some (digitsValue digits, behind) := by
  simp [takeNumber?, ends, nonempty]

-- As many digits as the reader may take.
theorem takeNumber_width {digits : List Char} (all : ∀ c ∈ digits, c.isDigit) (nonempty : digits ≠ [])
    (behind : List Char) :
    takeNumber? digits.length (digits ++ behind) = some (digitsValue digits, behind) := by
  refine takeNumber_of_takeWhile nonempty ?_
  rw [List.take_left]
  exact List.takeWhile_eq_self_iff.mpr all

-- As many digits as there are.
theorem takeNumber_all {digits : List Char} (all : ∀ c ∈ digits, c.isDigit) (nonempty : digits ≠ [])
    {mark : Char} (other : mark.isDigit = false) (behind : List Char) :
    takeNumber? (digits ++ mark :: behind).length (digits ++ mark :: behind) =
      some (digitsValue digits, mark :: behind) := by
  refine takeNumber_of_takeWhile nonempty ?_
  rw [List.take_length, List.takeWhile_append_of_pos all, List.takeWhile_cons_of_neg (by simp [other]),
    List.append_nil]

theorem padded_nonempty (width n : Nat) : padded (width + 1) n ≠ [] := by simp [padded]

theorem takeNumber_padded (width : Nat) (small : n < 10 ^ (width + 1)) (behind : List Char) :
    takeNumber? (width + 1) (padded (width + 1) n ++ behind) = some (n, behind) := by
  have takes := takeNumber_width (padded_digits (width + 1) n) (padded_nonempty width n) behind
  rwa [padded_length, padded_value, Nat.mod_eq_of_lt small] at takes

theorem takeField_padded (small : n < 100) (behind : List Char) :
    takeField? (padded 2 n ++ behind) = some (n, behind) := by
  rw [takeField?, trimStart_digits (padded_digits 2 n) (padded_nonempty 1 n)]
  exact takeNumber_padded 1 small behind

theorem takeLiteral_same {literal : Char} (visible : Text.isBlank literal = false) (behind : List Char) :
    takeLiteral? literal (literal :: behind) = some behind := by
  simp [takeLiteral?, trimStart_of_visible visible]

theorem takeYear_short (small : n < 10000) (behind : List Char) :
    takeYear? (padded 4 n ++ behind) = some ((n : Int), behind) := by
  have digits := padded_digits 4 n
  have takes := takeNumber_padded 3 small behind
  obtain ⟨first, rest, text⟩ := List.exists_cons_of_ne_nil (padded_nonempty 3 n)
  have digit : first.isDigit := digits first (by simp [text])
  rw [takeYear?, trimStart_digits digits (padded_nonempty 3 n)]
  rw [text] at takes ⊢
  split
  case h_1 same =>
    obtain rfl := (List.cons.inj same).1
    cases digit
  case h_2 same =>
    obtain rfl := (List.cons.inj same).1
    cases digit
  case h_3 => rw [takes, Option.map_some]

-- What a long year shows behind its sign.
def yearDigits (size : Nat) : List Char :=
  List.replicate (4 - (Nat.toDigits 10 size).length) '0' ++ Nat.toDigits 10 size

theorem takeNumber_year (size : Nat) (behind : List Char) :
    takeNumber? (yearDigits size ++ '-' :: behind).length (yearDigits size ++ '-' :: behind) =
      some (size, '-' :: behind) := by
  have digits : ∀ c ∈ yearDigits size, c.isDigit := by
    intro c member
    rcases List.mem_append.mp member with zero | digit
    · rw [(List.mem_replicate.mp zero).2]
      rfl
    · exact Nat.isDigit_of_mem_toDigits (by decide) (by decide) digit
  have nonempty : yearDigits size ≠ [] := by simp [yearDigits, Nat.toDigits_ne_nil]
  have value : digitsValue (yearDigits size) = size := by
    rw [digitsValue_eq, yearDigits, Nat.ofDigitChars_append, Nat.ofDigitChars_replicate_zero, Nat.mul_zero,
      Nat.ofDigitChars_ten_toDigits]
  rw [takeNumber_all digits nonempty (by decide), value]

theorem takeYear_signed {year : Int} (long : ¬ (0 ≤ year ∧ year ≤ 9999)) (behind : List Char) :
    takeYear? (yearText year ++ '-' :: behind) = some (year, '-' :: behind) := by
  have takes := takeNumber_year year.natAbs behind
  rw [yearText, if_neg long]
  by_cases past : year < 0
  · have size : -(year.natAbs : Int) = year := by omega
    rw [if_pos past, List.cons_append, List.cons_append, ← yearDigits, takeYear?,
      trimStart_of_visible (by decide)]
    simp only [takes, Option.map_some, size]
  · have size : (year.natAbs : Int) = year := by omega
    rw [if_neg past, List.cons_append, List.cons_append, ← yearDigits, takeYear?,
      trimStart_of_visible (by decide)]
    simp only [takes, Option.map_some, size]

theorem takeYear_text (year : Int) (behind : List Char) :
    takeYear? (yearText year ++ '-' :: behind) = some (year, '-' :: behind) := by
  by_cases short : 0 ≤ year ∧ year ≤ 9999
  · have whole : (year.toNat : Int) = year := Int.toNat_of_nonneg short.1
    rw [yearText, if_pos short, takeYear_short (by omega), whole]
  · exact takeYear_signed short behind

-- A fraction of fewer than nine digits counts in a larger unit.
theorem takeFraction_padded (width unit : Nat) (scale : Nat.pow 10 (8 - width) = unit) (short : width < 9)
    (small : n < 10 ^ (width + 1)) :
    takeFraction? ('.' :: padded (width + 1) n ++ ['Z']) = some (n * unit, ['Z']) := by
  have digits := padded_digits (width + 1) n
  have takes : (padded (width + 1) n ++ ['Z']).takeWhile Char.isDigit = padded (width + 1) n := by
    rw [List.takeWhile_append_of_pos digits]
    exact List.append_nil _
  have used : (padded (width + 1) n).take 9 = padded (width + 1) n :=
    List.take_of_length_le (by rw [padded_length]; omega)
  have value := padded_value (width + 1) n
  rw [Nat.mod_eq_of_lt small] at value
  have left : 9 - (width + 1) = 8 - width := by omega
  simp only [List.cons_append, takeFraction?, takes, used, List.isEmpty_iff, padded_nonempty, if_false, value,
    padded_length, left, scale]
  rw [List.drop_left' (padded_length _ _)]

-- The digits that the writer leaves out are those that the reader puts back.
theorem takeFraction_text {fraction : Nat} (small : fraction < 1000000000) :
    takeFraction? (fractionText fraction ++ ['Z']) = some (fraction, ['Z']) := by
  unfold fractionText
  split
  · rename_i whole
    rw [whole]
    rfl
  · split
    · rename_i millis
      rw [takeFraction_padded 2 1000000 rfl (by decide) (by omega),
        Nat.div_mul_cancel (Nat.dvd_of_mod_eq_zero millis)]
    · split
      · rename_i micros
        rw [takeFraction_padded 5 1000 rfl (by decide) (by omega),
          Nat.div_mul_cancel (Nat.dvd_of_mod_eq_zero micros)]
      · rw [takeFraction_padded 8 1 rfl (by decide) (by omega), Nat.mul_one]

theorem of_fields (instant : Instant) :
    of? instant.year instant.month instant.day instant.hour instant.minute instant.second instant.nano =
      some instant := by
  simp [of?, instant.date, instant.time]

theorem earlier_none (instant : Instant) : instant.earlier? 0 = some instant := by
  have time := instant.time
  simp only [isTimeOfDay, Bool.and_eq_true, decide_eq_true_eq] at time
  have early : ¬ (60 * (instant.hour : Int) + instant.minute - 0 < 0) := by omega
  have late : ¬ (1440 ≤ 60 * (instant.hour : Int) + instant.minute - 0) := by omega
  have minutes : ((60 * (instant.hour : Int) + instant.minute - 0) % 1440).toNat =
      60 * instant.hour + instant.minute := by omega
  have hour : (60 * instant.hour + instant.minute) / 60 = instant.hour := by omega
  have minute : (60 * instant.hour + instant.minute) % 60 = instant.minute := by omega
  simp only [earlier?, if_neg early, if_neg late, minutes, hour, minute]
  exact instant.of_fields

-- A leap second is written as second sixty.
theorem ofFields_written (instant : Instant) :
    ofFields? instant.year instant.month instant.day instant.hour instant.minute
      (if instant.isLeapSecond then 60 else instant.second) (instant.nano % 1000000000) = some instant := by
  have time := instant.time
  simp only [isTimeOfDay, Bool.and_eq_true, decide_eq_true_eq] at time
  by_cases leap : instant.isLeapSecond
  · have nanos : 1000000000 ≤ instant.nano := by simpa [isLeapSecond] using leap
    have last : instant.second = 59 := by
      by_contra other
      rw [if_neg other] at time
      omega
    rw [if_pos last] at time
    have nano : instant.nano % 1000000000 + 1000000000 = instant.nano := by omega
    rw [if_pos leap, ofFields?, if_pos rfl, nano, ← last]
    exact instant.of_fields
  · have nanos : instant.nano < 1000000000 := by simpa [isLeapSecond] using leap
    have second : instant.second ≠ 60 := by omega
    rw [if_neg leap, ofFields?, if_neg second, Nat.mod_eq_of_lt nanos, if_pos nanos]
    exact instant.of_fields

theorem daysInMonth_le (year : Int) (month : Nat) : daysInMonth year month ≤ 31 := by
  unfold daysInMonth
  split
  · split <;> decide
  · split <;> decide

-- The fields from the left, each in front of all that follows it.
theorem write_eq (instant : Instant) :
    instant.write =
      yearText instant.year ++ '-' :: (padded 2 instant.month ++ '-' :: (padded 2 instant.day ++
        'T' :: (padded 2 instant.hour ++ ':' :: (padded 2 instant.minute ++
          ':' :: (padded 2 (if instant.isLeapSecond then 60 else instant.second) ++
            (fractionText (instant.nano % 1000000000) ++ ['Z'])))))) := by
  simp only [write, List.append_assoc, List.cons_append]

theorem read_write (instant : Instant) : read? instant.write = some instant := by
  have date := instant.date
  have time := instant.time
  simp only [isDate, isTimeOfDay, Bool.and_eq_true, decide_eq_true_eq] at date time
  have longest := daysInMonth_le instant.year instant.month
  have month : instant.month < 100 := by omega
  have day : instant.day < 100 := by omega
  have hour : instant.hour < 100 := by omega
  have minute : instant.minute < 100 := by omega
  have second : (if instant.isLeapSecond then 60 else instant.second) < 100 := by split <;> omega
  have nano : instant.nano % 1000000000 < 1000000000 := Nat.mod_lt _ (by decide)
  have dash := takeLiteral_same (show Text.isBlank '-' = false by decide)
  have colon := takeLiteral_same (show Text.isBlank ':' = false by decide)
  have universal : takeOffset? (Text.trimStart ['Z']) = some (0, []) := by decide
  rw [write_eq, read?]
  -- Each piece is taken from the front and leaves all that follows it.
  refine Option.bind_eq_some_iff.mpr ⟨_, takeYear_text instant.year _, ?_⟩
  refine Option.bind_eq_some_iff.mpr ⟨_, dash _, ?_⟩
  refine Option.bind_eq_some_iff.mpr ⟨_, takeField_padded month _, ?_⟩
  refine Option.bind_eq_some_iff.mpr ⟨_, dash _, ?_⟩
  refine Option.bind_eq_some_iff.mpr ⟨_, takeField_padded day _, ?_⟩
  refine Option.bind_eq_some_iff.mpr ⟨_, rfl, ?_⟩
  refine Option.bind_eq_some_iff.mpr ⟨_, takeField_padded hour _, ?_⟩
  refine Option.bind_eq_some_iff.mpr ⟨_, colon _, ?_⟩
  refine Option.bind_eq_some_iff.mpr ⟨_, takeField_padded minute _, ?_⟩
  refine Option.bind_eq_some_iff.mpr ⟨_, colon _, ?_⟩
  refine Option.bind_eq_some_iff.mpr ⟨_, takeField_padded second _, ?_⟩
  refine Option.bind_eq_some_iff.mpr ⟨_, takeFraction_text nano, ?_⟩
  refine Option.bind_eq_some_iff.mpr ⟨_, universal, ?_⟩
  refine Option.bind_eq_some_iff.mpr ⟨(), rfl, ?_⟩
  exact Option.bind_eq_some_iff.mpr ⟨instant, instant.ofFields_written, instant.earlier_none⟩

theorem parse_render (instant : Instant) : parse? instant.render = some instant := by
  rw [parse?, render, String.toList_ofList]
  exact read_write instant

end StateAttributes.Instant
