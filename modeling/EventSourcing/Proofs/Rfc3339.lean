import EventSourcing.Proofs.Calendar
import EventSourcing.Proofs.Numerals
import EventSourcing.Time.Rfc3339

/-!
Instants read back as they were written, if they lie in the years from 0 to 9999 and in no leap
second. A number is written with all its digits, so a reader that wants so many of them stops where
the number ends.
-/

namespace EventSourcing

namespace Rfc3339

/-- Digits are read to the end if so many may be read. -/
theorem moreDigits_append {chars : List Char} (digits : ∀ c ∈ chars, c.isDigit = true)
    (value more : Nat) (rest : List Char) (small : Nat.ofDigitChars 10 chars value < wordLimit) :
    moreDigits (chars.length + more) value (chars ++ rest) =
      moreDigits more (Nat.ofDigitChars 10 chars value) rest := by
  induction chars generalizing value with
  | nil => simp
  | cons c others ih =>
    obtain ⟨digit, later⟩ := List.forall_mem_cons.mp digits
    rw [Nat.ofDigitChars_cons] at small ⊢
    rw [Nat.mul_comm 10 value] at small ⊢
    have next : value * 10 + (c.toNat - '0'.toNat) < wordLimit := by
      rw [Nat.ofDigitChars_eq_ofDigitChars_zero] at small
      have grows := Nat.le_mul_of_pos_left (value * 10 + (c.toNat - '0'.toNat))
        (Nat.pow_pos (n := others.length) (show 0 < 10 by decide))
      omega
    rw [← ih later _ small, List.length_cons, Nat.add_right_comm, List.cons_append, moreDigits,
      Text.digit?_of_isDigit digit]
    exact if_pos next

theorem moreDigits_of_stop {c : Char} (stop : Text.digit? c = none) (more value : Nat)
    (rest : List Char) : moreDigits more value (c :: rest) = .ok (value, c :: rest) := by
  cases more with
  | zero => rfl
  | succ more => simp only [moreDigits, stop]

section Padded

variable {width n : Nat}

theorem isDigit_of_mem_padded {c : Char} (member : c ∈ padded width n) : c.isDigit = true := by
  rcases List.mem_append.mp member with zero | digit
  · rw [List.eq_of_mem_replicate zero]
    rfl
  · exact Nat.isDigit_of_mem_toDigits (by decide) (by decide) digit

theorem length_padded (positive : 0 < width) (small : n < Nat.pow 10 width) :
    (padded width n).length = width := by
  have few : (Nat.toDigits 10 n).length ≤ width :=
    (Nat.length_toDigits_le_iff (by decide) positive).mpr small
  simp only [padded, List.length_append, List.length_replicate]
  omega

theorem ofDigitChars_padded (width n : Nat) : Nat.ofDigitChars 10 (padded width n) 0 = n := by
  rw [padded, Nat.ofDigitChars_append, Nat.ofDigitChars_replicate_zero, Nat.mul_zero,
    Nat.ofDigitChars_ten_toDigits]

/-- A number starts with a digit. -/
theorem exists_cons_padded (positive : 0 < width) (small : n < Nat.pow 10 width) :
    ∃ c rest, padded width n = c :: rest ∧ c.isDigit = true := by
  cases shape : padded width n with
  | nil =>
    have counted := length_padded positive small
    rw [shape, List.length_nil] at counted
    omega
  | cons c rest => exact ⟨c, rest, rfl, isDigit_of_mem_padded (shape ▸ List.mem_cons_self)⟩

/-- A number with all its digits is read to its end. -/
theorem number_padded (positive : 0 < width) (small : n < Nat.pow 10 width)
    (word : n < wordLimit) (more : Nat) (rest : List Char) :
    number (width + more) (padded width n ++ rest) = moreDigits more n rest := by
  obtain ⟨c, others, shape, digit⟩ := exists_cons_padded positive small
  have all := moreDigits_append
    (show ∀ c ∈ padded width n, c.isDigit = true from fun c member => isDigit_of_mem_padded member)
    0 more rest (by rwa [ofDigitChars_padded])
  rw [ofDigitChars_padded, length_padded positive small] at all
  rw [← all, shape, List.cons_append]
  simp only [number, Text.digit?_of_isDigit digit]

theorem trimStart_padded (positive : 0 < width) (small : n < Nat.pow 10 width) (rest : List Char) :
    Text.trimStart (padded width n ++ rest) = padded width n ++ rest := by
  obtain ⟨c, others, shape, digit⟩ := exists_cons_padded positive small
  rw [shape, List.cons_append]
  exact Text.trimStart_cons (Text.isBlank_of_isDigit digit) _

end Padded

theorem field_padded {low high n : Nat} (least : low ≤ n) (greatest : n ≤ high) (small : n < 100)
    (rest : List Char) : field low high (padded 2 n ++ rest) = .ok (n, rest) := by
  have word : n < wordLimit := Nat.lt_trans small (by decide)
  have read := number_padded (by decide : 0 < 2) small word 0 rest
  simp only [field, trimStart_padded (by decide : 0 < 2) small, read, moreDigits, bind, Except.bind,
    if_pos (And.intro least greatest)]
  rfl

theorem year_padded {n : Nat} (small : n < 10000) (rest : List Char) :
    year (padded 4 n ++ rest) = .ok ((n : Int), rest) := by
  have word : n < wordLimit := Nat.lt_trans small (by decide)
  have read := number_padded (by decide : 0 < 4) small word 0 rest
  have inside : (Text.Bounds.signed 32).Holds n := by
    constructor
    · exact Int.le_trans (by decide) (Int.natCast_nonneg n)
    · have bound : (n : Int) ≤ 9999 := by omega
      exact Int.le_trans bound (by decide)
  obtain ⟨c, others, shape, digit⟩ := exists_cons_padded (by decide : 0 < 4) small
  unfold year
  rw [trimStart_padded (by decide : 0 < 4) small]
  split
  · rename_i same
    rw [shape, List.cons_append] at same
    obtain rfl := (List.cons.inj same).1
    cases digit
  · rename_i same
    rw [shape, List.cons_append] at same
    obtain rfl := (List.cons.inj same).1
    cases digit
  · simp only [read, moreDigits, Except.map, bind, Except.bind, if_pos inside]
    rfl

theorem mark_cons {c : Char} (solid : Text.isBlank c = false) (rest : List Char) :
    mark c (c :: rest) = .ok rest := by
  rw [mark, Text.trimStart_cons solid]
  exact if_pos rfl

theorem fraction_padded {width n : Nat} (positive : 0 < width) (few : width ≤ 9)
    (small : n < Nat.pow 10 width) :
    fraction ('.' :: padded width n ++ ['Z']) = .ok (n * Nat.pow 10 (9 - width), ['Z']) := by
  have word : n < wordLimit :=
    Nat.lt_of_lt_of_le small (Nat.le_trans (Nat.pow_le_pow_right (by decide) few) (by decide))
  have read := number_padded positive small word (9 - width) ['Z']
  rw [Nat.add_sub_cancel' few, moreDigits_of_stop rfl] at read
  have counted : (padded width n ++ ['Z']).length - ['Z'].length = width := by
    rw [List.length_append, length_padded positive small, Nat.add_sub_cancel]
  simp only [List.cons_append, fraction, read, bind, Except.bind, counted]
  rfl

/-- However many digits a fraction is written with, its nanoseconds are read. -/
theorem fraction_fractionText {nanos : Nat} (small : nanos < Instant.nanosPerSecond) :
    fraction (fractionText nanos ++ ['Z']) = .ok (nanos, ['Z']) := by
  unfold Instant.nanosPerSecond at small
  unfold fractionText
  split
  · rename_i zero
    rw [zero]
    rfl
  · split
    · have fits : nanos / 1000000 < Nat.pow 10 3 := Nat.div_lt_of_lt_mul small
      have whole : nanos / 1000000 * Nat.pow 10 (9 - 3) = nanos :=
        Nat.div_mul_cancel (Nat.dvd_of_mod_eq_zero ‹_›)
      rw [fraction_padded (by decide) (by decide) fits, whole]
    · split
      · have fits : nanos / 1000 < Nat.pow 10 6 := Nat.div_lt_of_lt_mul small
        have whole : nanos / 1000 * Nat.pow 10 (9 - 6) = nanos :=
          Nat.div_mul_cancel (Nat.dvd_of_mod_eq_zero ‹_›)
        rw [fraction_padded (by decide) (by decide) fits, whole]
      · rw [fraction_padded (by decide) (by decide) small, Nat.sub_self]
        exact congrArg (fun value => Except.ok (value, ['Z'])) (Nat.mul_one nanos)

end Rfc3339

/-- Whether an instant lies in the years from 0 to 9999 and in no leap second. -/
structure Instant.Plain (instant : Instant) : Prop where
  nanos : instant.nanos < nanosPerSecond
  least : 0 ≤ (CalendarDate.ofDayNumber (instant.seconds / 86400)).year
  greatest : (CalendarDate.ofDayNumber (instant.seconds / 86400)).year ≤ 9999

namespace Rfc3339

/-- The fields of an instant as they are written. -/
def fields (instant : Instant) : Reading :=
  let time := (instant.seconds % 86400).toNat
  { date := CalendarDate.ofDayNumber (instant.seconds / 86400)
    hour := time / 3600
    minute := time / 60 % 60
    second := time % 60
    nanos := instant.nanos
    offset := 0 }

theorem reading_chars {instant : Instant} (plain : instant.Plain) :
    reading (chars instant) = .ok (fields instant, []) := by
  obtain ⟨small, least, greatest⟩ := plain
  obtain ⟨-, firstMonth, lastMonth, firstDay, lastDay⟩ :=
    CalendarDate.dayNumber_ofDayNumber (instant.seconds / 86400)
  have noLeap : instant.nanos / Instant.nanosPerSecond = 0 := Nat.div_eq_of_lt small
  have nanos : instant.nanos % Instant.nanosPerSecond = instant.nanos := Nat.mod_eq_of_lt small
  unfold fields chars
  generalize CalendarDate.ofDayNumber (instant.seconds / 86400) = date at *
  generalize counted : (instant.seconds % 86400).toNat = time
  have days : date.day ≤ 31 := by
    unfold CalendarDate.monthLength at lastDay
    split at lastDay
    · split at lastDay <;> omega
    · split at lastDay <;> omega
  have wholeYear : yearText date.year = padded 4 date.year.toNat := if_pos ⟨least, greatest⟩
  have year := year_padded (n := date.year.toNat) (by omega)
  have month := field_padded firstMonth lastMonth (by omega)
  have day := field_padded firstDay days (by omega)
  have hour := field_padded (Nat.zero_le _) (show time / 3600 ≤ 23 by omega) (by omega)
  have minute := field_padded (Nat.zero_le _) (show time / 60 % 60 ≤ 59 by omega) (by omega)
  have second := field_padded (Nat.zero_le _) (show time % 60 ≤ 60 by omega) (by omega)
  have hyphen := mark_cons (show Text.isBlank '-' = false by decide)
  have colon := mark_cons (show Text.isBlank ':' = false by decide)
  have dateTime (rest : List Char) : dateTimeMark ('T' :: rest) = .ok rest := rfl
  have zulu : zone (Text.trimStart ['Z']) = .ok (0, []) := rfl
  simp only [reading, wholeYear, noLeap, nanos, Nat.add_zero, List.append_assoc, List.cons_append,
    year, hyphen, month, day, dateTime, hour, colon, minute, second, fraction_fractionText small,
    zulu, bind, Except.bind, pure, Except.pure, Int.toNat_of_nonneg least]

/-- Instants are read back as they were written. -/
theorem ofText_text {instant : Instant} (plain : instant.Plain) :
    ofText (text instant) = .ok instant := by
  obtain ⟨told, valid⟩ := CalendarDate.dayNumber_ofDayNumber (instant.seconds / 86400)
  have seconds : (fields instant).seconds = instant.seconds := by
    simp only [Reading.seconds, fields, told]
    omega
  have inCalendar : Reading.yearBounds.Holds
      (CalendarDate.ofDayNumber (instant.seconds / 86400)).year :=
    ⟨Int.le_trans (by decide) plain.least, Int.le_trans plain.greatest (by decide)⟩
  have leap : (fields instant).leap = 0 := by
    simp only [Reading.leap, fields]
    omega
  have answer : (fields instant).instant = .ok instant := by
    unfold Reading.instant
    rw [seconds, leap, if_neg, if_neg]
    · rfl
    · exact not_not_intro inCalendar
    · exact not_not_intro ⟨(by decide : (0 : Int).natAbs < 86400), valid, inCalendar⟩
  simp only [ofText, text, String.toList_ofList, ofChars, reading_chars plain, bind, Except.bind]
  exact answer

end Rfc3339

end EventSourcing
