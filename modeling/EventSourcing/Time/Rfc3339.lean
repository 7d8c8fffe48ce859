import EventSourcing.Text.Blank
import EventSourcing.Text.Numeral
import EventSourcing.Time.Instant

/-!
Instants as text in the form of RFC 3339. Writing gives universal time with a fraction of 0, 3, 6
or 9 digits. Reading is lenient: blanks may stand between the parts, fields may be short, and the
zone may be any offset below a day. The first fault on the way is reported; what is left over
counts before a date that the calendar does not have.
-/

namespace EventSourcing.Rfc3339

def padded (width n : Nat) : List Char :=
  let digits := Nat.toDigits 10 n
  List.replicate (width - digits.length) '0' ++ digits

/-- A year outside 0 to 9999 has a sign. -/
def yearText (year : Int) : List Char :=
  if 0 ≤ year ∧ year ≤ 9999 then padded 4 year.toNat
  else (if year < 0 then '-' else '+') :: padded 4 year.natAbs

/-- The fewest digits of 0, 3, 6 and 9 that are exact. -/
def fractionText (nanos : Nat) : List Char :=
  if nanos = 0 then []
  else if nanos % 1000000 = 0 then '.' :: padded 3 (nanos / 1000000)
  else if nanos % 1000 = 0 then '.' :: padded 6 (nanos / 1000)
  else '.' :: padded 9 nanos

def chars (instant : Instant) : List Char :=
  let date := CalendarDate.ofDayNumber (instant.seconds / 86400)
  let time := (instant.seconds % 86400).toNat
  let leap := instant.nanos / Instant.nanosPerSecond
  yearText date.year ++ '-' :: padded 2 date.month ++ '-' :: padded 2 date.day ++
    'T' :: padded 2 (time / 3600) ++ ':' :: padded 2 (time / 60 % 60) ++
    ':' :: padded 2 (time % 60 + leap) ++ fractionText (instant.nanos % Instant.nanosPerSecond) ++
    ['Z']

def text (instant : Instant) : String :=
  String.ofList (chars instant)

inductive Fault where
  | tooShort
  | invalid
  | outOfRange
  | trailing
  | impossible
  deriving DecidableEq, Repr

namespace Fault

def message : Fault → String
  | .tooShort => "premature end of input"
  | .invalid => "input contains invalid characters"
  | .outOfRange => "input is out of range"
  | .trailing => "trailing input"
  | .impossible => "no possible date and time matching input"

end Fault

/-- Digits are read as far as 64-bit words reach. -/
def wordLimit : Nat := Nat.pow 2 63

/-- At most `width` digits, appended to `value`. -/
def moreDigits : Nat → Nat → List Char → Except Fault (Nat × List Char)
  | 0, value, text => .ok (value, text)
  | _ + 1, value, [] => .ok (value, [])
  | width + 1, value, c :: rest =>
    match Text.digit? c with
    | none => .ok (value, c :: rest)
    | some digit =>
      let next := value * 10 + digit
      if next < wordLimit then moreDigits width next rest else .error .outOfRange

/-- At least one digit and at most `width`. -/
def number (width : Nat) : List Char → Except Fault (Nat × List Char)
  | [] => .error .tooShort
  | c :: rest =>
    match Text.digit? c with
    | none => .error .invalid
    | some _ => moreDigits width 0 (c :: rest)

/-- A number between two bounds, after blanks. -/
def field (low high : Nat) (text : List Char) : Except Fault (Nat × List Char) := do
  let (value, rest) ← number 2 (Text.trimStart text)
  if low ≤ value ∧ value ≤ high then pure (value, rest) else throw .outOfRange

/-- Four digits, or a sign and any number of them. -/
def year (text : List Char) : Except Fault (Int × List Char) := do
  let (value, rest) ←
    match Text.trimStart text with
    | '-' :: digits => (number digits.length digits).map fun (value, rest) => (-(value : Int), rest)
    | '+' :: digits => (number digits.length digits).map fun (value, rest) => ((value : Int), rest)
    | digits => (number 4 digits).map fun (value, rest) => ((value : Int), rest)
  if (Text.Bounds.signed 32).Holds value then pure (value, rest) else throw .outOfRange

/-- The mark between two parts, after blanks. -/
def mark (expected : Char) (text : List Char) : Except Fault (List Char) :=
  match Text.trimStart text with
  | [] => .error .tooShort
  | c :: rest => if c = expected then .ok rest else .error .invalid

def dateTimeMark : List Char → Except Fault (List Char)
  | [] => .error .tooShort
  | c :: rest => if c = 't' ∨ c = 'T' ∨ c = ' ' then .ok rest else .error .invalid

/-- Digits after a point, as nanoseconds; those after the ninth are passed over. -/
def fraction : List Char → Except Fault (Nat × List Char)
  | '.' :: digits => do
    let (value, rest) ← number 9 digits
    let width := digits.length - rest.length
    pure (value * Nat.pow 10 (9 - width), rest.dropWhile Char.isDigit)
  | text => .ok (0, text)

def twoDigits : List Char → Except Fault (Option (Nat × Nat) × List Char)
  | [] => .error .tooShort
  | [c] => if c.utf8Size < 2 then .error .tooShort else .error .invalid
  | a :: b :: rest =>
    match Text.digit? a, Text.digit? b with
    | some tens, some ones => .ok (some (tens, ones), rest)
    | _, _ => .ok (none, rest)

def isSeparator (c : Char) : Bool :=
  c = ':' || Text.isBlank c

/-- Seconds east of universal time, after the sign. -/
def offsetSize (text : List Char) : Except Fault (Nat × List Char) := do
  let (hours, afterHours) ← twoDigits text
  match hours with
  | none => throw .invalid
  | some (tens, ones) =>
    let (minutes, rest) ← twoDigits (afterHours.dropWhile isSeparator)
    match minutes with
    | none => throw .invalid
    | some (minuteTens, minuteOnes) =>
      if minuteTens < 6 then
        pure ((tens * 10 + ones) * 3600 + (minuteTens * 10 + minuteOnes) * 60, rest)
      else throw .outOfRange

def zone (text : List Char) : Except Fault (Int × List Char) :=
  if (text.take 3).map Char.toLower = ['u', 't', 'c'] then .ok (0, text.drop 3)
  else
    match text with
    | [] => .error .tooShort
    | c :: rest =>
      if c = 'Z' ∨ c = 'z' then .ok (0, rest)
      else if c = '+' then (offsetSize rest).map fun (size, left) => ((size : Int), left)
      else if c = '-' ∨ c = '\u2212' then
        (offsetSize rest).map fun (size, left) => (-(size : Int), left)
      else .error .invalid

/-- The fields of a date and a time of day with its zone. -/
structure Reading where
  date : CalendarDate
  hour : Nat
  minute : Nat
  second : Nat
  nanos : Nat
  offset : Int
  deriving DecidableEq, Repr

def reading (text : List Char) : Except Fault (Reading × List Char) := do
  let (year, text) ← year text
  let text ← mark '-' text
  let (month, text) ← field 1 12 text
  let text ← mark '-' text
  let (day, text) ← field 1 31 text
  let text ← dateTimeMark text
  let (hour, text) ← field 0 23 text
  let text ← mark ':' text
  let (minute, text) ← field 0 59 text
  let text ← mark ':' text
  let (second, text) ← field 0 60 text
  let (nanos, text) ← fraction text
  let (offset, text) ← zone (Text.trimStart text)
  pure (⟨⟨year, month, day⟩, hour, minute, second, nanos, offset⟩, text)

namespace Reading

/-- The years that an instant can lie in. -/
def yearBounds : Text.Bounds := ⟨-262143, 262142⟩

/-- Seconds of universal time; second 60 counts as second 59. -/
def seconds (reading : Reading) : Int :=
  reading.date.dayNumber * 86400 + reading.hour * 3600 + reading.minute * 60 +
    min reading.second 59 - reading.offset

/-- Second 60 is a leap second. -/
def leap (reading : Reading) : Nat :=
  reading.second - 59

/-- Both the date as it is written and the date in universal time lie in the calendar. -/
def instant (reading : Reading) : Except Fault Instant :=
  if ¬ (reading.offset.natAbs < 86400 ∧ reading.date.Valid ∧
      yearBounds.Holds reading.date.year) then .error .outOfRange
  else if ¬ yearBounds.Holds (CalendarDate.ofDayNumber (reading.seconds / 86400)).year then
    .error .impossible
  else .ok ⟨reading.seconds, reading.nanos + reading.leap * Instant.nanosPerSecond⟩

end Reading

def ofChars (text : List Char) : Except Fault Instant := do
  let (reading, rest) ← reading text
  if (Text.trimStart rest).isEmpty then reading.instant else throw .trailing

def ofText (text : String) : Except Fault Instant :=
  ofChars text.toList

end EventSourcing.Rfc3339
