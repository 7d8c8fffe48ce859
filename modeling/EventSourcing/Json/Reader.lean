import EventSourcing.Json.Number
import EventSourcing.Text.Numeral

/-!
Reading JSON text. Every step consumes at least one character, so the length of the text bounds the
number of steps. Of two members with one key the later counts.
-/

namespace EventSourcing.Json

def isGap (c : Char) : Bool :=
  c = ' ' || c = '\n' || c = '\t' || c = '\r'

def skipGap (text : List Char) : List Char :=
  text.dropWhile isGap

/-- The digits at the start of a text and what follows them. -/
def leadingDigits : List Char → List Nat × List Char
  | [] => ([], [])
  | c :: rest =>
    match Text.digit? c with
    | none => ([], c :: rest)
    | some digit =>
      let (digits, after) := leadingDigits rest
      (digit :: digits, after)

def digitsValue (digits : List Nat) : Nat :=
  digits.foldl (fun value digit => value * 10 + digit) 0

def readWhole (text : List Char) : Option (List Nat × List Char) :=
  match leadingDigits text with
  | ([], _) => none
  | (0 :: _ :: _, _) => none
  | found => some found

def readFraction : List Char → Option (Option (List Nat) × List Char)
  | '.' :: rest =>
    match leadingDigits rest with
    | ([], _) => none
    | (digits, after) => some (some digits, after)
  | text => some (none, text)

def readPowerDigits (negative : Bool) (text : List Char) : Option (Option Int × List Char) :=
  match leadingDigits text with
  | ([], _) => none
  | (digits, after) =>
    let size : Int := digitsValue digits
    some (some (if negative then -size else size), after)

def readPower : List Char → Option (Option Int × List Char)
  | c :: rest =>
    if c = 'e' || c = 'E' then
      match rest with
      | '-' :: digits => readPowerDigits true digits
      | '+' :: digits => readPowerDigits false digits
      | digits => readPowerDigits false digits
    else some (none, c :: rest)
  | [] => some (none, [])

def readNumber (text : List Char) : Option (Json × List Char) := do
  let (negative, unsigned) :=
    match text with
    | '-' :: rest => (true, rest)
    | _ => (false, text)
  let (whole, afterWhole) ← readWhole unsigned
  let (fraction, afterFraction) ← readFraction afterWhole
  let (power, rest) ← readPower afterFraction
  let value ← NumberText.value? ⟨negative, whole, fraction, power⟩
  pure (value, rest)

def hexValue? (c : Char) : Option Nat :=
  if '0' ≤ c ∧ c ≤ '9' then some (c.toNat - '0'.toNat)
  else if 'a' ≤ c ∧ c ≤ 'f' then some (c.toNat - 'a'.toNat + 10)
  else if 'A' ≤ c ∧ c ≤ 'F' then some (c.toNat - 'A'.toNat + 10)
  else none

/-- A code unit written with four hexadecimal digits. -/
def readUnit : List Char → Option (Nat × List Char)
  | a :: b :: c :: d :: rest => do
    let a ← hexValue? a
    let b ← hexValue? b
    let c ← hexValue? c
    let d ← hexValue? d
    pure (((a * 16 + b) * 16 + c) * 16 + d, rest)
  | _ => none

/-- The character after `\u`; a high surrogate needs a low one behind it. -/
def readCodePoint (text : List Char) : Option (Char × List Char) := do
  let (first, rest) ← readUnit text
  if 0xD800 ≤ first ∧ first < 0xDC00 then
    match rest with
    | '\\' :: 'u' :: more =>
      let (second, after) ← readUnit more
      if 0xDC00 ≤ second ∧ second < 0xE000 then
        pure (Char.ofNat (0x10000 + (first - 0xD800) * 0x400 + (second - 0xDC00)), after)
      else none
    | _ => none
  else if 0xDC00 ≤ first ∧ first < 0xE000 then none
  else pure (Char.ofNat first, rest)

def shortEscape? : Char → Option Char
  | '"' => some '"'
  | '\\' => some '\\'
  | '/' => some '/'
  | 'b' => some '\x08'
  | 'f' => some '\x0c'
  | 'n' => some '\n'
  | 'r' => some '\r'
  | 't' => some '\t'
  | _ => none

/-- The characters up to the closing quote; the opening one is already read. -/
def readString : Nat → List Char → Option (List Char × List Char)
  | 0, _ => none
  | _ + 1, [] => none
  | _ + 1, '"' :: rest => some ([], rest)
  | fuel + 1, '\\' :: 'u' :: rest => do
    let (c, after) ← readCodePoint rest
    let (text, last) ← readString fuel after
    pure (c :: text, last)
  | fuel + 1, '\\' :: e :: rest => do
    let c ← shortEscape? e
    let (text, last) ← readString fuel rest
    pure (c :: text, last)
  | fuel + 1, c :: rest => do
    if c.toNat < 0x20 || c = '\\' then none
    else
      let (text, last) ← readString fuel rest
      pure (c :: text, last)

def readWord (word : String) (value : Json) (text : List Char) : Option (Json × List Char) :=
  if word.toList.isPrefixOf text then some (value, text.drop word.length) else none

mutual

def readValue : Nat → List Char → Option (Json × List Char)
  | 0, _ => none
  | fuel + 1, text =>
    match skipGap text with
    | '\x7b' :: rest =>
      match skipGap rest with
      | '\x7d' :: after => some (.object [], after)
      | inner => do
        let (members, after) ← readMembers fuel inner []
        pure (.object members, after)
    | '[' :: rest =>
      match skipGap rest with
      | ']' :: after => some (.array [], after)
      | inner => do
        let (items, after) ← readItems fuel inner
        pure (.array items, after)
    | '"' :: rest => do
      let (chars, after) ← readString (rest.length + 1) rest
      pure (.string (String.ofList chars), after)
    | 'n' :: rest => readWord "null" .null ('n' :: rest)
    | 't' :: rest => readWord "true" (.boolean true) ('t' :: rest)
    | 'f' :: rest => readWord "false" (.boolean false) ('f' :: rest)
    | other => readNumber other

def readItems : Nat → List Char → Option (List Json × List Char)
  | 0, _ => none
  | fuel + 1, text => do
    let (item, after) ← readValue fuel text
    match skipGap after with
    | ',' :: rest =>
      let (items, last) ← readItems fuel rest
      pure (item :: items, last)
    | ']' :: rest => pure ([item], rest)
    | _ => none

def readMembers : Nat → List Char → List (String × Json) →
    Option (List (String × Json) × List Char)
  | 0, _, _ => none
  | fuel + 1, text, members =>
    match skipGap text with
    | '"' :: rest => do
      let (key, afterKey) ← readString (rest.length + 1) rest
      match skipGap afterKey with
      | ':' :: valueText =>
        let (value, after) ← readValue fuel valueText
        let members := Sorted.insert (String.ofList key) value members
        match skipGap after with
        | ',' :: more => readMembers fuel more members
        | '\x7d' :: last => pure (members, last)
        | _ => none
      | _ => none
    | _ => none

end

/-- The value that a whole text denotes. -/
def read? (text : String) : Option Json :=
  let chars := text.toList
  match readValue (2 * chars.length + 2) chars with
  | some (value, rest) => if (skipGap rest).isEmpty then some value else none
  | none => none

end EventSourcing.Json
