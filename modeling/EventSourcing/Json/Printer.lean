import EventSourcing.Json

/-!
JSON text without blanks. Quotes, backslashes and control characters are escaped in strings; all
other characters stand for themselves.
-/

namespace EventSourcing.Json

def hexDigit (n : Nat) : Char :=
  Nat.digitChar (n % 16)

def escapedChar (c : Char) : List Char :=
  if c = '"' then ['\\', '"']
  else if c = '\\' then ['\\', '\\']
  else if c.toNat < 0x20 then ['\\', 'u', '0', '0', hexDigit (c.toNat / 16), hexDigit c.toNat]
  else [c]

def stringText (text : String) : String :=
  String.ofList ('"' :: text.toList.flatMap escapedChar ++ ['"'])

mutual

def print : Json → String
  | .null => "null"
  | .boolean value => if value then "true" else "false"
  | .integer value => toString value
  | .decimal value => value.text
  | .string text => stringText text
  | .array items => "[" ++ printItems true items ++ "]"
  | .object members => "\x7b" ++ printMembers true members ++ "\x7d"

def printItems : Bool → List Json → String
  | _, [] => ""
  | first, item :: rest => (if first then "" else ",") ++ print item ++ printItems false rest

def printMembers : Bool → List (String × Json) → String
  | _, [] => ""
  | first, (key, value) :: rest =>
    (if first then "" else ",") ++ stringText key ++ ":" ++ print value ++ printMembers false rest

end

end EventSourcing.Json
