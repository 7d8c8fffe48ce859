import EventSourcing.Text.Hidden

/-!
Quoted text, for messages: between double quotes, with a backslash before a quote or a backslash,
short forms for the common control characters, and the code point of every other hidden character.
-/

namespace EventSourcing.Text

def hexDigits (n : Nat) : List Char :=
  Nat.toDigits 16 n

/-- The form of one character inside a quoted text. -/
def escaped (c : Char) : List Char :=
  if c = '"' then ['\\', '"']
  else if c = '\\' then ['\\', '\\']
  else if c = '\n' then ['\\', 'n']
  else if c = '\t' then ['\\', 't']
  else if c = '\r' then ['\\', 'r']
  else if c = '\x00' then ['\\', '0']
  else if isHidden c then ['\\', 'u', '\x7b'] ++ hexDigits c.toNat ++ ['\x7d']
  else [c]

def quoted (text : String) : String :=
  String.ofList ('"' :: text.toList.flatMap escaped ++ ['"'])

end EventSourcing.Text
