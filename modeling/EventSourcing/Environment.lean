import EventSourcing.Text.Blank
import EventSourcing.Text.Numeral
import EventSourcing.Text.Quoted

/-!
Settings from environment variables. A variable that is not set, or that does not hold text, leaves
the default; any other has to denote a value once the blanks around it are removed.
-/

namespace EventSourcing

/-- The bytes that each variable is set to. -/
abbrev Environment := String → Option (List UInt8)

structure SettingError where
  name : String
  value : String
  fault : Text.NumeralFault
  deriving DecidableEq, Repr

namespace SettingError

def message (error : SettingError) : String :=
  "configuration error: " ++ error.name ++ " has invalid value " ++ Text.quoted error.value ++
    ": " ++ error.fault.message

end SettingError

namespace Environment

/-- The text of a variable. -/
def text? (environment : Environment) (name : String) : Option String :=
  (environment name).bind fun bytes => String.fromUTF8? ⟨bytes.toArray⟩

/-- A setting read by `read` from the trimmed text of a variable. An error keeps the whole text. -/
def setting {α : Type} (environment : Environment) (name : String)
    (read : List Char → Except Text.NumeralFault α) (default : α) : Except SettingError α :=
  match environment.text? name with
  | none => .ok default
  | some value =>
    match read (Text.trim value.toList) with
    | .ok setting => .ok setting
    | .error fault => .error ⟨name, value, fault⟩

def unsigned (environment : Environment) (bits : Nat) (name : String) (default : Nat) :
    Except SettingError Nat :=
  environment.setting name
    (fun text => (Text.readInteger (.unsigned bits) text).map Int.toNat) default

def switch (environment : Environment) (name : String) (default : Bool) :
    Except SettingError Bool :=
  environment.setting name Text.readSwitch default

end Environment

end EventSourcing
