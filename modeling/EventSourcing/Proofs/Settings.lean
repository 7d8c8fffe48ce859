import EventSourcing.Proofs.Numerals
import EventSourcing.Store.Settings

/-!
Settings of a store as they are set. Every variable that holds text has to stand for a value of its
field, and the field gets that value; the first one that does not is reported. A variable that holds
bytes which are no text counts as one that is not set.
-/

namespace EventSourcing

namespace Environment

/-- Whether a variable is set to a text. -/
def Holds (environment : Environment) (name text : String) : Prop :=
  environment name = some text.toUTF8.data.toList

theorem text?_eq_some_iff {environment : Environment} {name text : String} :
    environment.text? name = some text ↔ environment.Holds name text := by
  unfold text? Holds
  constructor
  · intro read
    obtain ⟨bytes, set, decoded⟩ := Option.bind_eq_some_iff.mp read
    unfold String.fromUTF8? at decoded
    split at decoded
    · obtain rfl := Option.some.inj decoded
      exact set
    · cases decoded
  · intro set
    rw [set, Option.bind_some, String.fromUTF8?]
    exact dif_pos text.isValidUTF8

theorem text?_eq_none_iff {environment : Environment} {name : String} :
    environment.text? name = none ↔ ∀ text, ¬environment.Holds name text := by
  simp only [← text?_eq_some_iff, Option.eq_none_iff_forall_ne_some, ne_eq]

/-- The environment in which a variable is not set. -/
def without (environment : Environment) (name : String) : Environment :=
  fun other => if other = name then none else environment other

/-- A variable that holds no text counts as one that is not set. -/
theorem text?_without {environment : Environment} {name : String}
    (garbled : ∀ text, ¬environment.Holds name text) :
    (environment.without name).text? = environment.text? := by
  funext other
  by_cases same : other = name
  · rw [same, text?_eq_none_iff.mpr garbled, text?, without, if_pos rfl]
    rfl
  · rw [text?, without, if_neg same, text?]

section Setting

variable {α : Type} (environment : Environment) (name : String) (Denotes : List Char → α → Prop)

/-- Whether a setting is to have a value: one that its variable stands for, without the blanks
around it, if that holds text, and the default if it does not. -/
def Gives (default value : α) : Prop :=
  (∀ text, environment.Holds name text →
    ∃ core, Text.Trims text.toList core ∧ Denotes core value) ∧
  ((∀ text, ¬environment.Holds name text) → value = default)

/-- Whether a variable holds a text that stands for no value. -/
def Offers (text : String) : Prop :=
  environment.Holds name text ∧ ∀ core value, Text.Trims text.toList core → ¬Denotes core value

/-- Whether a setting was read as its variable says. -/
structure Reads (default : α) (result : Except SettingError α) : Prop where
  ok_iff : ∀ value, result = .ok value ↔ environment.Gives name Denotes default value
  of_error : ∀ error, result = .error error →
    error.name = name ∧ environment.Offers name Denotes error.value

variable {Denotes}

theorem reads_setting {read : List Char → Except Text.NumeralFault α}
    (exactly : ∀ core value, read core = .ok value ↔ Denotes core value) (default : α) :
    environment.Reads name Denotes default (environment.setting name read default) := by
  cases held : environment.text? name with
  | none =>
    have none := text?_eq_none_iff.mp held
    have whole : environment.setting name read default = .ok default := by rw [setting, held]
    rw [whole]
    refine ⟨fun value => ⟨fun same => ⟨?_, fun _ => (Except.ok.inj same).symm⟩, ?_⟩, nofun⟩
    · exact fun text holds => absurd holds (none text)
    · exact fun given => congrArg Except.ok (given.2 none).symm
  | some text =>
    have holds := text?_eq_some_iff.mp held
    have trimmed {core : List Char} (trims : Text.Trims text.toList core) :
        core = Text.trim text.toList := (Text.trim_eq_iff.mpr trims).symm
    rw [setting, held]
    dsimp only
    cases result : read (Text.trim text.toList) with
    | error fault =>
      have refused (core : List Char) (value : α) (trims : Text.Trims text.toList core) :
          ¬Denotes core value := by
        intro denotes
        rw [trimmed trims] at denotes
        cases result.symm.trans ((exactly _ _).mpr denotes)
      refine ⟨fun value => iff_of_false nofun fun given => ?_, ?_⟩
      · obtain ⟨core, trims, denotes⟩ := given.1 text holds
        exact refused core value trims denotes
      · rintro error ⟨⟩
        exact ⟨rfl, holds, refused⟩
    | ok found =>
      refine ⟨fun value => ⟨?_, fun given => ?_⟩, nofun⟩
      · rintro ⟨⟩
        refine ⟨fun other alike => ?_, fun none => absurd holds (none text)⟩
        obtain rfl := Option.some.inj (held.symm.trans (text?_eq_some_iff.mpr alike))
        exact ⟨_, Text.trims_trim _, (exactly _ _).mp result⟩
      · obtain ⟨core, trims, denotes⟩ := given.1 text holds
        rw [trimmed trims] at denotes
        exact congrArg Except.ok (Except.ok.inj (result.symm.trans ((exactly _ _).mpr denotes)))

theorem reads_unsigned (bits default : Nat) :
    environment.Reads name (Text.IsCount (Nat.pow 2 bits)) default
      (environment.unsigned bits name default) :=
  environment.reads_setting name (fun _ _ => Text.readInteger_unsigned_iff bits) default

theorem reads_switch (default : Bool) :
    environment.Reads name Text.IsSwitch default (environment.switch name default) :=
  environment.reads_setting name (fun _ _ => Text.readSwitch_eq_ok_iff) default

end Setting

end Environment

namespace StoreSettings

/-- What can be set, in the order in which it is read. -/
inductive Field where
  | maxOperations
  | maxPerPacket
  | packing
  | idempotency
  | retryLimit

namespace Field

def all : List Field := [.maxOperations, .maxPerPacket, .packing, .idempotency, .retryLimit]

/-- The variable that sets a field. -/
def name : Field → String
  | .maxOperations => "CHRONICLE_MAX_OPERATIONS_PER_TRANSACTION"
  | .maxPerPacket => "CHRONICLE_MAX_EVENTS_PER_PACKET"
  | .packing => "CHRONICLE_PACKING_ENABLED"
  | .idempotency => "CHRONICLE_IDEMPOTENCY_ENABLED"
  | .retryLimit => "CHRONICLE_ANY_VERSION_RETRY_LIMIT"

def Value : Field → Type
  | .maxOperations | .maxPerPacket | .retryLimit => Nat
  | .packing | .idempotency => Bool

def value (settings : StoreSettings) : (field : Field) → field.Value
  | .maxOperations => settings.maxOperations
  | .maxPerPacket => settings.maxPerPacket
  | .packing => settings.packing
  | .idempotency => settings.idempotency
  | .retryLimit => settings.retryLimit

/-- Whether a text stands for a value of a field. -/
def Denotes : (field : Field) → List Char → field.Value → Prop
  | .maxOperations | .maxPerPacket => Text.IsCount UInt64.size
  | .packing | .idempotency => Text.IsSwitch
  | .retryLimit => Text.IsCount UInt32.size

/-- Whether the environment gives a field a value. -/
def Given (environment : Environment) (field : Field) (value : field.Value) : Prop :=
  environment.Gives field.name field.Denotes (field.value {}) value

/-- Whether the variable of a field holds a text that stands for none of its values. -/
def Offends (environment : Environment) (field : Field) : Prop :=
  ∃ text, environment.Offers field.name field.Denotes text

def read (environment : Environment) : (field : Field) → Except SettingError field.Value
  | .maxOperations => environment.unsigned 64 (name .maxOperations) (value {} .maxOperations)
  | .maxPerPacket => environment.unsigned 64 (name .maxPerPacket) (value {} .maxPerPacket)
  | .packing => environment.switch (name .packing) (value {} .packing)
  | .idempotency => environment.switch (name .idempotency) (value {} .idempotency)
  | .retryLimit => environment.unsigned 32 (name .retryLimit) (value {} .retryLimit)

theorem reads_read (environment : Environment) (field : Field) :
    environment.Reads field.name field.Denotes (field.value {}) (field.read environment) := by
  cases field with
  | maxOperations => exact environment.reads_unsigned _ 64 _
  | maxPerPacket => exact environment.reads_unsigned _ 64 _
  | packing => exact environment.reads_switch _ _
  | idempotency => exact environment.reads_switch _ _
  | retryLimit => exact environment.reads_unsigned _ 32 _

theorem offends_of_error {environment : Environment} {field : Field} {error : SettingError}
    (failed : field.read environment = .error error) : field.Offends environment :=
  ⟨_, ((field.reads_read environment).of_error error failed).2⟩

/-- What can be read does not offend. -/
theorem not_offends_of_ok {environment : Environment} {field : Field} {value : field.Value}
    (read : field.read environment = .ok value) : ¬field.Offends environment := by
  rintro ⟨text, holds, refused⟩
  obtain ⟨core, trims, denotes⟩ :=
    (((field.reads_read environment).ok_iff value).mp read).1 text holds
  exact refused core value trims denotes

end Field

theorem eq_of_value {first second : StoreSettings}
    (same : ∀ field : Field, field.value first = field.value second) : first = second := by
  obtain ⟨maxOperations, maxPerPacket, packing, idempotency, retryLimit⟩ := first
  have one : maxOperations = second.maxOperations := same .maxOperations
  have two : maxPerPacket = second.maxPerPacket := same .maxPerPacket
  have three : packing = second.packing := same .packing
  have four : idempotency = second.idempotency := same .idempotency
  have five : retryLimit = second.retryLimit := same .retryLimit
  rw [one, two, three, four, five]

theorem ofEnvironment_eq (environment : Environment) :
    ofEnvironment environment =
      (Field.read environment .maxOperations).bind fun maxOperations =>
      (Field.read environment .maxPerPacket).bind fun maxPerPacket =>
      (Field.read environment .packing).bind fun packing =>
      (Field.read environment .idempotency).bind fun idempotency =>
      (Field.read environment .retryLimit).bind fun retryLimit =>
      .ok ⟨maxOperations, maxPerPacket, packing, idempotency, retryLimit⟩ :=
  rfl

/-- Either all fields are read, or the first that is not ends the reading. -/
theorem ofEnvironment_cases (environment : Environment) :
    (∃ settings, ofEnvironment environment = .ok settings ∧
      ∀ field : Field, field.read environment = .ok (field.value settings)) ∨
    ∃ earlier field later error, Field.all = earlier ++ field :: later ∧
      (∀ before ∈ earlier, ∃ value, Field.read environment before = .ok value) ∧
      field.read environment = .error error ∧ ofEnvironment environment = .error error := by
  rw [ofEnvironment_eq]
  cases first : Field.read environment .maxOperations with
  | error error => exact .inr ⟨[], .maxOperations, _, error, rfl, by simp, first, rfl⟩
  | ok maxOperations =>
  cases second : Field.read environment .maxPerPacket with
  | error error =>
    exact .inr ⟨[.maxOperations], .maxPerPacket, _, error, rfl, by simp [first], second, rfl⟩
  | ok maxPerPacket =>
  cases third : Field.read environment .packing with
  | error error =>
    exact .inr ⟨[.maxOperations, .maxPerPacket], .packing, _, error, rfl, by simp [first, second],
      third, rfl⟩
  | ok packing =>
  cases fourth : Field.read environment .idempotency with
  | error error =>
    exact .inr ⟨[.maxOperations, .maxPerPacket, .packing], .idempotency, _, error, rfl,
      by simp [first, second, third], fourth, rfl⟩
  | ok idempotency =>
  cases fifth : Field.read environment .retryLimit with
  | error error =>
    exact .inr ⟨[.maxOperations, .maxPerPacket, .packing, .idempotency], .retryLimit, _, error, rfl,
      by simp [first, second, third, fourth], fifth, rfl⟩
  | ok retryLimit =>
    refine .inl ⟨_, rfl, fun field => ?_⟩
    cases field with
    | maxOperations => exact first
    | maxPerPacket => exact second
    | packing => exact third
    | idempotency => exact fourth
    | retryLimit => exact fifth

/-- Nothing but the texts of the variables counts. -/
theorem ofEnvironment_congr {first second : Environment} (same : first.text? = second.text?) :
    ofEnvironment first = ofEnvironment second := by
  have alike {α : Type} (name : String) (read : List Char → Except Text.NumeralFault α)
      (default : α) : first.setting name read default = second.setting name read default := by
    rw [Environment.setting, Environment.setting, same]
  simp only [ofEnvironment, Environment.unsigned, Environment.switch, alike]

/-- The settings are read exactly if no variable holds a text that stands for no value of its field.
Then each field has the value that the text of its variable stands for, without the blanks around
it, and the default if there is no text. Otherwise the first field whose variable offends is named
with the whole text. Bytes that are no text go unnoticed, as if the variable were not set. -/
theorem settings_as_given (environment : Environment) :
    ((∃ settings, ofEnvironment environment = .ok settings) ↔
      ∀ field : Field, ¬field.Offends environment) ∧
    (∀ settings, ofEnvironment environment = .ok settings ↔
      ∀ field : Field, field.Given environment (field.value settings)) ∧
    (∀ error, ofEnvironment environment = .error error →
      ∃ earlier field later, Field.all = earlier ++ field :: later ∧
        (∀ before ∈ earlier, ¬before.Offends environment) ∧ error.name = field.name ∧
        environment.Offers field.name field.Denotes error.value) ∧
    ∀ name, (∀ text, ¬environment.Holds name text) →
      ofEnvironment environment = ofEnvironment (environment.without name) := by
  have given (field : Field) := (field.reads_read environment).ok_iff
  refine ⟨?_, fun settings => ?_, fun error failed => ?_, fun name garbled => ?_⟩
  · rcases ofEnvironment_cases environment with
      ⟨settings, whole, fields⟩ | ⟨_, field, _, error, _, _, failed, whole⟩
    · exact iff_of_true ⟨settings, whole⟩ fun field => Field.not_offends_of_ok (fields field)
    · refine iff_of_false ?_ fun none => none field (Field.offends_of_error failed)
      rintro ⟨settings, read⟩
      cases whole.symm.trans read
  · rcases ofEnvironment_cases environment with
      ⟨found, whole, fields⟩ | ⟨_, field, _, error, _, _, failed, whole⟩
    · rw [whole, Except.ok.injEq]
      constructor
      · rintro rfl field
        exact (given field _).mp (fields field)
      · intro values
        refine eq_of_value fun field => ?_
        exact Except.ok.inj ((fields field).symm.trans ((given field _).mpr (values field)))
    · refine iff_of_false (fun read => ?_) fun values => ?_
      · cases whole.symm.trans read
      · cases failed.symm.trans ((given field _).mpr (values field))
  · rcases ofEnvironment_cases environment with
      ⟨settings, whole, -⟩ | ⟨earlier, field, later, other, order, before, fault, whole⟩
    · cases whole.symm.trans failed
    · obtain rfl := Except.error.inj (whole.symm.trans failed)
      refine ⟨earlier, field, later, order, fun passed member => ?_,
        (field.reads_read environment).of_error other fault⟩
      obtain ⟨value, read⟩ := before passed member
      exact Field.not_offends_of_ok read
  · exact ofEnvironment_congr (Environment.text?_without garbled).symm

/-- One variable holds a digit and a byte that is part of no text; no other variable is set. -/
def garbled : Environment := fun name =>
  if name = Field.name .maxOperations then some [53, 255] else none

/-- A variable that is set to bytes which are no text is not reported: its field has the default. -/
theorem garbled_variable_ignored :
    garbled (Field.name .maxOperations) = some [53, 255] ∧
      (∀ text, ¬garbled.Holds (Field.name .maxOperations) text) ∧
      ofEnvironment garbled = .ok {} := by
  have silent : garbled.text? (Field.name .maxOperations) = none := by decide
  exact ⟨rfl, Environment.text?_eq_none_iff.mp silent, rfl⟩

end StoreSettings

end EventSourcing
