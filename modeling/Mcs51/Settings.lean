import Mcs51.Message
import Mcs51.NameTable
import Mcs51.Text.Blank
import Mcs51.Text.LetterCase

/-!
# Settings

What a run of the assembler can be told: how to take soft violations, which register bank is
selected, how often code may be laid out again, the size of HEX records, and the language of
messages. Each is a named switch with a text value. A switch that is refused changes nothing.
-/

namespace Mcs51

/-! ## Policy -/

/-- How a soft violation is taken. -/
structure Setting where
  code : Int
  deriving Repr, DecidableEq

namespace Setting

def error : Setting := ⟨0⟩
def warn : Setting := ⟨1⟩
def ignore : Setting := ⟨2⟩

/-- The names of the settings. -/
def table : NameTable := ⟨"Setting", [(0, "error"), (1, "warn"), (2, "ignore")]⟩

def name (s : Setting) : Text := table.name s.code

end Setting

/-- A kind of soft violation. -/
structure Situation where
  code : Int
  deriving Repr, DecidableEq

namespace Situation

def omittedOperand : Situation := ⟨0⟩
def trailingOperand : Situation := ⟨1⟩
def addressOffset : Situation := ⟨2⟩

/-- The names of the situations, which are the names of their switches. -/
def table : NameTable :=
  ⟨"Situation", [(0, "omitted-operand"), (1, "trailing-operand"), (2, "address-offset")]⟩

def name (s : Situation) : Text := table.name s.code

end Situation

/-- How each situation is taken. -/
abbrev Policy := Situation → Setting

/-- An implied operand may be omitted; a trailing operand and an offset as a jump target are warned
of. -/
def Policy.standard : Policy := fun situation =>
  if situation = .omittedOperand then .ignore
  else if situation = .trailingOperand || situation = .addressOffset then .warn
  else .error

/-- Takes one situation in another way. -/
def Policy.set (policy : Policy) (situation : Situation) (setting : Setting) : Policy :=
  fun s => if s = situation then setting else policy s

/-! ## Settings -/

/-- The settings of a run. -/
structure Settings where
  policy : Policy := Policy.standard
  /-- The selected register bank. -/
  bank : Option Int := none
  /-- How often code may be laid out again. -/
  maxPasses : Int := 32
  /-- The number of data bytes in a HEX record. -/
  recordSize : Int := 16
  /-- The language of messages; empty for the system's. -/
  language : Text := []

/-- Why a switch is refused. -/
inductive SettingsError where
  | badSetting (value : Text)
  | unknownSwitch (name : Text)
  | badBank (value : Text)
  | badValue (switch value : Text)
  | badDocument (reason : Text)
  deriving Repr, DecidableEq

/-- The wording of a refusal. -/
def SettingsError.message : SettingsError → Text
  | .badSetting value => (Message.mk "'%v' is not one of error, warn or ignore" [value]).render
  | .unknownSwitch name => (Message.mk "unknown switch '%v'" [name]).render
  | .badBank value => (Message.mk "register bank '%v' is not 0..3 or unset" [value]).render
  | .badValue switch value => (Message.mk "switch %v: invalid value '%v'" [switch, value]).render
  | .badDocument reason => (Message.mk "config: %v" [reason]).render

/-- Reads the name of a setting. -/
def Setting.parse (value : Text) : Except SettingsError Setting :=
  let value := Text.lower (Text.trim value)
  match table.code? value with
  | some code => .ok ⟨code⟩
  | none => .error (.badSetting value)

/-- Reads the name of a situation. -/
def Situation.parse (name : Text) : Except SettingsError Situation :=
  let name := Text.lower (Text.trim name)
  match table.code? name with
  | some code => .ok ⟨code⟩
  | none => .error (.unknownSwitch name)

namespace Settings

/-- The settings of a run that is told nothing. -/
def standard : Settings := {}

/-- The largest number of data bytes in a HEX record. -/
def maxRecordSize : Int := 255

/-- Reads the value of a numeric switch between two bounds. -/
def readCount (switch value : Text) (least : Int) (most : Int) : Except SettingsError Int :=
  match Text.toInt64? value with
  | some n => if least ≤ n && n ≤ most then .ok n else .error (.badValue switch value)
  | none => .error (.badValue switch value)

/-- Reads a register bank, or `none` or `unset` for none. -/
def readBank (value : Text) : Except SettingsError (Option Int) :=
  if Text.isWord "unset" value || Text.isWord "none" value then .ok none
  else match Text.toInt64? value with
    | some n => if 0 ≤ n && n ≤ 3 then .ok (some n) else .error (.badBank value)
    | none => .error (.badBank value)

/-- Settings, and why a switch was refused on the way to them. -/
structure Loaded where
  settings : Settings
  error? : Option SettingsError := none

/-- Sets a switch. -/
def setSwitch (s : Settings) (name value : Text) : Loaded :=
  let name := Text.lower (Text.trim name)
  let value := Text.trim value
  if name == Text.ofString "register-bank" then
    match readBank value with
    | .error e => ⟨s, some e⟩
    | .ok bank => ⟨{ s with bank }, none⟩
  else if name == Text.ofString "max-passes" then
    match readCount name value 1 Text.maxInt64 with
    | .error e => ⟨s, some e⟩
    | .ok maxPasses => ⟨{ s with maxPasses }, none⟩
  else if name == Text.ofString "record-size" then
    match readCount name value 1 maxRecordSize with
    | .error e => ⟨s, some e⟩
    | .ok recordSize => ⟨{ s with recordSize }, none⟩
  else if name == Text.ofString "language" then ⟨{ s with language := value }, none⟩
  else match Situation.parse name with
    | .error e => ⟨s, some e⟩
    | .ok situation => match Setting.parse value with
      | .error e => ⟨s, some e⟩
      | .ok setting => ⟨{ s with policy := s.policy.set situation setting }, none⟩

/-- The settings, unless a switch was refused. -/
def Loaded.result (l : Loaded) : Except SettingsError Settings :=
  match l.error? with
  | none => .ok l.settings
  | some e => .error e

/-- The settings with a switch set, or why it is refused. -/
def set (s : Settings) (name value : Text) : Except SettingsError Settings :=
  (s.setSwitch name value).result

end Settings
end Mcs51
