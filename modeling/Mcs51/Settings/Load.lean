import Mcs51.Settings
import Mcs51.Toml.Document

/-!
# Settings from a document

A TOML document sets switches by name, in the order of their names. Its values are texts, integers
and truth values; any other value is refused. The switches before the first that is refused stay
set.
-/

namespace Mcs51.Settings

/-- The text of a value that a switch may have. -/
def switchText? : Toml.Value → Option Text
  | .text t => some t
  | .integer n => some (Text.ofInt n)
  | .boolean b => some (if b then Text.ofString "true" else Text.ofString "false")
  | _ => none

/-- Sets the switches of a table in turn until one is refused. -/
def applyEntries (s : Settings) : List (Text × Toml.Value) → Loaded
  | [] => ⟨s, none⟩
  | (name, value) :: rest =>
    match switchText? value with
    | none => ⟨s, some (.badValue name value.render)⟩
    | some text =>
      let next := s.setSwitch name text
      match next.error? with
      | some _ => next
      | none => applyEntries next.settings rest

/-- Sets the switches of a table that a document was read as, if it could be. -/
def applyTable (s : Settings) (table? : Option Toml.Table) : Loaded :=
  match table? with
  | none => ⟨s, some (.badDocument "not a TOML document")⟩
  | some table => applyEntries s table.sorted

/-- Sets the switches of a document. -/
def load (s : Settings) (document : Text) (table? : Text → Option Toml.Table := Toml.parse?) :
    Loaded :=
  s.applyTable (table? document)

end Mcs51.Settings
