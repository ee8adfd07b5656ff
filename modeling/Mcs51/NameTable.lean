import Mcs51.Text.Decimal

/-!
# Numbered names

Several small sets of names are also numbered, and a number may come from outside. A number without
a name is shown with the title of its set.
-/

namespace Mcs51

/-- A numbered set of names. -/
structure NameTable where
  title : String
  names : List (Int × String)

/-- The name of a number. -/
def NameTable.name (table : NameTable) (code : Int) : Text :=
  match table.names.lookup code with
  | some name => Text.ofString name
  | none =>
    Text.ofString table.title ++ Text.ofString "(" ++ Text.ofInt code ++ Text.ofString ")"

/-- The first number of a name. -/
def NameTable.code? (table : NameTable) (name : Text) : Option Int :=
  (table.names.find? fun entry => Text.ofString entry.2 == name).map Prod.fst

end Mcs51
