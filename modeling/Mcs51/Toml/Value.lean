import Mcs51.Binary64.Shortest
import Mcs51.Toml.Moment

/-!
# Values of a TOML document

A table's keys are texts; a document is a table. An array of tables is kept apart from an array that
holds tables, because only the first can be added to later in a document. The text of a value shows
tables with their keys in order.
-/

namespace Mcs51.Toml

inductive Value where
  | text (t : Text)
  | integer (n : Int)
  | boolean (b : Bool)
  | real (x : Binary64)
  | moment (m : Moment)
  | array (items : List Value)
  | table (entries : List (Text × Value))
  | tables (rows : List (List (Text × Value)))
  deriving Repr

/-- The values of keys. -/
abbrev Table := List (Text × Value)

namespace Table

def get? (t : Table) (key : Text) : Option Value := t.lookup key

/-- Gives a key a value, in place of the one it had. -/
def set (t : Table) (key : Text) (value : Value) : Table :=
  match t with
  | [] => [(key, value)]
  | (k, v) :: rest => if k == key then (k, value) :: rest else (k, v) :: set rest key value

/-- The entries in the order of their keys. -/
def sorted (t : Table) : Table := t.mergeSort fun a b => Text.le a.1 b.1

end Table

namespace Value

/-- A text between brackets, with spaces between its parts. -/
def bracketed (parts : List Text) : Text :=
  Text.ofString "[" ++ Text.joinWith (Text.ofString " ") parts ++ Text.ofString "]"

/-- The text of a table from the texts of its values. -/
def tableText (entries : List (Text × Text)) : Text :=
  Text.ofString "map" ++ bracketed
    ((entries.mergeSort fun a b => Text.le a.1 b.1).map fun (key, value) =>
      key ++ Text.ofString ":" ++ value)

mutual

/-- The text of a value. -/
def render : Value → Text
  | .text t => t
  | .integer n => Text.ofInt n
  | .boolean b => if b then Text.ofString "true" else Text.ofString "false"
  | .real x => x.text
  | .moment m => m.text
  | .array items => bracketed (renderAll items)
  | .table entries => tableText (renderEntries entries)
  | .tables rows => bracketed (renderRows rows)

/-- The texts of values. -/
def renderAll : List Value → List Text
  | [] => []
  | v :: rest => v.render :: renderAll rest

/-- The keys of a table with the texts of their values. -/
def renderEntries : List (Text × Value) → List (Text × Text)
  | [] => []
  | (key, v) :: rest => (key, v.render) :: renderEntries rest

/-- The texts of tables. -/
def renderRows : List (List (Text × Value)) → List Text
  | [] => []
  | row :: rest => tableText (renderEntries row) :: renderRows rest

end

end Value
end Mcs51.Toml
