import Mcs51.Toml.Reader

/-!
# Building a TOML document

Statements are carried out one after the other on a table. A table that a longer key implies may be
defined once more explicitly; any other key is defined once. A key that holds a plain array is the
exception: it may be defined again. An inline table is built apart from the document, key by key as
it is written, and stands beside the table that the document has at its path; where it takes that
table's place, the two are one from then on, so a later key of the inline table around it changes
both. For this reason tables are known by their numbers while a document is built.
-/

namespace Mcs51.Toml

/-- What a key holds while a document is built. -/
inductive Cell where
  | leaf (value : Value)
  | array (items : List Cell)
  | table (number : Nat)
  | tables (numbers : List Nat)
  deriving Repr

/-- A document under construction. -/
structure Builder where
  /-- The tables by their numbers; the document is the first. -/
  tables : Array (List (Text × Cell)) := #[[]]
  /-- The path of the table that keys belong to. -/
  context : List Text := []
  /-- The paths of tables that are implied and not yet defined. -/
  implied : List (List Text) := []
  /-- The paths of keys that hold arrays. -/
  arrays : List (List Text) := []

namespace Builder

/-! ## Tables -/

/-- What a key of a table holds. -/
def get? (b : Builder) (table : Nat) (key : Text) : Option Cell :=
  (b.tables.getD table []).lookup key

/-- A row of entries with another cell for a key. -/
def replace (key : Text) (cell : Cell) : List (Text × Cell) → List (Text × Cell)
  | [] => [(key, cell)]
  | (k, c) :: rest => if k == key then (k, cell) :: rest else (k, c) :: replace key cell rest

/-- Gives a key of a table a cell, in place of the one it had. -/
def set (b : Builder) (table : Nat) (key : Text) (cell : Cell) : Builder :=
  { b with tables := b.tables.modify table (replace key cell) }

/-- A new table. -/
def newTable (b : Builder) : Builder × Nat :=
  ({ b with tables := b.tables.push [] }, b.tables.size)

/-- The table that a path leads to from a table. In an array of tables it goes on in the last one.
-/
def follow (b : Builder) : Nat → List Text → Option Nat
  | table, [] => some table
  | table, key :: path =>
    match b.get? table key with
    | some (.table inner) => b.follow inner path
    | some (.tables inner) => inner.getLast? >>= fun last => b.follow last path
    | _ => none

/-! ## What is known of paths -/

def isImplied (b : Builder) (path : List Text) : Bool := b.implied.contains path

def imply (b : Builder) (path : List Text) : Builder :=
  if b.isImplied path then b else { b with implied := path :: b.implied }

def notImplied (b : Builder) (path : List Text) : Builder :=
  { b with implied := b.implied.filter (· != path) }

/-- The path that a key's kind is recorded for. -/
def kindPath (b : Builder) (key : Text) : List Text :=
  let path := b.context ++ if key.isEmpty then [] else [key]
  if path.isEmpty then [[]] else path

/-- Records whether a key holds an array. -/
def setKind (b : Builder) (key : Text) (isArray : Bool) : Builder :=
  let path := b.kindPath key
  let others := b.arrays.filter (· != path)
  { b with arrays := if isArray then path :: others else others }

/-! ## Definitions -/

/-- Defines a key of the current table. -/
def define (b : Builder) (key : Text) (cell : Cell) : Option Builder := do
  let table ← b.follow 0 b.context
  let path := b.context ++ [key]
  if (b.get? table key).isSome then
    if b.arrays.contains path then return (b.notImplied path).set table key cell
    else if b.isImplied path then return b.notImplied path
    else none
  else return b.set table key cell

/-- Opens the tables on the way to a path; those that are missing are implied. The result is the
last of them. -/
def openParents (b : Builder) (table : Nat) (done : List Text) :
    List Text → Option (Builder × Nat)
  | [] => some (b, table)
  | key :: rest =>
    let path := done ++ [key]
    match b.get? table key with
    | some (.table inner) => b.openParents inner path rest
    | some (.tables inner) => inner.getLast? >>= fun last => b.openParents last path rest
    | some _ => none
    | none =>
      let (b, inner) := b.newTable
      ((b.set table key (.table inner)).imply path).openParents inner path rest

/-- Makes the table at a path the current one: a new one in an array of tables, or a table that was
at most implied before. -/
def enter (b : Builder) (path : List Text) (inArray : Bool) : Option Builder := do
  let key ← path.getLast?
  let parents := path.dropLast
  let (b, table) ← b.openParents 0 [] parents
  let b := { b with context := parents }
  let (b, inner) := b.newTable
  let b ← if inArray then
      match b.get? table key with
      | none => some (b.set table key (.tables [inner]))
      | some (.tables rows) => some (b.set table key (.tables (rows ++ [inner])))
      | some _ => none
    else b.define key (.table inner)
  return { b with context := path }

/-- Goes down a path of implied tables from the current one. -/
def descend (b : Builder) : List Text → Option Builder
  | [] => some b
  | key :: rest => do
    let path := b.context ++ [key]
    let b ← (b.imply path).enter path false
    descend b rest

/-- Sets the cell at a path in an inline table. -/
def insertAt (b : Builder) (cell : Cell) : Nat → List Text → Text → Option Builder
  | table, [], key => some (b.set table key cell)
  | table, k :: path, key =>
    match b.get? table k with
    | none =>
      let (b, inner) := b.newTable
      (b.set table k (.table inner)).insertAt cell inner path key
    | some (.table inner) => b.insertAt cell inner path key
    | some _ => none

/-- The item is an array. -/
def isArray : Item → Bool
  | .array _ => true
  | _ => false

mutual

/-- The cell of an item for a key of the current table; `inArray` says whether it is an item of an
array. The tables within it are entered, so that no key is defined twice. -/
def evaluate (b : Builder) (key : Text) (inArray : Bool) : Item → Option (Builder × Cell)
  | .leaf value => some (b, .leaf value)
  | .array items => do
    let (b, cells) ← evaluateAll (b.setKind key true) key items
    return (b, .array cells)
  | .table entries => do
    let outer := b.context
    let path := outer ++ [key]
    let b ← (b.imply path).enter path inArray
    let (b, table) := b.newTable
    let b ← evaluateEntries b path table entries
    return ({ b with context := outer }, .table table)

/-- The cells of the items of an array. -/
def evaluateAll (b : Builder) (key : Text) : List Item → Option (Builder × List Cell)
  | [] => some (b, [])
  | item :: items => do
    let (b, cell) ← evaluate b key true item
    let (b, cells) ← evaluateAll b key items
    return (b, cell :: cells)

/-- Carries out the entries of the inline table `table` at a path. -/
def evaluateEntries (b : Builder) (path : List Text) (table : Nat) :
    List (List Text × Item) → Option Builder
  | [] => some b
  | (key, item) :: entries => do
    let last ← key.getLast?
    let b ← b.descend key.dropLast
    let (b, cell) ← evaluate b last false item
    let b ← b.define last cell
    let b := b.setKind last (isArray item)
    let b ← b.insertAt cell table key.dropLast last
    evaluateEntries { b with context := path } path table entries

end

/-- Carries out a statement. -/
def perform (b : Builder) : Statement → Option Builder
  | .header path => do
    let b ← b.enter path false
    return b.setKind [] false
  | .arrayHeader path => do
    let b ← b.enter path true
    return b.setKind [] false
  | .entry path item => do
    let outer := b.context
    let (b, table) := b.newTable
    let b ← evaluateEntries b outer table [(path, item)]
    return { b with context := outer }

/-! ## The result -/

/-- The value of a cell; `fuel` bounds how deep cells stand within each other. -/
def value (b : Builder) : Nat → Cell → Value
  | 0, _ => .table []
  | _ + 1, .leaf value => value
  | fuel + 1, .array items => .array (items.map (b.value fuel))
  | fuel + 1, .table number => .table (entries fuel number)
  | fuel + 1, .tables numbers => .tables (numbers.map (entries fuel))
where
  /-- The entries of a table with their values. -/
  entries (fuel : Nat) (number : Nat) : Table :=
    (b.tables.getD number []).map fun (key, cell) => (key, b.value fuel cell)

end Builder

/-- The table of a document, if it is one. A cell within another one takes a byte of the document at
least. -/
def parse? (document : Text) : Option Table := do
  let statements ← statements? document
  let b ← statements.foldlM Builder.perform {}
  match b.value (document.length + 2) (.table 0) with
  | .table entries => return entries
  | _ => none

end Mcs51.Toml
