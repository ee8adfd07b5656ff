import Mcs51.Expression.Value

/-!
# The store

What an evaluation can change: lists, dictionaries, the variables of functions, and the global
names. A list or a dictionary that a loop goes through is locked as often as there are such loops,
and a locked one cannot change.
-/

namespace Mcs51.Expression

structure ListCell where
  items : Array Value
  locks : Nat := 0

structure DictCell where
  /-- The entries in the order in which their keys were first set. -/
  entries : Array (Value × Value) := #[]
  locks : Nat := 0
  /-- No key was ever set. -/
  untouched : Bool := true

/-- What a function is made of, numbered as in its tree. -/
structure Code where
  number : Nat
  name : Text
  params : List (Param Tree)
  /-- The names that the function binds. -/
  names : List Text
  body : List Statement

/-- The names that a function or a comprehension binds, and the frame that holds their values. -/
structure Block where
  number : Nat
  names : List Text
  frame : Nat

/-- A function with the values of its optional parameters and the blocks around it. -/
structure Closure where
  code : Code
  defaults : List (Text × Value)
  blocks : List Block

/-- The values of the names of a call, by the number of the block that binds them. -/
abbrev Frame := List ((Nat × Text) × Value)

structure Store where
  lists : Array ListCell := #[]
  dicts : Array DictCell := #[]
  closures : Array Closure := #[]
  frames : Array Frame := #[]
  globals : List (Text × Value) := []
  /-- How many functions of values were looked up. -/
  lookups : Nat := 0

/-- An evaluation: it changes the store, or fails. -/
abbrev Run := StateT Store (Except Fault)

namespace Store

def fail {α : Type} (fault : Fault) : Run α := fun _ => .error fault

/-! ## Lists -/

def newList (items : Array Value) : Run Value := do
  let s ← get
  set { s with lists := s.lists.push ⟨items, 0⟩ }
  return .list s.lists.size

/-- The list with the given number. -/
def list (s : Store) (number : Nat) : ListCell := s.lists.getD number ⟨#[], 0⟩

/-- The items of the list with the given number. -/
def items (s : Store) (number : Nat) : Array Value := (s.list number).items

def listItems (number : Nat) : Run (Array Value) := do return (← get).items number

/-- Refuses to change a list that is locked. -/
def checkList (number : Nat) : Run Unit := do
  if ((← get).list number).locks != 0 then fail .inUse

/-- Changes a list that is not locked. -/
def changeList (number : Nat) (change : Array Value → Array Value) : Run Unit := do
  checkList number
  modify fun s => { s with
    lists := s.lists.modify number fun cell => { cell with items := change cell.items } }

/-! ## Dictionaries -/

def newDict (cell : DictCell) : Run Value := do
  let s ← get
  set { s with dicts := s.dicts.push cell }
  return .dict s.dicts.size

/-- The dictionary with the given number. -/
def dict (s : Store) (number : Nat) : DictCell := s.dicts.getD number {}

/-- The entries of the dictionary with the given number. -/
def entries (s : Store) (number : Nat) : Array (Value × Value) := (s.dict number).entries

def dictEntries (number : Nat) : Run (Array (Value × Value)) := do
  return (← get).entries number

/-- Refuses to change a dictionary that is locked. -/
def checkDict (number : Nat) : Run Unit := do
  if ((← get).dict number).locks != 0 then fail .inUse

/-- Changes a dictionary that is not locked. -/
def changeDict (number : Nat) (change : DictCell → DictCell) : Run Unit := do
  checkDict number
  modify fun s => { s with dicts := s.dicts.modify number change }

/-! ## Locks -/

/-- Changes the number of locks of a value that has any. -/
def changeLocks (change : Nat → Nat) (x : Value) : Run Unit :=
  match x with
  | .list number => modify fun s => { s with
      lists := s.lists.modify number fun cell => { cell with locks := change cell.locks } }
  | .dict number => modify fun s => { s with
      dicts := s.dicts.modify number fun cell => { cell with locks := change cell.locks } }
  | _ => pure ()

/-- Does something while a value is locked. -/
def locked {α : Type} (x : Value) (action : Run α) : Run α := do
  changeLocks (· + 1) x
  let result ← action
  changeLocks (· - 1) x
  return result

/-! ## Functions and names -/

def newClosure (c : Closure) : Run Value := do
  let s ← get
  set { s with closures := s.closures.push c }
  return .function s.closures.size

def newMethod (receiver : Value) (m : Method) : Run Value := do
  let s ← get
  set { s with lookups := s.lookups + 1 }
  return .method receiver m s.lookups

def newFrame (values : Frame) : Run Nat := do
  let s ← get
  set { s with frames := s.frames.push values }
  return s.frames.size

/-- A list of pairs with another value for a key. -/
def replace {κ : Type} [BEq κ] (key : κ) (x : Value) : List (κ × Value) → List (κ × Value)
  | [] => [(key, x)]
  | (k, y) :: rest => if k == key then (k, x) :: rest else (k, y) :: replace key x rest

def setVariable (block : Block) (name : Text) (x : Value) : Run Unit :=
  modify fun s => { s with frames := s.frames.modify block.frame (replace (block.number, name) x) }

def valueIn? (block : Block) (name : Text) : Run (Option Value) := do
  return ((← get).frames.getD block.frame []).lookup (block.number, name)

def setGlobal (name : Text) (x : Value) : Run Unit :=
  modify fun s => { s with globals := replace name x s.globals }

def global? (name : Text) : Run (Option Value) := do return (← get).globals.lookup name

end Store
end Mcs51.Expression
