import Mcs51.Expression.Arguments

/-!
# Functions of lists and dictionaries

What can be called on a list or on a dictionary.
-/

namespace Mcs51.Expression

namespace ListMethods

open Value (toWord bounds compareAs)

/-- The place of the first item that equals a value, from place `i` on. -/
def placeFrom (x : Value) : Nat → List Value → Run Nat
  | _, [] => Store.fail .notFound
  | i, item :: rest => do
    if ← compareAs .equal item x then return i
    placeFrom x (i + 1) rest

def index (number : Nat) (args : Arguments) : Run Value := do
  args.expect 1 3
  let items := (← Store.listItems number).toList
  let (first, last) ← bounds items.length (args.getAny 1) (args.getAny 2)
  let within := (items.drop first.toNat).take (last - first).toNat
  return .integer (← placeFrom (args.getAny 0) first.toNat within)

/-- Adds an item before the one at an index, or at the end. -/
def insert (number : Nat) (args : Arguments) : Run Value := do
  args.expect 2 2
  let i ← toWord (args.getAny 0)
  let size := (← Store.listItems number).size
  let place := Value.clamp size (if i < 0 then i + size else i)
  Store.changeList number fun items => items.insertIdxIfInBounds place.toNat (args.getAny 1)
  return .nothing

/-- Takes out the item at an index, or the last one. -/
def pop (number : Nat) (args : Arguments) : Run Value := do
  args.expect 0 1
  let items ← Store.listItems number
  let i ← toWord (args.getD 0 (.integer (-1)))
  let place := if i < 0 then i + items.size else i
  if place < 0 then Store.fail .badIndex
  match items[place.toNat]? with
  | some item =>
    Store.changeList number (·.eraseIdxIfInBounds place.toNat)
    return item
  | none => Store.fail .badIndex

/-- Takes out the first item that equals a value. -/
def remove (number : Nat) (args : Arguments) : Run Value := do
  args.expect 1 1
  let place ← placeFrom (args.getAny 0) 0 (← Store.listItems number).toList
  Store.changeList number (·.eraseIdxIfInBounds place)
  return .nothing

/-- Calls a function of a list. -/
def apply (m : ListMethod) (number : Nat) (args : Arguments) : Run Value :=
  match m with
  | .append => do
    args.expect 1 1
    Store.changeList number (·.push (args.getAny 0))
    return .nothing
  | .clear => do
    args.expect 0 0
    Store.changeList number fun _ => #[]
    return .nothing
  | .extend => do
    args.expect 1 1
    Value.extendList number (← (args.getAny 0).iterateAll)
    return .nothing
  | .index => index number args
  | .insert => insert number args
  | .pop => pop number args
  | .remove => remove number args

end ListMethods

namespace DictMethods

open Value (lookup setEntry setEntries)

/-- Sets an entry that is given as a sequence of a key and a value. -/
def setPair (number : Nat) (pair : Value) : Run Unit := do
  let items ← pair.iterate
  if pair.length? (← get) != some 2 then Store.fail .badCount
  match items.toArray.toList with
  | [key, x] => Store.locked pair (setEntry number key x)
  | _ => Store.fail .badCount

/-- Sets the entries that the arguments of a call give: those of another dictionary, or of a
sequence of pairs, and then those by name. -/
def update (number : Nat) (args : Arguments) : Run Unit := do
  match args.places with
  | [] => pure ()
  | [.dict other] => setEntries number (← Store.dictEntries other)
  | [x] =>
    let items ← x.iterate
    Store.locked x (items.run () fun pair _ => do
      setPair number pair
      return .yield ())
  | _ => Store.fail .badArguments
  let names := args.named.map Prod.fst
  if names.eraseDups.length != names.length then Store.fail .repeatedKey
  args.named.forM fun (name, x) => setEntry number (.text name) x

/-- Takes out the entry at a place. -/
def erase (number place : Nat) : Run Unit :=
  Store.changeDict number fun cell =>
    { cell with entries := cell.entries.eraseIdxIfInBounds place }

/-- Takes out the entry of a key. Where no key was ever set, the key is not looked at. -/
def pop (number : Nat) (args : Arguments) : Run Value := do
  args.expect 1 2
  Store.checkDict number
  let cell := (← get).dict number
  let place? ← if cell.untouched then pure none
    else match Value.findKey? cell.entries (args.getAny 0) with
      | .ok place? => pure place?
      | .error fault => Store.fail fault
  match place? >>= fun place => cell.entries[place]?.map fun entry => (place, entry.2) with
  | some (place, x) =>
    erase number place
    return x
  | none => match args.get? 1 with
    | some x => return x
    | none => Store.fail .missingKey

/-- Takes out the first entry. -/
def popFirst (number : Nat) (args : Arguments) : Run Value := do
  args.expect 0 0
  match (← Store.dictEntries number)[0]? with
  | some (key, x) =>
    erase number 0
    return .tuple [key, x]
  | none => Store.fail .emptySequence

/-- The value for a key, which is set if it is not there. -/
def setDefault (number : Nat) (args : Arguments) : Run Value := do
  args.expect 1 2
  let key := args.getAny 0
  match ← lookup number key with
  | some x => return x
  | none =>
    setEntry number key (args.getAny 1)
    return args.getAny 1

/-- A list of what a function gives for each entry. -/
def listOf (number : Nat) (args : Arguments) (f : Value × Value → Value) : Run Value := do
  args.expect 0 0
  Store.newList ((← Store.dictEntries number).map f)

/-- Calls a function of a dictionary. -/
def apply (m : DictMethod) (number : Nat) (args : Arguments) : Run Value :=
  match m with
  | .clear => do
    args.expect 0 0
    Store.changeDict number fun cell => { cell with entries := #[] }
    return .nothing
  | .get => do
    args.expect 1 2
    return (← lookup number (args.getAny 0)).getD (args.getAny 1)
  | .items => listOf number args fun entry => .tuple [entry.1, entry.2]
  | .keys => listOf number args Prod.fst
  | .pop => pop number args
  | .popitem => popFirst number args
  | .setdefault => setDefault number args
  | .update => do
    update number args
    return .nothing
  | .values => listOf number args Prod.snd

end DictMethods
end Mcs51.Expression
