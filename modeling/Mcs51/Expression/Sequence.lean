import Mcs51.Expression.Order

/-!
# Sequences

What has items, how many, and which. A text is no sequence, but has parts at indices and the
sequences of its bytes and of its code points.
-/

namespace Mcs51.Expression

/-! ## Integers of a size -/

/-- The integer of 64 bits that has the last bits of `n`. -/
def wrap64 (n : Int) : Int := Int.bmod n (Nat.pow 2 64)

/-- An integer of 32 bits. -/
def isCount (n : Int) : Bool := -2147483648 ≤ n && n ≤ 2147483647

/-- An integer of 64 bits. -/
def isWord (n : Int) : Bool := Text.minInt64 ≤ n && n ≤ Text.maxInt64

namespace Range

/-- How many integers lie from `start` by `step` before `stop`. The sizes are those of 64 bits, so a
range over more than half of all integers has none. -/
def countOf (start stop step : Int) : Int :=
  if 0 < step then
    if start < stop then wrap64 (Int.tdiv (wrap64 (stop - 1 - start)) step + 1) else 0
  else
    if stop < start then wrap64 (Int.tdiv (wrap64 (start - 1 - stop)) (wrap64 (-step)) + 1) else 0

def of (start stop step : Int) : Range := ⟨start, stop, step, countOf start stop step⟩

/-- The integer at a place. -/
def item (r : Range) (i : Int) : Int := wrap64 (r.start + i * r.step)

/-- Every `step`-th integer from one place up to another. -/
def slice (r : Range) (low high step : Int) : Range :=
  of (wrap64 (r.start + wrap64 (r.step * low))) (wrap64 (r.start + wrap64 (r.step * high)))
    (wrap64 (r.step * step))

/-- An integer of 32 bits is one of a range. -/
def contains (r : Range) (n : Int) : Bool :=
  let delta := wrap64 (n - r.start)
  let place := Int.tdiv delta r.step
  isCount n && Int.tmod delta r.step == 0 && 0 ≤ place && place < r.count

end Range

/-! ## Items -/

/-- What a loop goes through. -/
inductive Items where
  | row (items : List Value)
  | steps (r : Range)

namespace Items

/-- Does something for each place of a range from `i` on, until it says to stop. -/
def runSteps {σ : Type} (r : Range) (f : Value → σ → Run (ForInStep σ)) :
    Nat → Int → σ → Run σ
  | 0, _, acc => pure acc
  | left + 1, i, acc => do
    match ← f (.integer (r.item i)) acc with
    | .done acc => return acc
    | .yield acc => runSteps r f left (i + 1) acc

/-- Does something for each item of a row, until it says to stop. -/
def runRow {σ : Type} (f : Value → σ → Run (ForInStep σ)) : List Value → σ → Run σ
  | [], acc => pure acc
  | x :: rest, acc => do
    match ← f x acc with
    | .done acc => return acc
    | .yield acc => runRow f rest acc

/-- Does something for each item, until it says to stop. -/
def run {σ : Type} (items : Items) (acc : σ) (f : Value → σ → Run (ForInStep σ)) : Run σ :=
  match items with
  | .row items => runRow f items acc
  | .steps r => runSteps r f r.count.toNat 0 acc

/-- How many items there are. -/
def count : Items → Nat
  | .row items => items.length
  | .steps r => r.count.toNat

/-- The first items, at most `n` of them. -/
def take (n : Nat) : Items → Array Value
  | .row items => (items.take n).toArray
  | .steps r => (Array.range (min n r.count.toNat)).map fun (i : Nat) => .integer (r.item i)

/-- All items. -/
def toArray : Items → Array Value
  | .row items => items.toArray
  | .steps r => (Items.steps r).take r.count.toNat

end Items

namespace Value

def texts (parts : Parts) (b : UInt8) : Value :=
  match parts with
  | .texts => .text [b]
  | .numbers => .integer b.toNat

/-- A code point of a text, or the mark in place of a byte that belongs to none. -/
def ofPiece (parts : Parts) (piece : Text.Piece) : Value :=
  match parts with
  | .texts => .text (Text.encodePoint piece.code)
  | .numbers => .integer piece.code

/-- The items that a loop over a value goes through, if it has any. -/
def items? (s : Store) (x : Value) : Option Items :=
  match x with
  | .list number => some (.row (s.items number).toList)
  | .tuple items => some (.row items)
  | .dict number => some (.row ((s.entries number).toList.map Prod.fst))
  | .range r => some (.steps r)
  | .elements t parts => some (.row (t.map (texts parts)))
  | .points t parts => some (.row ((Text.pieces t).map (ofPiece parts)))
  | .byteNumbers t => some (.row (t.map (texts .numbers)))
  | _ => none

/-- The items that a loop over a value goes through. -/
def iterate (x : Value) : Run Items := do
  match x.items? (← get) with
  | some items => return items
  | none => Store.fail .notIterable

/-- All items of a value. -/
def iterateAll (x : Value) : Run (Array Value) := do return (← x.iterate).toArray

/-- The number of items or bytes of a value that knows it. -/
def length? (s : Store) (x : Value) : Option Nat :=
  match x with
  | .text t | .bytes t | .elements t _ => some t.length
  | .list number => some (s.items number).size
  | .tuple items => some items.length
  | .dict number => some (s.entries number).size
  | .range r => if r.count < 0 then none else some r.count.toNat
  | _ => none

/-- Numbers other than zero and anything with contents count as true, and so do functions and the
sequences of texts. -/
def isTrueIn (s : Store) (x : Value) : Bool :=
  match x with
  | .nothing => false
  | .truth b => b
  | .integer n => n != 0
  | .real x => !x.isZero
  | .elements _ _ => true
  | .range r => 0 < r.count
  | x => x.length? s != some 0

def isTrue (x : Value) : Run Bool := do return x.isTrueIn (← get)

/-! ## Indices -/

/-- An integer of 32 bits. -/
def toCount (v : Value) : Run Int :=
  match v with
  | .integer n => if isCount n then pure n else Store.fail .tooLarge
  | _ => Store.fail .badOperands

/-- An integer of 64 bits. -/
def toWord (v : Value) : Run Int :=
  match v with
  | .integer n => if isWord n then pure n else Store.fail .tooLarge
  | _ => Store.fail .badArguments

/-- The item at an index; a negative index counts from the end. -/
def place (length : Int) (i : Value) : Run Nat := do
  let i ← toCount i
  let i := if i < 0 then i + length else i
  if i < 0 || length ≤ i then Store.fail .badIndex
  return i.toNat

/-- The item that a list of them has at a place. -/
def itemAt {α : Type} (items : List α) (i : Value) : Run α := do
  match items[← place items.length i]? with
  | some item => return item
  | none => Store.fail .badIndex

/-- The value that a dictionary has for a key. -/
def lookup (number : Nat) (key : Value) : Run (Option Value) := do
  match lookupKey? (← Store.dictEntries number) key with
  | .ok x? => return x?
  | .error fault => Store.fail fault

/-- The part of a value at an index, or its value for a key. -/
def index (x i : Value) : Run Value :=
  match x with
  | .dict number => do
    match ← lookup number i with
    | some value => return value
    | none => Store.fail .missingKey
  | .list number => do
    let items ← Store.listItems number
    match items[← place items.size i]? with
    | some item => return item
    | none => Store.fail .badIndex
  | .tuple items => itemAt items i
  | .text t => do return .text [← itemAt t i]
  | .bytes t => do return .bytes [← itemAt t i]
  | .elements t parts => do return texts parts (← itemAt t i)
  | .range r => do return .integer (r.item (← place r.count i))
  | _ => Store.fail .notIndexable

/-- An optional bound, counted from the end if negative. -/
def bound (length : Int) (default : Int) (v : Value) : Run Int :=
  match v with
  | .nothing => pure default
  | v => do
    let i ← toCount v
    return if i < 0 then i + length else i

/-- A place up to the end. -/
def clamp (length : Int) (i : Int) : Int := if i < 0 then 0 else if length < i then length else i

/-- The places from one bound up to another. -/
def bounds (length : Int) (low high : Value) : Run (Int × Int) := do
  let first ← bound length 0 low
  let last ← bound length length high
  return (clamp length first, clamp length last)

/-- The places of a slice: the first, the one to stop before, and the step. Going backwards, a slice
without bounds starts at the last place and ends after the first. -/
def slicePlaces (length : Int) (low high step : Value) : Run (Int × Int × Int) := do
  let step ← match step with
    | .nothing => pure 1
    | step => toCount step
  if step == 0 then Store.fail .badIndex
  if 0 < step then
    let (first, last) ← bounds length low high
    return (first, max first last, step)
  else
    let first ← bound length (length - 1) low
    let first := min first (length - 1)
    let last ← bound length (-1) high
    let last := max last (-1)
    return (max first last, last, step)

/-- The items at the places of a slice. -/
def sliced {α : Type} (items : List α) (low high step : Value) : Run (List α) := do
  let (first, last, step) ← slicePlaces items.length low high step
  if step == 1 then return (items.drop first.toNat).take (last - first).toNat
  let places := Range.of first last step
  let array := items.toArray
  return (List.range places.count.toNat).filterMap fun (i : Nat) => array[(places.item i).toNat]?

/-- Every `step`-th part of a value from one bound up to another. -/
def slice (x low high step : Value) : Run Value :=
  match x with
  | .text t => do return .text (← sliced t low high step)
  | .bytes t => do return .bytes (← sliced t low high step)
  | .tuple items => do return .tuple (← sliced items low high step)
  | .list number => do
    let items ← sliced (← Store.listItems number).toList low high step
    Store.newList items.toArray
  | .range r => do
    let (first, last, step) ← slicePlaces r.count low high step
    return .range (r.slice first last step)
  | _ => Store.fail .notIndexable

end Value
end Mcs51.Expression
