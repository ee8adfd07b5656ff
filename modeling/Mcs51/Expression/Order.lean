import Mcs51.Expression.Store

/-!
# Order of values

Values of one type compare with each other, and so do numbers of both types; any other two values
only differ. Sequences compare by the first items that differ, and else by their lengths. What
cannot change may be the key of a dictionary, where numbers of both types stand for each other.
-/

namespace Mcs51.Expression

/-- What an order says of a relation. -/
def Relation.holds (r : Relation) (o : Ordering) : Bool :=
  match r with
  | .less => o.isLT
  | .greater => o.isGT
  | .lessEqual => o.isLE
  | .greaterEqual => o.isGE
  | .equal => o.isEq
  | .notEqual => !o.isEq

/-- The answer for values that are the same or not, and have no order. -/
def Relation.ofSame (r : Relation) (same : Bool) : Except Fault Bool :=
  match r with
  | .equal => .ok same
  | .notEqual => .ok !same
  | _ => .error .notComparable

/-- Two ranges give the same integers. -/
def Range.isSame (x y : Range) : Bool :=
  x.count == y.count
    && (x.count == 0 || (x.start == y.start && (x.count == 1 || x.step == y.step)))

namespace Value

/-! ## Keys -/

mutual

/-- A value that may be a key: one that cannot change. -/
def isKey : Value → Bool
  | .nothing | .truth _ | .integer _ | .real _ | .text _ | .bytes _ => true
  | .function _ | .builtin _ | .method _ _ _ => true
  | .tuple items => areKeys items
  | _ => false

def areKeys : List Value → Bool
  | [] => true
  | x :: rest => isKey x && areKeys rest

end

mutual

/-- Two keys stand for each other. -/
def isSameKey : Value → Value → Bool
  | .nothing, .nothing => true
  | .truth a, .truth b => a == b
  | .integer m, .integer n => m == n
  | .integer m, .real y => (Binary64.orderInt m y).isEq
  | .real x, .integer n => (Binary64.orderInt n x).isEq
  | .real x, .real y => (x.order y).isEq
  | .text s, .text t | .bytes s, .bytes t => s == t
  | .function m, .function n => m == n
  | .builtin f, .builtin g => f == g
  | .method _ _ m, .method _ _ n => m == n
  | .tuple xs, .tuple ys => areSameKeys xs ys
  | _, _ => false

def areSameKeys : List Value → List Value → Bool
  | [], [] => true
  | x :: xs, y :: ys => isSameKey x y && areSameKeys xs ys
  | _, _ => false

end

mutual

/-- How deeply a key is nested. -/
def keyDepth : Value → Nat
  | .tuple items => keyDepths items + 1
  | _ => 1

/-- How deeply the deepest of some keys is nested. -/
def keyDepths : List Value → Nat
  | [] => 0
  | x :: rest => max (keyDepth x) (keyDepths rest)

end

/-- How deeply nested values are compared. -/
def compareDepth : Nat := 10

/-- The place of a key among entries. -/
def findKey? (entries : Array (Value × Value)) (key : Value) : Except Fault (Option Nat) :=
  if !key.isKey then .error .notKey
  else match entries.findIdx? fun entry => isSameKey key entry.1 with
    | some i => if compareDepth < key.keyDepth then .error .tooDeep else .ok (some i)
    | none => .ok none

/-- The value that entries have for a key. -/
def lookupKey? (entries : Array (Value × Value)) (key : Value) : Except Fault (Option Value) := do
  match ← findKey? entries key with
  | some i => return entries[i]?.map Prod.snd
  | none => return none

/-! ## Comparison -/

/-- Compares two sequences by the first items that differ under `same`, or else by length. -/
def compareItems (r : Relation) (same : Value → Value → Except Fault Bool)
    (compareAs : Value → Value → Except Fault Bool) (lengths : Ordering) :
    List Value → List Value → Except Fault Bool
  | x :: xs, y :: ys => do
    if ← same x y then compareItems r same compareAs lengths xs ys
    else match r with
      | .equal => return false
      | .notEqual => return true
      | _ => compareAs x y
  | _, _ => .ok (r.holds lengths)

/-- Sequences of different lengths differ, whatever their items. -/
def compareSequences (r : Relation) (same : Value → Value → Except Fault Bool)
    (compareAs : Value → Value → Except Fault Bool) (xs ys : List Value) : Except Fault Bool :=
  let lengths := compare xs.length ys.length
  if (r == .equal || r == .notEqual) && !lengths.isEq then .ok (r.holds lengths)
  else compareItems r same compareAs lengths xs ys

/-- The entries are all among others, with the same values. -/
def areEntries (same : Value → Value → Except Fault Bool) (among : Array (Value × Value)) :
    List (Value × Value) → Except Fault Bool
  | [] => .ok true
  | (key, x) :: rest => match lookupKey? among key with
    | .ok (some y) => do
      if ← same x y then areEntries same among rest else return false
    | _ => .ok false

/-- Dictionaries are the same if their entries are, in any order. -/
def compareDicts (r : Relation) (same : Value → Value → Except Fault Bool)
    (xs ys : Array (Value × Value)) : Except Fault Bool :=
  match r with
  | .equal | .notEqual => do
    let isSame ← if xs.size != ys.size then .ok false else areEntries same ys xs.toList
    r.ofSame isSame
  | _ => .error .notComparable

/-- Compares two values nested at most `depth` deep. -/
def compareWithin (s : Store) : Nat → Relation → Value → Value → Except Fault Bool
  | 0, _, _, _ => .error .tooDeep
  | depth + 1, r, x, y =>
    let same := compareWithin s depth .equal
    let inner := compareWithin s depth r
    match x, y with
    | .nothing, .nothing => r.ofSame true
    | .truth a, .truth b => .ok (r.holds (compare a.toNat b.toNat))
    | .integer m, .integer n => .ok (r.holds (compare m n))
    | .integer m, .real y => .ok (r.holds (Binary64.orderInt m y))
    | .real x, .integer n => .ok (r.holds (Binary64.orderInt n x).swap)
    | .real x, .real y => .ok (r.holds (x.order y))
    | .text a, .text b | .bytes a, .bytes b => .ok (r.holds (Text.order a b))
    | .tuple xs, .tuple ys => compareSequences r same inner xs ys
    | .list m, .list n => compareSequences r same inner (s.items m).toList (s.items n).toList
    | .dict m, .dict n => compareDicts r same (s.entries m) (s.entries n)
    | .range a, .range b => r.ofSame (a.isSame b)
    | .elements a p, .elements b q | .points a p, .points b q => r.ofSame (a == b && p == q)
    | .byteNumbers a, .byteNumbers b => r.ofSame (a == b)
    | .function m, .function n => r.ofSame (m == n)
    | .builtin f, .builtin g => r.ofSame (f == g)
    | .method _ _ m, .method _ _ n => r.ofSame (m == n)
    | _, _ => r.ofSame false

/-- Compares two values. -/
def compareAs (r : Relation) (x y : Value) : Run Bool := do
  match compareWithin (← get) compareDepth r x y with
  | .ok answer => return answer
  | .error fault => Store.fail fault

end Value
end Mcs51.Expression
