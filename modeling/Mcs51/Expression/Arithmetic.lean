import Mcs51.Expression.Bitwise
import Mcs51.Expression.Sequence

/-!
# Arithmetic

The operators on values, apart from the one that fills templates. Arithmetic takes numbers only
(truth values are none): of integers it gives an integer, else a floating-point number. Texts,
tuples and lists are joined by addition; they and bytes are repeated by multiplication. Dictionaries
are united by disjunction.
-/

namespace Mcs51.Expression
namespace Value

/-- An integer as a finite floating-point number. -/
def finiteReal (n : Int) : Run Binary64 :=
  let x := Binary64.ofInt n
  if x.isFinite then pure x else Store.fail .tooLarge

/-- The integer part of a number. -/
def wholePart? : Value → Option Int
  | .integer n => some n
  | .real x => x.truncate?
  | _ => none

/-- An operation on two numbers, on integers if both are. -/
def numeric (onInt : Int → Int → Run Value) (onReal : Binary64 → Binary64 → Run Value)
    (x y : Value) : Run Value :=
  match x, y with
  | .integer m, .integer n => onInt m n
  | .integer m, .real y => do onReal (← finiteReal m) y
  | .real x, .integer n => do onReal x (← finiteReal n)
  | .real x, .real y => onReal x y
  | _, _ => Store.fail .badOperands

/-! ## Membership -/

/-- One of the items equals `x`. -/
def isAmong (x : Value) : List Value → Run Bool
  | [] => pure false
  | item :: items => do
    if ← compareAs .equal item x then return true
    isAmong x items

/-- The text `part` occurs in a text. -/
def occursIn (part : Text) : Text → Bool
  | [] => part.isEmpty
  | b :: t => Text.beginsWith part (b :: t) || occursIn part t

/-- `x` is one of the items of `y`, or a key, or a part of the text `y`. -/
def isMember (x y : Value) : Run Bool :=
  match y with
  | .list number => do isAmong x (← Store.listItems number).toList
  | .tuple items => isAmong x items
  | .dict number => do
    match lookupKey? (← Store.dictEntries number) x with
    | .ok x? => return x?.isSome
    | .error _ => return false
  | .text t => match x with
    | .text part => pure (occursIn part t)
    | _ => Store.fail .badOperands
  | .bytes t => match x with
    | .bytes part => pure (occursIn part t)
    | .integer n =>
      if 0 ≤ n && n ≤ 255 then pure (t.contains (UInt8.ofNat n.toNat)) else Store.fail .tooLarge
    | _ => Store.fail .badOperands
  | .range r => match x.wholePart? with
    | some n => pure (r.contains n)
    | none => Store.fail .badOperands
  | _ => Store.fail .badOperands

/-! ## Sums and products -/

/-- Repetitions make fewer items than this. -/
def repeatLimit : Nat := 1073741824

/-- The items, repeated; a count below one leaves none. -/
def repeated {α : Type} (items : List α) (count : Int) : Run (List α) :=
  if items.isEmpty then pure []
  else do
    let count ← toCount (.integer count)
    if count < 1 then return []
    if repeatLimit ≤ items.length * count.toNat then Store.fail .tooLarge
    return (List.replicate count.toNat items).flatten

def add (x y : Value) : Run Value :=
  match x, y with
  | .text s, .text t => pure (.text (s ++ t))
  | .tuple xs, .tuple ys => pure (.tuple (xs ++ ys))
  | .list m, .list n => do
    let items ← Store.listItems m
    Store.newList (items ++ (← Store.listItems n))
  | x, y =>
    numeric (fun m n => pure (.integer (m + n))) (fun x y => pure (.real (x.add y))) x y

def subtract : Value → Value → Run Value :=
  numeric (fun m n => pure (.integer (m - n))) (fun x y => pure (.real (x.sub y)))

/-- The items of a list, repeated as another list. -/
def repeatList (number : Nat) (count : Int) : Run Value := do
  let items ← repeated (← Store.listItems number).toList count
  Store.newList items.toArray

def multiply (x y : Value) : Run Value :=
  match x, y with
  | .text t, .integer n | .integer n, .text t => do return .text (← repeated t n)
  | .bytes t, .integer n | .integer n, .bytes t => do return .bytes (← repeated t n)
  | .tuple xs, .integer n | .integer n, .tuple xs => do return .tuple (← repeated xs n)
  | .list number, .integer n | .integer n, .list number => repeatList number n
  | x, y =>
    numeric (fun m n => pure (.integer (m * n))) (fun x y => pure (.real (x.mul y))) x y

/-- Refuses a divisor of zero. -/
def divideReal (f : Binary64 → Binary64 → Binary64) (x y : Binary64) : Run Value :=
  if y.isZero then Store.fail .zeroDivisor else pure (.real (f x y))

def divideInt (f : Int → Int → Int) (m n : Int) : Run Value :=
  if n == 0 then Store.fail .zeroDivisor else pure (.integer (f m n))

/-- The quotient, which is never an integer. -/
def divide : Value → Value → Run Value :=
  numeric (fun m n => do divideReal Binary64.div (← finiteReal m) (← finiteReal n))
    (divideReal Binary64.div)

/-- The quotient rounded down. -/
def floorDivide : Value → Value → Run Value :=
  numeric (divideInt Int.fdiv) (divideReal fun x y => (x.div y).floor)

/-- The remainder of the quotient rounded down: it has the sign of the divisor. -/
def modulo : Value → Value → Run Value :=
  numeric (divideInt Int.fmod) (divideReal Binary64.floorMod)

/-! ## Bits and dictionaries -/

/-- An operation on two integers. -/
def bitwise (f : Int → Int → Int) (x y : Value) : Run Value :=
  match x, y with
  | .integer m, .integer n => pure (.integer (f m n))
  | _, _ => Store.fail .badOperands

/-- Shifts to the left are by less than this. -/
def shiftLimit : Int := 512

/-- A shift by a count that is not negative, and to the left is below a limit. -/
def shift (left : Bool) (x y : Value) : Run Value :=
  match x with
  | .integer n => do
    let count ← toCount y
    if count < 0 || (left && shiftLimit ≤ count) then Store.fail .badShift
    if left then return .integer (n * Nat.pow 2 count.toNat)
    return .integer (n >>> count.toNat)
  | _ => Store.fail .badOperands

/-- Sets the value for a key of a dictionary: the key keeps its place, or is the last. -/
def setEntry (number : Nat) (key x : Value) : Run Unit := do
  match findKey? (← Store.dictEntries number) key with
  | .ok (some i) => Store.changeDict number fun cell =>
      { cell with entries := cell.entries.modify i fun entry => (entry.1, x) }
  | .ok none => Store.changeDict number fun cell =>
      { cell with entries := cell.entries.push (key, x), untouched := false }
  | .error fault => Store.fail fault

/-- Sets the values for some keys of a dictionary. -/
def setEntries (number : Nat) (entries : Array (Value × Value)) : Run Unit :=
  entries.forM fun (key, x) => setEntry number key x

/-- The entries of two dictionaries; for a key of both the value is that of the second. -/
def unite (m n : Nat) : Run Value := do
  let united ← Store.newDict { entries := ← Store.dictEntries m, untouched := false }
  if let .dict number := united then setEntries number (← Store.dictEntries n)
  return united

def bitOr (x y : Value) : Run Value :=
  match x, y with
  | .dict m, .dict n => unite m n
  | x, y => bitwise Bitwise.or x y

/-! ## In place -/

/-- Adds items to the end of a list. -/
def extendList (number : Nat) (items : Array Value) : Run Unit :=
  Store.changeList number (· ++ items)

/-- A sum that is kept where its first term was: a list takes the items of any sequence. -/
def addInPlace (x y : Value) : Run Value := do
  match x, y.items? (← get) with
  | .list number, some items =>
    extendList number items.toArray
    return x
  | _, _ => add x y

/-- A disjunction that is kept where its first operand was. -/
def bitOrInPlace (x y : Value) : Run Value :=
  match x, y with
  | .dict m, .dict n => do
    Store.checkDict m
    setEntries m (← Store.dictEntries n)
    return x
  | x, y => bitOr x y

/-- The value of an operator with one operand. -/
def unary (op : UnaryOp) (x : Value) : Run Value :=
  match op, x with
  | .negate, x => do return .truth !(← x.isTrue)
  | .plus, .integer n => pure (.integer n)
  | .plus, .real x => pure (.real x)
  | .minus, .integer n => pure (.integer (-n))
  | .minus, .real x => pure (.real x.neg)
  | .invert, .integer n => pure (.integer (-n - 1))
  | _, _ => Store.fail .badOperands

end Value
end Mcs51.Expression
