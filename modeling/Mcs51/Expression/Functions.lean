import Mcs51.Expression.NumberText
import Mcs51.Expression.StoreMethods
import Mcs51.Expression.TextMethods

/-!
# Functions that are given

What the functions with names of their own do. Some of them call functions that are among their
arguments; how a function is called is given to them as `call`.
-/

namespace Mcs51.Expression

/-- How a function is called. -/
abbrev Caller := Value → Arguments → Run Value

/-! ## Sorting -/

namespace Sorting

/-- Puts two rows together that are in order. The first row goes first where neither of two items
must; what is done already stands backwards. -/
def merge {α : Type} (isBefore : α → α → Run Bool) : List α → List α → List α → Run (List α)
  | done, [], ys => pure (done.reverse ++ ys)
  | done, xs, [] => pure (done.reverse ++ xs)
  | done, x :: xs, y :: ys => do
    if ← isBefore y x then merge isBefore (y :: done) (x :: xs) ys
    else merge isBefore (x :: done) xs (y :: ys)
termination_by _ xs ys => xs.length + ys.length

/-- Puts each two neighbouring rows together. -/
def mergePairs {α : Type} (isBefore : α → α → Run Bool) : List (List α) → Run (List (List α))
  | x :: y :: rest => do
    let merged ← merge isBefore [] x y
    return merged :: (← mergePairs isBefore rest)
  | rows => pure rows

/-- Puts rows together until one is left. -/
def mergeAll {α : Type} (isBefore : α → α → Run Bool) : Nat → List (List α) → Run (List α)
  | _, [] => pure []
  | _, [row] => pure row
  | 0, rows => pure rows.flatten
  | fuel + 1, rows => do mergeAll isBefore fuel (← mergePairs isBefore rows)

/-- Sorts items; those of which neither must be before the other keep their order. -/
def sort {α : Type} (isBefore : α → α → Run Bool) (items : List α) : Run (List α) :=
  mergeAll isBefore items.length (items.map ([·]))

end Sorting

namespace Functions

open Value (toText toTruth toWord toCount toByte required compareAs)

/-! ## Numbers -/

def magnitude (x : Value) : Run Value :=
  match x with
  | .integer n => pure (.integer n.natAbs)
  | .real x => pure (.real x.abs)
  | _ => Store.fail .badArguments

/-- An integer that is read from a text in a base, or else the integer part of a number. -/
def toInteger (x : Value) (base? : Option Value) : Run Value := do
  match x, base? with
  | .text t, base? =>
    let base ← match base? with
      | some base => toCount base
      | none => pure 10
    if base != 0 && (base < 2 || 36 < base) then Store.fail .badArguments
    match NumberText.integer? base.toNat t with
    | some n => return .integer n
    | none => Store.fail .badNumeral
  | _, some _ => Store.fail .badArguments
  | .truth b, none => return .integer b.toNat
  | x, none => match x.wholePart? with
    | some n => return .integer n
    | none => Store.fail .badArguments

def toReal (x : Value) : Run Value :=
  match x with
  | .truth b => pure (.real (Binary64.ofInt b.toNat))
  | .integer n => do return .real (← Value.finiteReal n)
  | .real x => pure (.real x)
  | .text t => match NumberText.real? t with
    | some x => pure (.real x)
    | none => Store.fail .badNumeral
  | _ => Store.fail .badArguments

/-- A code point by its number. -/
def toPoint (x : Value) : Run Value := do
  match Value.numberedPoint? (← toCount x) with
  | some t => return .text t
  | none => Store.fail .badArguments

/-- The number of a single code point or byte. -/
def ordinal (x : Value) : Run Value :=
  match x with
  | .text t => match Text.pieces t with
    | [piece] => pure (.integer piece.code)
    | _ => Store.fail .badArguments
  | .bytes [b] => pure (.integer b.toNat)
  | _ => Store.fail .badArguments

/-- A number of 32 bits for a text, from its code points. -/
def textHash (t : Text) : Int :=
  (Text.codes t).foldl (fun (h : Int) (code : Nat) => Int.bmod (31 * h + code) 4294967296) 0

/-- A number of 32 bits for bytes, from each of them. -/
def bytesHash (t : Text) : Nat :=
  t.foldl (fun h b => (h ^^^ b.toNat) * 16777619 % 4294967296) 2166136261

def hash (x : Value) : Run Value :=
  match x with
  | .text t => pure (.integer (textHash t))
  | .bytes t => pure (.integer (bytesHash t))
  | _ => Store.fail .badArguments

/-! ## Sequences -/

/-- The integers from the first argument up to the second, or from zero up to the only one. -/
def range (args : Arguments) : Run Value := do
  args.expect 1 3
  let first ← toWord (args.getAny 0)
  let last ← toWord (args.getD 1 (.integer 0))
  let step ← toWord (args.getD 2 (.integer 1))
  if step == 0 then Store.fail .badArguments
  if args.places.length == 1 then return .range (Range.of 0 first step)
  return .range (Range.of first last step)

/-- The items of the only argument, if there is one. -/
def optionalItems (args : Arguments) : Run (Array Value) := do
  args.expect 0 1
  match args.get? 0 with
  | some x => x.iterateAll
  | none => return #[]

def bytes (x : Value) : Run Value :=
  match x with
  | .bytes t => pure (.bytes t)
  | .text t => pure (.bytes (Text.scrub t))
  | x => do
    let bytes ← (← x.iterate).run #[] fun x bytes => do return .yield (bytes.push (← toByte x))
    return .bytes bytes.toList

def length (x : Value) : Run Value := do
  match x.length? (← get) with
  | some n => return .integer n
  | none => Store.fail .badArguments

/-- The items with their numbers. -/
def enumerate (args : Arguments) : Run Value := do
  args.expect 1 2
  let items ← (args.getAny 0).iterateAll
  let start ← toWord (args.getD 1 (.integer 0))
  Store.newList (items.mapIdx fun i x => .tuple [.integer (wrap64 (start + i)), x])

/-- The first items of each sequence, then the second ones, as far as the shortest goes. -/
def zip (args : Arguments) : Run Value := do
  if !args.named.isEmpty then Store.fail .badArguments
  let sources ← args.places.mapM Value.iterate
  let count := match sources.map Items.count with
    | [] => 0
    | size :: sizes => sizes.foldl min size
  let rows := sources.map (Items.take count)
  Store.newList ((Array.range count).map fun i => .tuple (rows.filterMap (·[i]?)))

/-- Some or each item counts as true, as `wanted` says. -/
def quantified (wanted : Bool) (args : Arguments) : Run Value := do
  args.expect 1 1
  let found ← (← (args.getAny 0).iterate).run false fun x _ => do
    return if (← x.isTrue) == wanted then .done true else .yield false
  return .truth (found == wanted)

/-- What a key function gives for an item, or else the item. -/
def keyOf (call : Caller) (key? : Option Value) (x : Value) : Run Value :=
  match key? with
  | some key => call key ⟨[x], []⟩
  | none => pure x

/-- A key function, which must be a function if it is there. -/
def checkKey (key? : Option Value) : Run Unit :=
  if key?.all Value.isFunction then pure () else Store.fail .badArguments

/-- The item whose key stands in the relation to those of all others; of equals, the first. -/
def extremum (call : Caller) (r : Relation) (args : Arguments) : Run Value := do
  let key? ← args.onlyKey "key"
  checkKey key?
  let source ← match args.places with
    | [] => Store.fail .badArguments
    | [x] => pure x
    | items => pure (.tuple items)
  let items ← source.iterate
  let best? ← Store.locked source (items.run none fun x best? => do
    let key ← keyOf call key? x
    match best? with
    | none => return .yield (some (x, key))
    | some (_, bestKey) =>
      if ← compareAs r key bestKey then return .yield (some (x, key))
      return .yield best?)
  match best? with
  | some (best, _) => return best
  | none => Store.fail .emptySequence

def sorted (call : Caller) (args : Arguments) : Run Value := do
  match ← args.byKeys ["iterable", "key", "reverse"] with
  | [source?, key?, backwards?] =>
    let source ← required source?
    checkKey key?
    let backwards ← toTruth (backwards?.getD (.truth false))
    let items ← source.iterateAll
    let keyed ← Store.locked source (items.toList.mapM fun x => do
      return (← keyOf call key? x, x))
    let isBefore (a b : Value × Value) : Run Bool :=
      if backwards then compareAs .less b.1 a.1 else compareAs .less a.1 b.1
    let sorted ← Sorting.sort isBefore keyed
    Store.newList (sorted.map Prod.snd).toArray
  | _ => Store.fail .badArguments

/-! ## Attributes and texts -/

/-- What a value has after a point under a name. -/
def attributeOf (x : Value) (name : Text) : Run Value :=
  match x.method? name with
  | some m => Store.newMethod x m
  | none => Store.fail (.noAttribute name)

def getAttribute (args : Arguments) : Run Value := do
  args.expect 2 3
  let x := args.getAny 0
  let name ← toText (args.getAny 1)
  match x.method? name, args.get? 2 with
  | none, some otherwise => return otherwise
  | _, _ => attributeOf x name

def hasAttribute (args : Arguments) : Run Value := do
  args.expect 2 2
  let name ← toText (args.getAny 1)
  return .truth ((args.getAny 0).method? name).isSome

/-- A value as it is shown. -/
def shown (x : Value) : Run Value := do
  match x with
  | .bytes t => return .text (Text.scrub t)
  | x => return .text (x.showIn (← get))

/-- A dictionary of the entries that the arguments give. -/
def dict (args : Arguments) : Run Value := do
  if 1 < args.places.length then Store.fail .badArguments
  let made ← Store.newDict {}
  if let .dict number := made then DictMethods.update number args
  return made

/-- A function of one argument. -/
def ofOne (args : Arguments) (f : Value → Run Value) : Run Value := do
  args.expect 1 1
  f (args.getAny 0)

/-- A function that checks only that a separator is a text. -/
def separated (args : Arguments) : Run Unit := do
  match ← args.onlyKey "sep" with
  | some sep => discard (toText sep)
  | none => pure ()

/-- Calls a function that has a name of its own. -/
def apply (call : Caller) (f : Builtin) (args : Arguments) : Run Value :=
  match f with
  | .abs => ofOne args magnitude
  | .all => quantified false args
  | .any => quantified true args
  | .bool => do
    args.expect 0 1
    return .truth (← (args.getD 0 (.truth false)).isTrue)
  | .bytes => ofOne args bytes
  | .chr => ofOne args toPoint
  | .dict => dict args
  | .dir => ofOne args fun x => Store.newList (x.attributeNames.map Value.text).toArray
  | .enumerate => enumerate args
  | .fail => Store.fail .givenUp
  | .float => do
    args.expect 0 1
    toReal (args.getD 0 (.integer 0))
  | .getattr => getAttribute args
  | .hasattr => hasAttribute args
  | .hash => ofOne args hash
  | .int => do
    match ← args.byKeys ["x", "base"] with
    | [some x, base?] => toInteger x base?
    | _ => Store.fail .badArguments
  | .len => ofOne args length
  | .list => do Store.newList (← optionalItems args)
  | .max => extremum call .greater args
  | .min => extremum call .less args
  | .ord => ofOne args ordinal
  | .print => do
    separated args
    return .nothing
  | .range => range args
  | .repr => ofOne args fun x => do return .text (x.reprIn (← get))
  | .reversed => ofOne args fun x => do Store.newList (← x.iterateAll).reverse
  | .sorted => sorted call args
  | .str => ofOne args shown
  | .tuple => do return .tuple (← optionalItems args).toList
  | .type => ofOne args fun x => pure (.text x.typeName)
  | .zip => zip args

/-- Calls a function that belongs to the type of a value. -/
def applyMethod (receiver : Value) (m : Method) (args : Arguments) : Run Value :=
  match m, receiver with
  | .ofList m, .list number => ListMethods.apply m number args
  | .ofDict m, .dict number => DictMethods.apply m number args
  | .ofText m, .text t => TextMethods.apply m t args
  | .bytesElems, .bytes t => do
    args.expect 0 0
    return .byteNumbers t
  | _, _ => Store.fail .notFunction

end Functions
end Mcs51.Expression
