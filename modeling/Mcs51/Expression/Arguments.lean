import Mcs51.Expression.Arithmetic

/-!
# Arguments of given functions

What the functions that are given take from the arguments of a call: how many by place, which by
name, and of which types.
-/

namespace Mcs51.Expression
namespace Arguments

/-- The arguments are by place only, between `least` and `most` of them. -/
def expect (args : Arguments) (least most : Nat) : Run Unit :=
  if args.named.isEmpty && least ≤ args.places.length && args.places.length ≤ most then pure ()
  else Store.fail .badArguments

/-- The argument at a place, if there is one. -/
def get? (args : Arguments) (i : Nat) : Option Value := args.places[i]?

/-- The argument at a place, or else another value. -/
def getD (args : Arguments) (i : Nat) (default : Value) : Value := (args.get? i).getD default

/-- The argument at a place, or else nothing. -/
def getAny (args : Arguments) (i : Nat) : Value := args.getD i .nothing

/-- The arguments for the keys, by place or by name. No other names, and no key twice. -/
def byKeys (args : Arguments) (keys : List String) : Run (List (Option Value)) :=
  let keys := keys.map Text.ofString
  let free := keys.drop args.places.length
  let names := args.named.map Prod.fst
  if keys.length < args.places.length || !names.all (free.contains ·) || !isDistinct names then
    Store.fail .badArguments
  else
    pure (keys.zipIdx.map fun (key, i) => (args.get? i).or (args.named.lookup key))
where
  /-- No name occurs twice. -/
  isDistinct : List Text → Bool
    | [] => true
    | name :: rest => !rest.contains name && isDistinct rest

/-- The argument with the given name, in a call that has no other names. -/
def onlyKey (args : Arguments) (key : String) : Run (Option Value) := do
  return ((← byKeys ⟨[], args.named⟩ [key]).head?).join

end Arguments

namespace Value

def toText (x : Value) : Run Text :=
  match x with
  | .text t => pure t
  | _ => Store.fail .badArguments

def toTruth (x : Value) : Run Bool :=
  match x with
  | .truth b => pure b
  | _ => Store.fail .badArguments

/-- A byte, given by its number. -/
def toByte (x : Value) : Run UInt8 :=
  match x with
  | .integer n => if 0 ≤ n && n ≤ 255 then pure (UInt8.ofNat n.toNat) else Store.fail .tooLarge
  | _ => Store.fail .badArguments

/-- Something that can be called. -/
def isFunction : Value → Bool
  | .function _ | .builtin _ | .method _ _ _ => true
  | _ => false

/-- A value that must be there. -/
def required (x? : Option Value) : Run Value :=
  match x? with
  | some x => pure x
  | none => Store.fail .badArguments

end Value
end Mcs51.Expression
