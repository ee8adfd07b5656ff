import Mcs51.Expression.Arithmetic
import Mcs51.Expression.Names

/-!
# Scopes

Where names get their values: from the innermost function or comprehension that binds them, else
from the global names, else from outside. A call binds the parameters of its function.
-/

namespace Mcs51.Expression

/-- The integers that names stand for. -/
abbrev Bindings := Text → Option Int

/-- What the names of an expression stand for. -/
structure Scope where
  bound : Bindings
  /-- The names that the program binds outside functions. -/
  globals : List Text
  /-- The numbers of the functions that are being called. -/
  active : List Nat := []
  /-- The functions and comprehensions around, from the innermost on. -/
  blocks : List Block := []
  /-- The frame of the call. -/
  frame : Nat := 0
  /-- How deeply the program is nested at most. -/
  depth : Nat

namespace Scope

/-- The innermost block that binds a name. -/
def block? (scope : Scope) (name : Text) : Option Block :=
  scope.blocks.find? fun block => block.names.contains name

/-- A name has a value outside the program. -/
def isGiven (bound : Bindings) (name : Text) : Bool :=
  (bound name).isSome || (Value.ofName? name).isSome

/-- The value of a name from outside the program. -/
def given? (bound : Bindings) (name : Text) : Option Value :=
  ((bound name).map Value.integer).or (Value.ofName? name)

/-- The value of a name, if it has one yet. -/
def find? (scope : Scope) (name : Text) : Run (Option Value) :=
  match scope.block? name with
  | some block => Store.valueIn? block name
  | none =>
    if scope.globals.contains name then Store.global? name else pure (given? scope.bound name)

/-- The value of a name. -/
def lookup (scope : Scope) (name : Text) : Run Value := do
  match ← scope.find? name with
  | some x => return x
  | none => Store.fail (.unassigned name)

/-- Gives a name a value. -/
def assign (scope : Scope) (name : Text) (x : Value) : Run Unit :=
  match scope.block? name with
  | some block => Store.setVariable block name x
  | none => Store.setGlobal name x

/-- The scope inside a comprehension, whose names live in the frame of the call. -/
def enter (scope : Scope) (number : Nat) (names : List Text) : Scope :=
  { scope with blocks := ⟨number, names, scope.frame⟩ :: scope.blocks }

end Scope

namespace Closure

/-- The names of parameters that take single arguments. -/
def singleNames (params : List (Param Tree)) : List Text :=
  Names.ofParams (params.filter Names.isSingle)

/-- The name of the parameter that takes what is left over by place. -/
def restName? (params : List (Param Tree)) : Option Text :=
  params.findSome? fun
    | .rest name? => name?
    | _ => none

/-- The name of the parameter that takes what is left over by name. -/
def restNamed? (params : List (Param Tree)) : Option Text :=
  params.findSome? fun
    | .restNamed name => some name
    | _ => none

/-- Adds a value by name to those of the parameters, or to those that are left over. No name is
given twice. -/
def bindNamed (singles : List Text) (takesRest : Bool) :
    List (Text × Value) → List (Text × Value) → List (Text × Value) →
      Run (List (Text × Value) × List (Text × Value))
  | values, left, [] => pure (values, left.reverse)
  | values, left, (name, x) :: rest =>
    if singles.contains name then
      if (values.lookup name).isSome then Store.fail .badArguments
      else bindNamed singles takesRest ((name, x) :: values) left rest
    else if !takesRest || (left.lookup name).isSome then Store.fail .badArguments
    else bindNamed singles takesRest values ((name, x) :: left) rest

/-- The value that a parameter has after the arguments: one that was given, or else its default. -/
def settle (c : Closure) (values : List (Text × Value)) (name : Text) : Run (Text × Value) :=
  match (values.lookup name).or (c.defaults.lookup name) with
  | some x => pure (name, x)
  | none => Store.fail .badArguments

/-- The values of the parameters in a call. -/
def bindArguments (c : Closure) (args : Arguments) : Run (List (Text × Value)) := do
  let params := c.code.params
  let singles := singleNames params
  let placed := singleNames (params.takeWhile Names.isSingle)
  let surplus := args.places.drop placed.length
  let rest? := restName? params
  if !surplus.isEmpty && rest?.isNone then Store.fail .badArguments
  let restNamed? := restNamed? params
  let (values, left) ←
    bindNamed singles restNamed?.isSome (placed.zip args.places) [] args.named
  let settled ← singles.mapM (c.settle values)
  let row := rest?.toList.map fun name => (name, Value.tuple surplus)
  match restNamed? with
  | none => return settled ++ row
  | some name =>
    let entries := left.map fun (key, x) => (Value.text key, x)
    let dict ← Store.newDict { entries := entries.toArray, untouched := entries.isEmpty }
    return settled ++ row ++ [(name, dict)]

end Closure
end Mcs51.Expression
