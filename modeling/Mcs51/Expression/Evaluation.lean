import Mcs51.Expression.Functions
import Mcs51.Expression.Scope

/-!
# Evaluation

What expressions and statements do. The value of a part is found by an evaluation of smaller depth,
which is given as the interpreter `inner`. Since no function may call itself, directly or through
others, a program is never evaluated deeper than all its parts inside each other would be.
-/

namespace Mcs51.Expression

/-- How the statements go on after one. -/
inductive Flow where
  /-- The next statement follows. -/
  | done
  /-- The loop around is left. -/
  | leave
  /-- The next round of the loop around follows. -/
  | next
  /-- The function gives a value. -/
  | give (x : Value)

/-- The evaluation of expressions, of statements, and of calls inside some functions. -/
structure Interpreter where
  eval : Scope → Tree → Run Value
  exec : Scope → Statement → Run Flow
  call : Scope → Value → Arguments → Run Value

/-! ## Operators -/

/-- The value of an operator that takes both its operands. -/
def Value.binary (op : BinaryOp) (x y : Value) : Run Value :=
  match op with
  | .either => do return if ← x.isTrue then x else y
  | .both => do return if ← x.isTrue then y else x
  | .relation r => do return .truth (← compareAs r x y)
  | .member => do return .truth (← isMember x y)
  | .nonMember => do return .truth !(← isMember x y)
  | .bitOr => bitOr x y
  | .bitXor => bitwise Bitwise.xor x y
  | .bitAnd => bitwise Bitwise.and x y
  | .shiftLeft => shift true x y
  | .shiftRight => shift false x y
  | .add => add x y
  | .subtract => subtract x y
  | .multiply => multiply x y
  | .divide => divide x y
  | .floorDivide => floorDivide x y
  | .modulo => match x with
    | .text template => fill template y
    | x => modulo x y

/-- The value of an operator that is kept where its first operand was. -/
def Value.binaryInPlace (op : BinaryOp) (x y : Value) : Run Value :=
  match op with
  | .add => addInPlace x y
  | .bitOr => bitOrInPlace x y
  | op => binary op x y

/-- Gives the part of a value at an index, or its entry for a key, another value. -/
def Value.setIndex (x i new : Value) : Run Unit :=
  match x with
  | .dict number => setEntry number i new
  | .list number => do
    let i ← place (← Store.listItems number).size i
    Store.changeList number (·.setIfInBounds i new)
  | _ => Store.fail .fixedTarget

/-- The items of a value that has exactly `count` of them. -/
def Value.unpack (count : Nat) (x : Value) : Run (List Value) := do
  match ← x.iterate with
  | .row items => if items.length == count then return items else Store.fail .badCount
  | .steps r =>
    if r.count.toNat == count then return (Items.steps r).toArray.toList else Store.fail .badCount

namespace Interpreter

variable (inner : Interpreter)

/-! ## Targets -/

/-- Assigns a value to a target. -/
def assign (scope : Scope) : Nat → Tree → Value → Run Unit
  | 0, _, _ => Store.fail .tooDeep
  | depth + 1, target, x => match target with
    | .name name => scope.assign name x
    | .tuple targets | .list targets => do
      let items ← x.unpack targets.length
      (targets.zip items).forM fun (target, item) => assign scope depth target item
    | .index y i => do
      let y ← inner.eval scope y
      let i ← inner.eval scope i
      y.setIndex i x
    | _ => Store.fail .fixedTarget

/-- Updates a target by an operator. Its parts are evaluated once. -/
def update (scope : Scope) (op : BinaryOp) (target value : Tree) : Run Unit :=
  match target with
  | .name name => do
    let x ← scope.lookup name
    let y ← inner.eval scope value
    scope.assign name (← x.binaryInPlace op y)
  | .index container i => do
    let container ← inner.eval scope container
    let i ← inner.eval scope i
    let x ← container.index i
    let y ← inner.eval scope value
    container.setIndex i (← x.binaryInPlace op y)
  | _ => Store.fail .fixedTarget

/-! ## Loops -/

/-- Assigns each item of a value to a target and goes on from what is given so far, until told to
stop. The value cannot change meanwhile. -/
def eachItem {σ : Type} (scope : Scope) (target : Tree) (source : Value) (acc : σ)
    (body : σ → Run (ForInStep σ)) : Run σ := do
  let items ← source.iterate
  Store.locked source (items.run acc fun x acc => do
    inner.assign scope scope.depth target x
    body acc)

/-- Goes through the clauses of a comprehension. -/
def runClauses {σ : Type} (scope : Scope) (body : σ → Run σ) : List (Clause Tree) → σ → Run σ
  | [], acc => body acc
  | .each target source :: rest, acc => do
    let source ← inner.eval scope source
    inner.eachItem scope target source acc fun acc => do
      return .yield (← runClauses scope body rest acc)
  | .onlyIf condition :: rest, acc => do
    if ← (← inner.eval scope condition).isTrue then runClauses scope body rest acc
    else return acc

/-- Goes through a comprehension. Its first source is evaluated outside. -/
def comprehend {σ : Type} (scope : Scope) (number : Nat) (clauses : List (Clause Tree)) (acc : σ)
    (body : Scope → σ → Run σ) : Run σ :=
  match clauses with
  | .each target source :: rest => do
    let source ← inner.eval scope source
    let scope := scope.enter number (Names.ofClauses scope.depth clauses)
    inner.eachItem scope target source acc fun acc => do
      return .yield (← inner.runClauses scope (body scope) rest acc)
  | _ => Store.fail .givenUp

/-! ## Functions -/

/-- The values of the parameters that have them. -/
def defaults (scope : Scope) : List (Param Tree) → Run (List (Text × Value))
  | [] => pure []
  | .optional name value :: rest => do
    let x ← inner.eval scope value
    return (name, x) :: (← defaults scope rest)
  | _ :: rest => defaults scope rest

/-- Makes a function. -/
def makeFunction (scope : Scope) (number : Nat) (name : Text) (params : List (Param Tree))
    (body : List Statement) : Run Value := do
  let defaults ← inner.defaults scope params
  let names := Names.ofParams params ++ Names.ofStatements scope.depth body
  Store.newClosure ⟨⟨number, name, params, names, body⟩, defaults, scope.blocks⟩

/-- Runs statements one after the other, until one of them goes on elsewhere. -/
def execAll (scope : Scope) : List Statement → Run Flow
  | [] => pure .done
  | first :: rest => do
    match ← inner.exec scope first with
    | .done => execAll scope rest
    | flow => return flow

/-- Calls a function that the program defines. -/
def callClosure (scope : Scope) (number : Nat) (args : Arguments) : Run Value := do
  match (← get).closures[number]? with
  | none => Store.fail .notFunction
  | some closure =>
    let code := closure.code
    if scope.active.contains code.number then Store.fail .recursive
    let values ← closure.bindArguments args
    let frame ← Store.newFrame (values.map fun (name, x) => ((code.number, name), x))
    let inside := { scope with
      active := code.number :: scope.active
      blocks := ⟨code.number, code.names, frame⟩ :: closure.blocks
      frame := frame }
    match ← inner.execAll inside code.body with
    | .give x => return x
    | _ => return .nothing

/-- Calls a value. -/
def callValue (scope : Scope) (f : Value) (args : Arguments) : Run Value :=
  match f with
  | .function number => inner.callClosure scope number args
  | .builtin f => Functions.apply (inner.call scope) f args
  | .method receiver m _ => Functions.applyMethod receiver m args
  | _ => Store.fail .notFunction

/-- The entries of a dictionary as arguments by name. -/
def namedEntries : List (Value × Value) → Run (List (Text × Value))
  | [] => pure []
  | (.text name, x) :: rest => do return (name, x) :: (← namedEntries rest)
  | _ => Store.fail .badArguments

/-- Evaluates an argument of a call. -/
def evalArgument (scope : Scope) : Argument Tree → Run (Argument Value)
  | .place x => do return .place (← inner.eval scope x)
  | .named name x => do return .named name (← inner.eval scope x)
  | .spread x => do return .spread (← inner.eval scope x)
  | .spreadNamed x => do return .spreadNamed (← inner.eval scope x)

/-- Adds an argument of a call to those before it. -/
def addArgument (args : Arguments) : Argument Value → Run Arguments
  | .place x => return { args with places := args.places ++ [x] }
  | .named name x => return { args with named := args.named ++ [(name, x)] }
  | .spread x => do return { args with places := args.places ++ (← x.iterateAll).toList }
  | .spreadNamed x => do
    match x with
    | .dict number =>
      let entries ← namedEntries (← Store.dictEntries number).toList
      return { args with named := args.named ++ entries }
    | _ => Store.fail .badArguments

/-- The arguments of a call. A sequence is spread only when all arguments are evaluated, since an
argument may change it. -/
def evalArguments (scope : Scope) (args : List (Argument Tree)) : Run Arguments := do
  (← args.mapM (inner.evalArgument scope)).foldlM addArgument ⟨[], []⟩

/-! ## Expressions -/

/-- The sum of terms, each evaluated before it is added. -/
def sum (scope : Scope) (acc : Value) : List Tree → Run Value
  | [] => pure acc
  | term :: rest => do sum scope (← acc.add (← inner.eval scope term)) rest

/-- The value of an optional part. -/
def evalOption (scope : Scope) : Option Tree → Run Value
  | some x => inner.eval scope x
  | none => pure .nothing

/-- Sets an entry of a dictionary that must not have its key yet. -/
def addEntry (scope : Scope) (number : Nat) (key value : Tree) : Run Unit := do
  let size := (← Store.dictEntries number).size
  let key ← inner.eval scope key
  let x ← inner.eval scope value
  Value.setEntry number key x
  if (← Store.dictEntries number).size == size then Store.fail .repeatedKey

/-- The value of an operator. The second operand of some is evaluated only if it matters. -/
def evalBinary (scope : Scope) (op : BinaryOp) (x y : Tree) : Run Value :=
  match op with
  | .either => do
    let left ← inner.eval scope x
    if ← left.isTrue then return left
    inner.eval scope y
  | .both => do
    let left ← inner.eval scope x
    if ← left.isTrue then inner.eval scope y else return left
  | .add => match Tree.terms x y with
    | [] => pure .nothing
    | first :: rest => do inner.sum scope (← inner.eval scope first) rest
  | op => do
    let left ← inner.eval scope x
    left.binary op (← inner.eval scope y)

/-- The value of an expression. -/
def evalStep (scope : Scope) : Tree → Run Value
  | .integer n => pure (.integer n)
  | .real x => pure (.real x)
  | .text t => pure (.text t)
  | .bytes t => pure (.bytes t)
  | .name name => scope.lookup name
  | .list items => do Store.newList (← items.mapM (inner.eval scope)).toArray
  | .tuple items => do return .tuple (← items.mapM (inner.eval scope))
  | .dict entries => do
    let made ← Store.newDict {}
    if let .dict number := made then
      entries.forM fun (key, value) => inner.addEntry scope number key value
    return made
  | .unary op x => do Value.unary op (← inner.eval scope x)
  | .binary op x y => inner.evalBinary scope op x y
  | .choice condition yes no => do
    if ← (← inner.eval scope condition).isTrue then inner.eval scope yes
    else inner.eval scope no
  | .index x i => do
    let x ← inner.eval scope x
    x.index (← inner.eval scope i)
  | .slice x low high step => do
    let x ← inner.eval scope x
    let low ← inner.evalOption scope low
    let high ← inner.evalOption scope high
    x.slice low high (← inner.evalOption scope step)
  | .field x name => do Functions.attributeOf (← inner.eval scope x) name
  | .call f args => do
    let f ← inner.eval scope f
    inner.call scope f (← inner.evalArguments scope args)
  | .lambda number params body =>
    inner.makeFunction scope number (Text.ofString "lambda") params [.give (some body)]
  | .listFor number body clauses => do
    let items ← inner.comprehend scope number clauses #[] fun scope items => do
      return items.push (← inner.eval scope body)
    Store.newList items
  | .dictFor number key value clauses => do
    let made ← Store.newDict {}
    if let .dict dict := made then
      inner.comprehend scope number clauses () fun scope _ => do
        let key ← inner.eval scope key
        Value.setEntry dict key (← inner.eval scope value)
    return made

/-! ## Statements -/

/-- How a loop goes on after a round. -/
def afterRound : Flow → ForInStep Flow
  | .done | .next => .yield .done
  | .leave => .done .done
  | .give x => .done (.give x)

/-- Runs a statement. -/
def execStep (scope : Scope) : Statement → Run Flow
  | .evaluate x => do
    discard (inner.eval scope x)
    return .done
  | .assign target value => do
    let x ← inner.eval scope value
    inner.assign scope scope.depth target x
    return .done
  | .update op target value => do
    inner.update scope op target value
    return .done
  | .define number name params body => do
    scope.assign name (← inner.makeFunction scope number name params body)
    return .done
  | .branch condition yes no => do
    if ← (← inner.eval scope condition).isTrue then inner.execAll scope yes
    else inner.execAll scope no
  | .each target source body => do
    let source ← inner.eval scope source
    inner.eachItem scope target source .done fun _ => do
      return afterRound (← inner.execAll scope body)
  | .give x? => do return .give (← inner.evalOption scope x?)
  | .leave => pure .leave
  | .next => pure .next
  | .pass => pure .done

end Interpreter

/-- The interpreter for programs nested at most `depth` deep. -/
def interpreter : Nat → Interpreter
  | 0 =>
    { eval := fun _ _ => Store.fail .tooDeep
      exec := fun _ _ => Store.fail .tooDeep
      call := fun _ _ _ => Store.fail .tooDeep }
  | depth + 1 =>
    let inner := interpreter depth
    { eval := fun scope tree => inner.evalStep scope tree
      exec := fun scope statement => inner.execStep scope statement
      call := fun scope f args => inner.callValue scope f args }

end Mcs51.Expression
