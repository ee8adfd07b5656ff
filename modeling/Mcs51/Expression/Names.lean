import Mcs51.Expression.Tree

/-!
# Names of programs

Before a program runs, each of its names must be bound somewhere, and each statement must stand
where it may. A name bound anywhere in a function belongs to the whole function; a name outside
functions is bound only once. The names of a comprehension are its own.
-/

namespace Mcs51.Expression

/-- Why the names and statements of a program do not fit together. -/
inductive Misuse where
  | undefinedName (name : Text)
  | reboundName (name : Text)
  | misplacedStatement
  | badTarget
  | badParameters
  | badArguments
  | tooDeep
  deriving Repr, DecidableEq

def Misuse.message : Misuse → Text
  | .undefinedName name => Text.ofString "undefined: " ++ name
  | .reboundName name => Text.ofString "bound twice: " ++ name
  | .misplacedStatement => "statement cannot stand here"
  | .badTarget => "not a target of an assignment"
  | .badParameters => "parameters do not fit together"
  | .badArguments => "arguments do not fit together"
  | .tooDeep => "expression is nested too deeply"

namespace Names

/-! ## Names that are bound -/

/-- The names that an assignment to a target binds. -/
def ofTarget : Nat → Tree → List Text
  | 0, _ => []
  | fuel + 1, target => match target with
    | .name t => [t]
    | .tuple items | .list items => items.flatMap (ofTarget fuel)
    | _ => []

/-- The names that statements bind, apart from those of functions and comprehensions in them. -/
def ofStatements : Nat → List Statement → List Text
  | 0, _ => []
  | fuel + 1, statements => statements.flatMap fun
    | .assign target _ => ofTarget fuel target
    | .update _ target _ => ofTarget fuel target
    | .define _ name _ _ => [name]
    | .branch _ yes no => ofStatements fuel yes ++ ofStatements fuel no
    | .each target _ body => ofTarget fuel target ++ ofStatements fuel body
    | _ => []

/-- The names of parameters. -/
def ofParams (params : List (Param Tree)) : List Text :=
  params.filterMap fun
    | .required name => some name
    | .optional name _ => some name
    | .rest name? => name?
    | .restNamed name => some name

/-- The names that the clauses of a comprehension bind. -/
def ofClauses (fuel : Nat) (clauses : List (Clause Tree)) : List Text :=
  clauses.flatMap fun
    | .each target _ => ofTarget fuel target
    | .onlyIf _ => []

/-! ## Arguments and parameters -/

/-- The most arguments of one kind that a call may have. -/
def argumentLimit : Nat := 255

/-- Where an argument may stand: those by place come first, then those by name, then a row, and
last a dictionary. -/
def argumentRank : Argument Tree → Nat
  | .place _ => 0
  | .named _ _ => 1
  | .spread _ => 2
  | .spreadNamed _ => 3

/-- Ranks go up, and only arguments by place or by name repeat. -/
def areOrdered : List Nat → Bool
  | a :: b :: rest => (a < b || (a == b && a < 2)) && areOrdered (b :: rest)
  | _ => true

/-- A name that occurs twice. -/
def repeated? : List Text → Option Text
  | [] => none
  | name :: rest => if rest.contains name then some name else repeated? rest

/-- The arguments of a call fit together. -/
def areArguments (args : List (Argument Tree)) : Bool :=
  let ranks := args.map argumentRank
  let names := args.filterMap fun
    | .named name _ => some name
    | _ => none
  areOrdered ranks && (repeated? names).isNone && ranks.count 0 ≤ argumentLimit
    && names.length ≤ argumentLimit

/-- A parameter for a single argument. -/
def isSingle : Param Tree → Bool
  | .required _ | .optional _ _ => true
  | _ => false

/-- The parameters stand in order, after some that are optional or one that takes a row. -/
def areParamsOrdered (hasOptional hasRest : Bool) : List (Param Tree) → Bool
  | [] => true
  | .required _ :: rest => (hasRest || !hasOptional) && areParamsOrdered hasOptional hasRest rest
  | .optional _ _ :: rest => areParamsOrdered true hasRest rest
  | .rest name? :: rest =>
    !hasRest && (name?.isSome || rest.any isSingle) && areParamsOrdered hasOptional true rest
  | .restNamed _ :: rest => rest.isEmpty

/-- The parameters of a function fit together. -/
def areParams (params : List (Param Tree)) : Bool :=
  areParamsOrdered false false params && (repeated? (ofParams params)).isNone

/-! ## Names that are used -/

/-- Names by whether they are bound. -/
abbrev Known := Text → Bool

/-- The names of a block inside others. -/
def inside (names : List Text) (known : Known) : Known :=
  fun name => names.contains name || known name

def require (holds : Bool) (otherwise : Misuse) : Except Misuse Unit :=
  if holds then .ok () else .error otherwise

/-- Checks a target of an assignment. Its names are bound by it, all else in it is evaluated. A
target that is updated is a single one. -/
def checkTarget (check : Tree → Except Misuse Unit) (isUpdate : Bool) :
    Nat → Tree → Except Misuse Unit
  | 0, _ => .error .tooDeep
  | fuel + 1, target => match target with
    | .name _ => .ok ()
    | .index x i => do
      check x
      check i
    | .field x _ => check x
    | .tuple items | .list items =>
      if isUpdate then .error .badTarget else items.forM (checkTarget check isUpdate fuel)
    | _ => .error .badTarget

/-- Checks a comprehension: its first source does not see its names. -/
def checkClauses (check : Known → Tree → Except Misuse Unit) (fuel : Nat) (known : Known)
    (clauses : List (Clause Tree)) : Except Misuse Known := do
  let inner := inside (ofClauses fuel clauses) known
  match clauses with
  | .each target source :: rest =>
    check known source
    checkTarget (check inner) false fuel target
    rest.forM fun
      | .each target source => do
        check inner source
        checkTarget (check inner) false fuel target
      | .onlyIf condition => check inner condition
  | _ => throw .misplacedStatement
  return inner

/-- Checks parameters: their values are evaluated outside the function. -/
def checkParams (check : Tree → Except Misuse Unit) (params : List (Param Tree)) :
    Except Misuse Unit := do
  require (areParams params) .badParameters
  params.forM fun
    | .optional _ value => check value
    | _ => .ok ()

/-- Checks an expression. -/
def checkTree : Nat → Known → Tree → Except Misuse Unit
  | 0, _, _ => .error .tooDeep
  | fuel + 1, known, tree =>
    let check := checkTree fuel known
    match tree with
    | .integer _ | .real _ | .text _ | .bytes _ => .ok ()
    | .name t => require (known t) (.undefinedName t)
    | .list items | .tuple items => items.forM check
    | .dict entries => entries.forM fun (key, value) => do
      check key
      check value
    | .unary _ x => check x
    | .binary _ x y => do
      check x
      check y
    | .choice condition yes no => do
      check condition
      check yes
      check no
    | .index x i => do
      check x
      check i
    | .slice x low high step => do
      check x
      [low, high, step].forM fun bound => bound.forM check
    | .field x _ => check x
    | .call f args => do
      check f
      require (areArguments args) .badArguments
      args.forM fun
        | .place x | .named _ x | .spread x | .spreadNamed x => check x
    | .lambda _ params body => do
      checkParams check params
      checkTree fuel (inside (ofParams params) known) body
    | .listFor _ body clauses => do
      let inner ← checkClauses (checkTree fuel) fuel known clauses
      checkTree fuel inner body
    | .dictFor _ key value clauses => do
      let inner ← checkClauses (checkTree fuel) fuel known clauses
      checkTree fuel inner key
      checkTree fuel inner value

/-- Where a statement stands. -/
structure Place where
  inFunction : Bool := false
  inLoop : Bool := false

/-- Checks statements. -/
def checkStatements : Nat → Known → Place → List Statement → Except Misuse Unit
  | 0, _, _, _ => .error .tooDeep
  | fuel + 1, known, place, statements =>
    let check := checkTree fuel known
    statements.forM fun
      | .evaluate x => check x
      | .assign target value => do
        check value
        checkTarget check false fuel target
      | .update _ target value => do
        check value
        checkTarget check true fuel target
      | .define _ _ params body => do
        checkParams check params
        let names := ofParams params ++ ofStatements fuel body
        checkStatements fuel (inside names known) ⟨true, false⟩ body
      | .branch condition yes no => do
        require place.inFunction .misplacedStatement
        check condition
        checkStatements fuel known place yes
        checkStatements fuel known place no
      | .each target source body => do
        require place.inFunction .misplacedStatement
        check source
        checkTarget check false fuel target
        checkStatements fuel known { place with inLoop := true } body
      | .give x? => do
        require place.inFunction .misplacedStatement
        x?.forM check
      | .leave | .next => require place.inLoop .misplacedStatement
      | .pass => .ok ()

/-- Checks a program over the names that are given. -/
def check (fuel : Nat) (given : Known) (program : List Statement) : Except Misuse Unit := do
  let globals := ofStatements fuel program
  if let some name := repeated? globals then throw (.reboundName name)
  checkStatements fuel (inside globals given) {} program

end Names
end Mcs51.Expression
