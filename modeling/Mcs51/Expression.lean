import Mcs51.Expression.Evaluation
import Mcs51.Expression.Grammar

/-!
# Constant expressions

The value of an expression over names bound to integers. An expression is what is assigned to the
name of the result, so statements may follow it on the same line. Each name must be bound, be given
by the program or be that of a function, also where it is not evaluated. The result must be an
integer of 64 bits.
-/

namespace Mcs51.Expression

/-- The name of the result. -/
def resultName : Text := "rc"

/-- Why an expression has no integer as its value. -/
inductive Error where
  | malformed
  | misused (misuse : Misuse)
  | failed (fault : Fault)
  | notInteger (expression : Text)
  deriving Repr, DecidableEq

def Error.message : Error → Text
  | .malformed => "not well formed"
  | .misused misuse => misuse.message
  | .failed fault => fault.message
  | .notInteger expression =>
    Text.ofString "$(" ++ expression ++ Text.ofString ") is not an integer expression"

/-- What gives expressions over bound names their values. -/
abbrev Evaluator := Bindings → Text → Except Error Int

/-- The lexemes of the program that assigns an expression to the name of the result. -/
def program? (expression : Text) : Option (List Lexeme) :=
  lexemes? (resultName ++ '='.toUInt8 :: expression ++ [Text.lineFeed])

/-- A bound on how deeply a program of some lexemes can be nested when it runs. -/
def depthFor (row : List Lexeme) : Nat := 4 * row.length + 16

/-- Runs statements over the names that are bound outside. -/
def run (bound : Bindings) (depth : Nat) (statements : List Statement) : Run Unit := do
  let frame ← Store.newFrame []
  let globals := Names.ofStatements depth statements
  discard ((interpreter depth).execAll { bound, globals, frame, depth } statements)

/-- The integer value of an expression. -/
def evaluate (bound : Bindings) (expression : Text) : Except Error Int := do
  let some row := program? expression | throw .malformed
  let some statements := statements? row | throw .malformed
  let depth := depthFor row
  if let .error misuse := Names.check depth (Scope.isGiven bound) statements then
    throw (.misused misuse)
  match run bound depth statements {} with
  | .error fault => throw (.failed fault)
  | .ok ((), store) => match store.globals.lookup resultName with
    | some (.integer n) => if isWord n then return n else throw (.notInteger expression)
    | _ => throw (.notInteger expression)

end Mcs51.Expression
