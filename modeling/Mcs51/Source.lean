import Mcs51.Source.CharacterLiteral
import Mcs51.Source.Equates
import Mcs51.Text.Lines

/-!
# Source preparation

Before its tokens are read, each line of a source is prepared: its comment is cut off, character
literals become numbers, letters outside strings are put into lower case, expressions `$(…)` become
their values, and equates are recorded or substituted. A line that defines an equate, and one with
an expression that has no value, is left blank, so that each prepared line has the number of its
source line.
-/

namespace Mcs51.Source

/-! ## Expressions in a line -/

/-- The parts before and after the last byte `sep`. -/
def cutLast? (sep : UInt8) (t : Text) : Option (Text × Text) :=
  (Text.cut? sep t.reverse).map fun (after, before) => (before.reverse, after.reverse)

/-- The expression at the start of the text that follows a dollar sign, and what comes after it. It
stretches to the last closing parenthesis. -/
def expression? (t : Text) : Option (Text × Text) :=
  match t with
  | [] => none
  | b :: t => if b == '('.toUInt8 then cutLast? ')'.toUInt8 t else none

/-- A text in which expressions have been replaced, and what is wrong with those that could not be.
-/
structure Expanded where
  text : Text
  findings : List Finding := []
  deriving Repr, DecidableEq

section

variable (evaluate : Expression.Evaluator)

/-- Replaces the expression that starts after a dollar sign, if there is one. -/
def expandAfterDollar (bound : Expression.Bindings) (pos : Position) (t : Text) : Expanded :=
  match expression? t with
  | none => ⟨'$'.toUInt8 :: t, []⟩
  | some (expression, rest) => match evaluate bound expression with
    | .ok n => ⟨Text.ofInt n ++ rest, []⟩
    | .error e =>
      let whole := Text.ofString "$(" ++ expression ++ Text.ofString ")"
      ⟨whole ++ rest, [.error (.badExpression expression e.message) whole pos]⟩

/-- Puts parts together. -/
def Expanded.concat (parts : List Expanded) : Expanded :=
  ⟨parts.flatMap Expanded.text, parts.flatMap Expanded.findings⟩

/-- Replaces the expressions in a text without double quotes. -/
def expandPart (bound : Expression.Bindings) (pos : Position) (t : Text) : Expanded :=
  match Text.splitOn '$'.toUInt8 t with
  | [] => ⟨[], []⟩
  | first :: rest =>
    Expanded.concat (⟨first, []⟩ :: rest.map (expandAfterDollar evaluate bound pos))

/-- Replaces the expressions of a line outside double quotes. -/
def expand (bound : Expression.Bindings) (pos : Position) (t : Text) : Expanded :=
  let parts := Text.mapParts (expandPart evaluate bound pos) (fun inside => ⟨inside, []⟩) t
  ⟨Text.joinParts (parts.map Expanded.text), parts.flatMap Expanded.findings⟩

end

/-! ## Lines -/

/-- What a line gives: the prepared line, the equates after it, and what is wrong with it. -/
structure PreparedLine where
  text : Text
  equates : Equates
  findings : List Finding := []
  deriving Repr, DecidableEq

/-- The line as its parts are recognised: without comment and outer white space, its character
literals replaced, in lower case outside strings. -/
def normalize (line : Text) : Text :=
  Text.foldCase (Text.mapOutsideQuotes replaceLiterals (Text.trim (Text.stripComment line)))

/-- Prepares a line. -/
def prepareLine (evaluate : Expression.Evaluator) (equates : Equates) (line : Text)
    (pos : Position) : PreparedLine :=
  let equates := equates.atLine pos.line
  let expanded := expand evaluate equates.numbers pos (normalize line)
  if !expanded.findings.isEmpty then ⟨[], equates, expanded.findings⟩
  else match equates.define? expanded.text pos with
    | some (equates, findings) => ⟨[], equates, findings⟩
    | none => ⟨equates.substitute expanded.text, equates, []⟩

/-! ## Sources -/

/-- What a source gives: a line for each of its lines, the equates after the last, and what is
wrong. -/
structure Prepared where
  lines : List Text
  equates : Equates
  findings : List Finding
  deriving Repr, DecidableEq

/-- Prepares lines, the first of which has the given number. -/
def prepareFrom (evaluate : Expression.Evaluator) (path : Text) (number : Int)
    (equates : Equates) : List Text → Prepared
  | [] => ⟨[], equates, []⟩
  | line :: lines =>
    let first := prepareLine evaluate equates line ⟨path, number⟩
    let rest := prepareFrom evaluate path (number + 1) first.equates lines
    ⟨first.text :: rest.lines, rest.equates, first.findings ++ rest.findings⟩

/-- Prepares the lines of a source, numbered from one. -/
def prepare (path : Text) (predefined : Equates) (lines : List Text)
    (evaluate : Expression.Evaluator := Expression.evaluate) : Prepared :=
  prepareFrom evaluate path 1 predefined lines

/-- The log of preparing: each line with its number. -/
def log (lines : List Text) : List Text :=
  lines.zipIdx.map fun (line, number) =>
    Text.ofNat (number + 1) ++ Text.ofString ": " ++ line

end Mcs51.Source
