import Mcs51.Expression
import Mcs51.Operand
import Mcs51.Problem
import Mcs51.Text.Quoting

/-!
# Equates

Names that stand for texts. A name is replaced by its text wherever it stands as a word outside
double quotes; the replacement is not looked at again. In an expression a name stands for the number
its text is, if it is one. The name `lineno` always stands for the number of the line, in
expressions only.
-/

namespace Mcs51

/-- The texts of names. -/
structure Equates where
  entries : List (Text × Text) := []
  deriving Repr, DecidableEq

namespace Equates

/-- The name of the line number. -/
def lineName : Text := "lineno"

def get? (e : Equates) (name : Text) : Option Text := e.entries.lookup name

/-- Gives a name a text, in place of the one it had. -/
def set (e : Equates) (name value : Text) : Equates :=
  ⟨(name, value) :: e.entries.filter fun entry => entry.1 != name⟩

/-- Defines a name before the source is read; its case does not matter. -/
def predefine (e : Equates) (name value : Text) : Equates := e.set (Text.lower name) value

/-- The number of the line becomes the text of its name. -/
def atLine (e : Equates) (line : Int) : Equates := e.set lineName (Text.ofInt line)

/-- The equates in the order of their names. -/
def sorted (e : Equates) : List (Text × Text) :=
  e.entries.mergeSort fun a b => Text.le a.1 b.1

/-- The numbers of the names in expressions. -/
def numbers (e : Equates) : Expression.Bindings := fun name =>
  if isSymbol name then
    match e.get? name with
    | some value => match Numeral.parse value with
      | .ok n => some n
      | .error _ => none
    | none => none
  else none

/-! ## Substitution -/

/-- The text that stands for a word. A word that starts with a digit is no name. -/
def substituteWord (e : Equates) (word : Text) : Text :=
  if Numeral.looksNumeric word || word == lineName then word else (e.get? word).getD word

/-- Replaces the names in a text outside double quotes. -/
def substitute (e : Equates) (t : Text) : Text :=
  Text.mapOutsideQuotes (Text.mapRuns Text.isNameByte e.substituteWord) t

/-! ## Definition -/

/-- A line that defines a name: the name and its text, or none of them in a line of the wrong shape.
-/
inductive Line where
  | definition (name value : Text)
  | malformed
  deriving Repr, DecidableEq

/-- Recognises `.equ name text` and `name equ text`. -/
def Line.ofWords? (words : List Text) : Option Line :=
  match words with
  | [] => none
  | first :: rest =>
    if first == Text.ofString ".equ" then match rest with
      | [name, value] => some (.definition name value)
      | _ => some .malformed
    else match rest with
      | [] => none
      | second :: rest =>
        if second == Text.ofString "equ" then match rest with
          | [value] => some (.definition first value)
          | _ => some .malformed
        else none

/-- Why a name cannot be defined. A name whose text is empty may be defined again. -/
def refusal? (e : Equates) (name : Text) : Option Complaint :=
  if !isSymbol name then some (.equateName name)
  else if isReserved name then some (.equateReserved name)
  else if !((e.get? name).getD []).isEmpty then some (.equateDuplicate name)
  else none

/-- What a line that defines a name does to the equates; no answer for any other line. -/
def define? (e : Equates) (line : Text) (pos : Position) : Option (Equates × List Finding) :=
  (Line.ofWords? (Text.wordsOf line)).map fun
    | .malformed => (e, [.error .equateShape line pos])
    | .definition name value => match e.refusal? name with
      | some complaint => (e, [.error complaint name pos])
      | none => (e.set name (e.substitute value), [])

end Equates
end Mcs51
