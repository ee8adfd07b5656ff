import Mcs51.Text.Blank

/-!
# Quotes in a line

Four scans of a line that respect quotes. A comment and a comma are recognised outside both kinds of
quotes; case is folded, and the text outside strings is changed, outside double quotes only. A quote
closes at the next quote of its own kind: these scans know no escapes.
-/

namespace Mcs51.Text

/-- The quote that is open, if any. -/
abbrev OpenQuote := Option UInt8

/-- The quote that is open after byte `b`. -/
def nextQuote (quote : OpenQuote) (b : UInt8) : OpenQuote :=
  match quote with
  | some q => if b == q then none else some q
  | none => if b == doubleQuote || b == singleQuote then some b else none

/-- `stripComment` inside the given quote. -/
def stripCommentFrom : OpenQuote → Text → Text
  | _, [] => []
  | quote, b :: t =>
    if quote.isNone && b == ';'.toUInt8 then [] else b :: stripCommentFrom (nextQuote quote b) t

/-- The line up to the first `;` outside quotes. -/
def stripComment (t : Text) : Text := stripCommentFrom none t

/-- `splitCommas` inside the given quote. -/
def splitCommasFrom : OpenQuote → Text → List Text
  | _, [] => [[]]
  | quote, b :: t =>
    if quote.isNone && b == ','.toUInt8 then [] :: splitCommasFrom none t
    else match splitCommasFrom (nextQuote quote b) t with
      | [] => [[b]]
      | part :: parts => (b :: part) :: parts

/-- The parts between the commas outside quotes, without white space at their ends. -/
def splitCommas (t : Text) : List Text := (splitCommasFrom none t).map trim

/-- Puts ASCII letters into lower case; `quoted` says whether a double quote is open. -/
def lowerUnquoted : Bool → Text → Text
  | _, [] => []
  | quoted, b :: t =>
    let quoted := if b == doubleQuote then !quoted else quoted
    (if quoted then b else lowerByte b) :: lowerUnquoted quoted t

/-- The line with ASCII letters outside double quotes in lower case; a stray byte becomes U+FFFD. -/
def foldCase (t : Text) : Text := lowerUnquoted false (scrub t)

/-- Applies `outside` and `inside` to the parts in turn; `isOutside` says which comes first. -/
def alternate {α : Type} (outside inside : Text → α) : Bool → List Text → List α
  | _, [] => []
  | isOutside, part :: parts =>
    (if isOutside then outside part else inside part) :: alternate outside inside (!isOutside) parts

/-- Applies `outside` to the parts of a text outside double quotes, and `inside` to those within. -/
def mapParts {α : Type} (outside inside : Text → α) (t : Text) : List α :=
  alternate outside inside true (splitOn doubleQuote t)

/-- Puts the parts of a text together again, with the double quotes between them. -/
def joinParts (parts : List Text) : Text := joinWith [doubleQuote] parts

/-- Applies a function to the parts of a text outside double quotes. -/
def mapOutsideQuotes (f : Text → Text) (t : Text) : Text := joinParts (mapParts f id t)

end Mcs51.Text
