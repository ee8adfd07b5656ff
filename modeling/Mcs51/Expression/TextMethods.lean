import Mcs51.Expression.Arguments
import Mcs51.Expression.Rendering
import Mcs51.Expression.TextSearch

/-!
# Functions of texts

What can be called on a text.
-/

namespace Mcs51.Expression.TextMethods

open Value (toText toTruth toWord bounds)

/-- A function without arguments. -/
def bare (args : Arguments) (x : Value) : Run Value := do
  args.expect 0 0
  return x

/-- A list of texts. -/
def listOf (parts : List Text) : Run Value := Store.newList (parts.map Value.text).toArray

/-- The part of a text that the arguments from place `i` on bound, and where it starts. -/
def part (t : Text) (args : Arguments) (i : Nat) : Run (Text × Nat) := do
  let (first, last) ← bounds t.length (args.getAny i) (args.getAny (i + 1))
  return ((t.drop first.toNat).take (last - first).toNat, first.toNat)

/-- The place that `find` has for a text in a part of another, if any. -/
def placeOf (find : Text → Text → Option Nat) (t : Text) (args : Arguments) :
    Run (Option Nat) := do
  args.expect 1 3
  let sought ← toText (args.getAny 0)
  let (within, start) ← part t args 1
  return (find sought within).map (start + ·)

/-- A place, or -1 for none. -/
def findBy (find : Text → Text → Option Nat) (t : Text) (args : Arguments) : Run Value := do
  match ← placeOf find t args with
  | some i => return .integer i
  | none => return .integer (-1)

/-- A place, which must be there. -/
def indexBy (find : Text → Text → Option Nat) (t : Text) (args : Arguments) : Run Value := do
  match ← placeOf find t args with
  | some i => return .integer i
  | none => Store.fail .notFound

/-- One of the texts that stand in a row passes a test. -/
def anyText (test : Text → Bool) : List Value → Run Bool
  | [] => pure false
  | x :: rest => do
    if test (← toText x) then return true
    anyText test rest

/-- A part of a text starts or ends with a text, or with one of some. -/
def edge (test : Text → Text → Bool) (t : Text) (args : Arguments) : Run Value := do
  args.expect 1 3
  let (within, _) ← part t args 1
  match args.getAny 0 with
  | .tuple items => return .truth (← anyText (test · within) items)
  | x => return .truth (test (← toText x) within)

/-- The texts of a sequence with a text between each two. -/
def join (t : Text) (args : Arguments) : Run Value := do
  args.expect 1 1
  let parts ← (← (args.getAny 0).iterate).run #[] fun x parts => do
    return .yield (parts.push (← toText x))
  return .text (Text.joinWith t parts.toList)

/-- What stands before and after a place, with the text at that place between. -/
def around (sep t : Text) (place? : Option Nat) (otherwise : List Text) : Value :=
  match place? with
  | some i => .tuple ([t.take i, sep, t.drop (i + sep.length)].map Value.text)
  | none => .tuple (otherwise.map Value.text)

/-- A text that is not empty. -/
def separator (x : Value) : Run Text := do
  let sep ← toText x
  if sep.isEmpty then Store.fail .badArguments
  return sep

def partition (fromEnd : Bool) (t : Text) (args : Arguments) : Run Value := do
  args.expect 1 1
  let sep ← separator (args.getAny 0)
  if fromEnd then return around sep t (TextSearch.findLast? sep t) [[], [], t]
  return around sep t (TextSearch.find? sep t) [t, [], []]

/-- A limit that is optional, and none if negative. -/
def limit? (x? : Option Value) : Run (Option Nat) := do
  match x? with
  | some x =>
    let n ← toWord x
    return if n < 0 then none else some n.toNat
  | none => return none

def replace (t : Text) (args : Arguments) : Run Value := do
  args.expect 2 3
  let old ← toText (args.getAny 0)
  let new ← toText (args.getAny 1)
  let limit? ← limit? (args.get? 2)
  let most := t.length + 1
  return .text (TextSearch.replace old new (min most (limit?.getD most)) t)

/-- The parts of a text between white space or the places of a text. -/
def split (fromEnd : Bool) (t : Text) (args : Arguments) : Run Value := do
  args.expect 0 2
  let limit? ← limit? (args.get? 1)
  match args.getAny 0 with
  | .nothing => match limit? with
    | none => listOf (Text.wordsOf t)
    | some n => listOf (if fromEnd then TextSearch.wordsLast n t else TextSearch.wordsFirst n t)
  | x =>
    let sep ← separator x
    match limit? with
    | none => listOf (TextSearch.split sep t)
    | some n =>
      listOf (if fromEnd then TextSearch.splitLast n sep t else TextSearch.splitFirst n sep t)

/-- A text without what an argument, or else white space, has at its ends. -/
def strip (cut : Text → Text → Text) (t : Text) (args : Arguments) : Run Value := do
  args.expect 0 1
  let chars ← toText (args.getD 0 (.text []))
  return .text (cut chars t)

/-- A text without a start or an end, if it has it. -/
def remove (without : Text → Text → Text) (t : Text) (args : Arguments) : Run Value := do
  args.expect 1 1
  return .text (without (← toText (args.getAny 0)) t)

def withoutStart (start t : Text) : Text := (Text.dropPrefix? start t).getD t

def withoutEnd (part t : Text) : Text :=
  match Text.dropPrefix? part.reverse t.reverse with
  | some rest => rest.reverse
  | none => t

def count (t : Text) (args : Arguments) : Run Value := do
  args.expect 1 3
  let sought ← toText (args.getAny 0)
  let (within, _) ← part t args 1
  return .integer (TextSearch.count sought within)

def lines (t : Text) (args : Arguments) : Run Value := do
  args.expect 0 1
  let keepEnds ← toTruth (args.getD 0 (.truth false))
  listOf (TextSearch.lines keepEnds t)

/-- Calls a function of a text. -/
def apply (m : TextMethod) (t : Text) (args : Arguments) : Run Value :=
  match m with
  | .capitalize => bare args (.text (TextSearch.capitalize t))
  | .codepointOrds => bare args (.points t .numbers)
  | .codepoints => bare args (.points t .texts)
  | .count => count t args
  | .elemOrds => bare args (.elements t .numbers)
  | .elems => bare args (.elements t .texts)
  | .endswith => edge TextSearch.endsWith t args
  | .find => findBy TextSearch.find? t args
  | .format => Value.format t args
  | .index => indexBy TextSearch.find? t args
  | .isalnum => bare args (.truth (TextSearch.isAll TextSearch.isLetterOrDigit t))
  | .isalpha => bare args (.truth (TextSearch.isAll Text.isLetter t))
  | .isdigit => bare args (.truth (TextSearch.isAll Text.isDecimalDigit t))
  | .islower => bare args (.truth (TextSearch.isImage Text.lower t))
  | .isspace => bare args (.truth (TextSearch.isAll Text.isBlankPoint t))
  | .istitle => bare args (.truth (TextSearch.isTitle t))
  | .isupper => bare args (.truth (TextSearch.isImage Text.upper t))
  | .join => join t args
  | .lower => bare args (.text (Text.lower t))
  | .lstrip => strip TextSearch.cutStart t args
  | .partition => partition false t args
  | .removeStart => remove withoutStart t args
  | .removeEnd => remove withoutEnd t args
  | .replace => replace t args
  | .rfind => findBy TextSearch.findLast? t args
  | .rindex => indexBy TextSearch.findLast? t args
  | .rpartition => partition true t args
  | .rsplit => split true t args
  | .rstrip => strip TextSearch.cutEnd t args
  | .split => split false t args
  | .splitlines => lines t args
  | .startswith => edge Text.beginsWith t args
  | .strip => strip (fun chars t => TextSearch.cutEnd chars (TextSearch.cutStart chars t)) t args
  | .title => bare args (.text (TextSearch.title t))
  | .upper => bare args (.text (Text.upper t))

end Mcs51.Expression.TextMethods
