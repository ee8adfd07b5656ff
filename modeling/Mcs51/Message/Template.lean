import Mcs51.Text.Decimal
import Mcs51.Text.Utf8

/-!
# Templates of messages

A template is text with places for arguments. A place starts with `%` and ends with the letter of a
verb; between them stand flags, a width, a precision, and numbers in brackets that choose which
argument comes next. A width or a precision is written out, or is a star that takes an argument.
`%%` is a place for a percent sign.
-/

namespace Mcs51.Message

/-- The flags of a place. -/
structure Flags where
  sharp : Bool := false
  zero : Bool := false
  plus : Bool := false
  minus : Bool := false
  space : Bool := false
  deriving Repr, DecidableEq

/-- Adds a flag by its character. Zeros never fill on the right, so a minus drops the zero flag. -/
def Flags.add? (f : Flags) (b : UInt8) : Option Flags :=
  if b == '#'.toUInt8 then some { f with sharp := true }
  else if b == '0'.toUInt8 then some { f with zero := !f.minus }
  else if b == '+'.toUInt8 then some { f with plus := true }
  else if b == '-'.toUInt8 then some { f with minus := true, zero := false }
  else if b == ' '.toUInt8 then some { f with space := true }
  else none

/-- The flags at the start of a text, and the rest. -/
def Flags.read : Flags → Text → Flags × Text
  | f, [] => (f, [])
  | f, b :: t => match f.add? b with
    | some f => Flags.read f t
    | none => (f, b :: t)

/-- The largest number that a width or a precision may take from an argument. -/
def countLimit : Nat := 1000000

/-- The number at the start of a text, after the digits that make `n`. A number that goes on beyond
the limit counts as none, and nothing of the text is left. -/
def readCount : Option Nat → Text → Option Nat × Text
  | n, [] => (n, [])
  | n, b :: t =>
    if Text.isDigit b then
      if countLimit < n.getD 0 then (none, [])
      else readCount (some (n.getD 0 * 10 + Text.digitValue b)) t
    else (n, b :: t)

/-- The choice of the next argument. -/
inductive Choice where
  /-- No brackets: the next one in order. -/
  | next
  /-- The argument with this number; the first one has number 1. -/
  | numbered (n : Nat)
  /-- Brackets that hold no number. -/
  | unreadable
  deriving Repr, DecidableEq

/-- The choice has a number. -/
def Choice.isNumbered : Choice → Bool
  | .numbered _ => true
  | _ => false

/-- The choice at the start of a text, and the rest. An opening bracket that nothing closes is
passed over alone. -/
def Choice.read : Text → Choice × Text
  | [] => (.next, [])
  | b :: t =>
    if b != '['.toUInt8 then (.next, b :: t)
    else if t.length < 2 then (.unreadable, t)
    else match Text.cut? ']'.toUInt8 t with
      | none => (.unreadable, t)
      | some (inside, rest) => match readCount none inside with
        | (some n, []) => (.numbered n, rest)
        | _ => (.unreadable, rest)

/-- A width or a precision. -/
inductive Extent where
  | absent
  | written (n : Nat)
  /-- A star: the next argument says how much. -/
  | taken
  deriving Repr, DecidableEq

/-- The extent at the start of a text, and the rest. -/
def Extent.read : Text → Extent × Text
  | [] => (.absent, [])
  | b :: t =>
    if b == '*'.toUInt8 then (.taken, t)
    else match readCount none (b :: t) with
      | (some n, rest) => (.written n, rest)
      | (none, rest) => (.absent, rest)

/-- A place of a template. -/
structure Place where
  flags : Flags := {}
  widthChoice : Choice := .next
  width : Extent := .absent
  precisionChoice : Choice := .next
  precision : Extent := .absent
  verbChoice : Choice := .next
  /-- A number in brackets stands before a width or a precision that takes no argument. -/
  misplacedChoice : Bool := false
  /-- The verb as a code point, unless the template ends before it. -/
  verb? : Option Nat
  deriving Repr, DecidableEq

/-- The verb at the start of a text, and the rest. -/
def readVerb : Text → Option Nat × Text
  | [] => (none, [])
  | b :: t =>
    let (piece, more) := Text.leading b t
    (some piece.code, t.drop more)

/-- The precision at the start of a text. `chosen` says whether a number in brackets stands right
before; the last component says so of what comes after. -/
def readPrecision (chosen : Bool) : Text → Choice × Extent × Text × Bool
  | 0x2e :: b :: t =>
    let (choice, rest) := Choice.read (b :: t)
    match Extent.read rest with
    | (.taken, rest) => (choice, .taken, rest, false)
    | (.absent, rest) => (choice, .written 0, rest, choice.isNumbered)
    | (.written n, rest) => (choice, .written n, rest, choice.isNumbered)
  | t => (.next, .absent, t, chosen)

/-- The place whose `%` stands before the text, and the rest. -/
def Place.read (t : Text) : Place × Text :=
  let (flags, t) := Flags.read {} t
  let (widthChoice, t) := Choice.read t
  let (width, t) := Extent.read t
  let chosen := widthChoice.isNumbered && width != .taken
  let (precisionChoice, precision, afterPrecision, chosenLast) := readPrecision chosen t
  let misplacedChoice := chosen && (width != .absent || precision != .absent)
  let (verbChoice, t) :=
    if chosenLast then (.next, afterPrecision) else Choice.read afterPrecision
  let (verb?, t) := readVerb t
  ({ flags, widthChoice, width, precisionChoice, precision, verbChoice, misplacedChoice, verb? }, t)

/-- A part of a template. -/
inductive Part where
  | literal (b : UInt8)
  | place (p : Place)
  deriving Repr, DecidableEq

/-- The parts of a template, at most `fuel` of them. -/
def partsWithin : Nat → Text → List Part
  | 0, _ => []
  | _ + 1, [] => []
  | fuel + 1, b :: t =>
    if b == '%'.toUInt8 then
      let (place, rest) := Place.read t
      .place place :: partsWithin fuel rest
    else .literal b :: partsWithin fuel t

/-- The parts of a template. -/
def parts (template : Text) : List Part := partsWithin template.length template

end Mcs51.Message
