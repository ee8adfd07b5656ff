import Mcs51.Binary64
import Mcs51.Text.LetterCase
import Mcs51.Text.Decimal

/-!
# Numbers in texts

How a text is read as a number while an expression is evaluated. An integer may carry a mark of its
base. A floating-point number is decimal, or of base sixteen with a power of two; an underscore may
stand between two digits.
-/

namespace Mcs51.Expression.NumberText

/-! ## Integers -/

/-- The value of a digit, letters of either case counting on from ten. -/
def digit? (b : UInt8) : Option Nat :=
  if Text.isDigit b then some (b.toNat - 0x30)
  else if Text.isLower b then some (b.toNat - 0x57)
  else if Text.isUpper b then some (b.toNat - 0x37)
  else none

/-- A row of digits in a base of at most 36. -/
def digits? (base : Nat) (digits : Text) : Option Nat :=
  let step (n : Nat) (b : UInt8) : Option Nat := match digit? b with
    | some d => if d < base then some (n * base + d) else none
    | none => none
  if digits.isEmpty then none else digits.foldlM step 0

/-- The base that the second byte of a numeral stands for. -/
def baseMark? (b : UInt8) : Option Nat :=
  if Text.lowerByte b == 'x'.toUInt8 then some 16
  else if Text.lowerByte b == 'o'.toUInt8 then some 8
  else if Text.lowerByte b == 'b'.toUInt8 then some 2
  else none

/-- A numeral without sign. A mark of its base may stand in front; base zero takes the base from the
mark, and is ten without one. -/
def magnitude? (base : Nat) (t : Text) : Option Nat :=
  let radix := if base == 0 then 10 else base
  match t with
  | 0x30 :: b :: rest =>
    match (if rest.isEmpty then none else baseMark? b) with
    | some marked =>
      if base == 0 || base == marked then digits? marked rest else digits? radix t
    | none =>
      if base == 0 then (if (b :: rest).all (· == 0x30) then some 0 else none)
      else digits? base t
  | t => digits? radix t

/-- A numeral with at most one sign. -/
def integer? (base : Nat) (t : Text) : Option Int :=
  match t with
  | 0x2b :: t => (magnitude? base t).map Int.ofNat
  | 0x2d :: t => (magnitude? base t).map fun n => -(n : Int)
  | t => (magnitude? base t).map Int.ofNat

/-! ## Floating-point numbers -/

/-- What stands before a byte of a numeral. -/
inductive Before where
  | digit
  | underscore
  | other
  deriving DecidableEq

/-- Each underscore stands between two digits. -/
def areUnderscoresBetween (isHex : Bool) : Before → Text → Bool
  | before, [] => before != .underscore
  | before, b :: rest =>
    let lowered := Text.lowerByte b
    if Text.isDigit b || (isHex && 0x61 ≤ lowered && lowered ≤ 0x66) then
      areUnderscoresBetween isHex .digit rest
    else if b == '_'.toUInt8 then
      before == .digit && areUnderscoresBetween isHex .underscore rest
    else before != .underscore && areUnderscoresBetween isHex .other rest

/-- The underscores of a numeral stand between digits; a mark of the base counts as one. -/
def areUnderscoresPlaced (t : Text) : Bool :=
  match t with
  | 0x30 :: b :: rest =>
    if (baseMark? b).isSome then
      areUnderscoresBetween (Text.lowerByte b == 'x'.toUInt8) .digit rest
    else areUnderscoresBetween false .other t
  | t => areUnderscoresBetween false .other t

/-- The most that is read of an exponent. -/
def exponentLimit : Nat := 10000

/-- The exponent that a row of digits stands for. Beyond a limit its size does not matter. -/
def exponentSize (digits : Text) : Nat :=
  digits.foldl (fun n b => if n < exponentLimit then n * 10 + Text.digitValue b else n) 0

/-- An exponent with its sign. -/
def exponent? (t : Text) : Option Int :=
  let size (digits : Text) : Option Nat :=
    if !digits.isEmpty && digits.all Text.isDigit then some (exponentSize digits) else none
  match t with
  | 0x2b :: digits => (size digits).map Int.ofNat
  | 0x2d :: digits => (size digits).map fun n => -(n : Int)
  | digits => (size digits).map Int.ofNat

/-- The digits of a numeral as an integer, and how many of them stand after the point. -/
def mantissa? (base : Nat) (t : Text) : Option (Nat × Nat) :=
  match Text.cut? '.'.toUInt8 t with
  | none => (digits? base t).map fun n => (n, 0)
  | some (whole, fraction) => (digits? base (whole ++ fraction)).map fun n => (n, fraction.length)

/-- A numeral up to the letter of its exponent and after it. -/
def splitExponent (letter : UInt8) (t : Text) : Text × Option Text :=
  let start := t.takeWhile (Text.lowerByte · != letter)
  match t.drop start.length with
  | [] => (start, none)
  | _ :: rest => (start, some rest)

/-- A decimal numeral without sign. -/
def decimal? (negative : Bool) (t : Text) : Option Binary64 := do
  let (start, rest?) := splitExponent 'e'.toUInt8 t
  let (n, places) ← mantissa? 10 start
  let exponent ← match rest? with
    | some rest => exponent? rest
    | none => some 0
  return Binary64.ofDecimal negative n (exponent - places)

/-- A numeral of base sixteen, after its mark. It must have an exponent. -/
def hexadecimal? (negative : Bool) (t : Text) : Option Binary64 := do
  let (start, rest?) := splitExponent 'p'.toUInt8 t
  let (n, places) ← mantissa? 16 start
  let power := (← exponent? (← rest?)) - 4 * places
  return Binary64.ofRatio negative (n * Binary64.twoTo power.toNat)
    (Binary64.twoTo (-power).toNat)

/-- A numeral without sign. -/
def unsigned? (negative : Bool) (t : Text) : Option Binary64 :=
  if t.contains '_'.toUInt8 && !areUnderscoresPlaced t then none
  else
    let plain := t.filter (· != '_'.toUInt8)
    match t with
    | 0x30 :: b :: _ :: _ =>
      if Text.lowerByte b == 'x'.toUInt8 then hexadecimal? negative (plain.drop 2)
      else decimal? negative plain
    | _ => decimal? negative plain

/-- The values that are written as words. -/
def words : List (String × Binary64) :=
  [("inf", .infinite false), ("+inf", .infinite false), ("-inf", .infinite true),
   ("infinity", .infinite false), ("+infinity", .infinite false), ("-infinity", .infinite true),
   ("nan", .undefined), ("+nan", .undefined), ("-nan", .undefined)]

/-- A floating-point number, given as a word or as a finite numeral. -/
def real? (t : Text) : Option Binary64 :=
  match words.find? fun entry => Text.isWord entry.1 t with
  | some entry => some entry.2
  | none =>
    let read := match t with
      | 0x2b :: t => unsigned? false t
      | 0x2d :: t => unsigned? true t
      | t => unsigned? false t
    read.filter Binary64.isFinite

end Mcs51.Expression.NumberText
