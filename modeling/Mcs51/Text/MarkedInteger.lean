import Mcs51.Text.Decimal

/-!
# Integers with a base mark

A signed integer of 64 bits in the base its mark tells: `0x`, `0o` or `0b`, a zero alone for octal,
and decimal without a mark. Single underscores may stand between digits and after the mark.
-/

namespace Mcs51.Text

/-- Why a text is not such an integer. -/
inductive IntegerError where
  | malformed
  | outOfRange
  deriving Repr, DecidableEq

/-- The base of an integer without sign, its digits, and the mark in front of them. -/
structure MarkedDigits where
  base : Nat
  mark : Text
  digits : Text

/-- Splits the mark from the digits. A mark has at least one byte after it. -/
def splitMark (t : Text) : MarkedDigits :=
  match t with
  | 0x30 :: b :: c :: rest =>
    let letter := lowerByte b
    if letter == 'x'.toUInt8 then ⟨16, [0x30, b], c :: rest⟩
    else if letter == 'o'.toUInt8 then ⟨8, [0x30, b], c :: rest⟩
    else if letter == 'b'.toUInt8 then ⟨2, [0x30, b], c :: rest⟩
    else ⟨8, [0x30], b :: c :: rest⟩
  | 0x30 :: rest => ⟨8, [0x30], rest⟩
  | t => ⟨10, [], t⟩

/-- The value of a digit, letters of either case counting on from ten. -/
def letterDigit? (b : UInt8) : Option Nat :=
  if isDigit b then some (b.toNat - 0x30)
  else if isLower (lowerByte b) then some ((lowerByte b).toNat - 0x57)
  else none

def underscore : UInt8 := 0x5f

/-- The largest unsigned integer of 64 bits. -/
def maxUInt64 : Nat := 18446744073709551615

/-- The value of digits, underscores passed over, that continue `n`. The first digit that is none of
the base or makes the value too large decides the error. -/
def markedValue (base : Nat) : Nat → Text → Except IntegerError Nat
  | n, [] => .ok n
  | n, b :: rest =>
    if b == underscore then markedValue base n rest
    else match letterDigit? b with
      | none => .error .malformed
      | some d =>
        if base ≤ d then .error .malformed
        else if maxUInt64 < n * base + d then .error .outOfRange
        else markedValue base (n * base + d) rest

/-- Each underscore stands after a digit and before one; `afterDigit` says whether a digit, or a
mark, is in front. -/
def underscoresSeparate : Bool → Text → Bool
  | afterDigit, [] => afterDigit
  | afterDigit, b :: rest =>
    if b == underscore then afterDigit && underscoresSeparate false rest
    else underscoresSeparate true rest

/-- The value of an integer without sign. -/
def toMarkedNat (t : Text) : Except IntegerError Nat :=
  if t.isEmpty then .error .malformed
  else do
    let marked := splitMark t
    let n ← markedValue marked.base 0 marked.digits
    if marked.digits.contains underscore
        && !underscoresSeparate (!marked.mark.isEmpty) marked.digits then
      throw .malformed
    return n

/-- Reads an integer. -/
def toMarkedInt (t : Text) : Except IntegerError Int := do
  let (negative, digits) := match t with
    | 0x2d :: digits => (true, digits)
    | 0x2b :: digits => (false, digits)
    | digits => (false, digits)
  let size : Int ← toMarkedNat digits
  let value := if negative then -size else size
  if minInt64 ≤ value && value ≤ maxInt64 then return value
  throw .outOfRange

end Mcs51.Text
