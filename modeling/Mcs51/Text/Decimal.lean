import Mcs51.Text.Basic

/-!
# Integers in text

Writing integers, grouping their digits by three, and reading a signed decimal integer of 64 bits.
-/

namespace Mcs51.Text

/-- The digit of value `d` in lower case, for `d` below 36. -/
def digitByte (d : Nat) : UInt8 := if d < 10 then (0x30 + d).toUInt8 else (0x57 + d).toUInt8

/-- The digits of `n` in a base of at least two, the most significant first, before `rest`. -/
def digitsOnto (base n : Nat) (rest : Text) : Text :=
  if _h : 2 ≤ base ∧ base ≤ n then digitsOnto base (n / base) (digitByte (n % base) :: rest)
  else digitByte n :: rest
termination_by n
decreasing_by exact Nat.div_lt_self (by omega) (by omega)

/-- The digits of `n`, the most significant first. -/
def ofNatBase (base n : Nat) : Text := digitsOnto base n []

/-- The decimal digits of `n`. -/
def ofNat (n : Nat) : Text := ofNatBase 10 n

/-- The decimal form of an integer, with a minus sign if it is negative. -/
def ofInt (n : Int) : Text :=
  if n < 0 then '-'.toUInt8 :: ofNat n.natAbs else ofNat n.natAbs

/-- Puts a comma before each group of three of the digits, counted from the end: `left` digits are
left, this one included. -/
def groupDigits : Nat → Text → Text
  | _, [] => []
  | left, d :: ds =>
    if left % 3 == 1 && 1 < left then d :: ','.toUInt8 :: groupDigits (left - 1) ds
    else d :: groupDigits (left - 1) ds

/-! ## Fixed-width hexadecimal -/

/-- The hexadecimal digit of value `d` in upper case, for `d` below 16. -/
def upperHexDigit (d : Nat) : UInt8 := if d < 10 then (0x30 + d).toUInt8 else (0x37 + d).toUInt8

/-- A byte as two hexadecimal digits in upper case. -/
def ofByteHex (b : UInt8) : Text := [upperHexDigit (b.toNat / 16), upperHexDigit (b.toNat % 16)]

/-- At least `width` hexadecimal digits in upper case. -/
def ofNatUpperHex (width n : Nat) : Text :=
  let digits := (ofNatBase 16 n).map upperByte
  List.replicate (width - digits.length) 0x30 ++ digits

/-! ## Reading -/

/-- The value of a decimal digit. -/
def digitValue (b : UInt8) : Nat := b.toNat - 0x30

/-- The value of a row of digits. -/
def valueOfDigits (digits : Text) : Nat := digits.foldl (fun n b => n * 10 + digitValue b) 0

/-- The largest signed integer of 64 bits. -/
def maxInt64 : Int := 9223372036854775807

/-- The smallest signed integer of 64 bits. -/
def minInt64 : Int := -9223372036854775808

/-- Reads an optional sign and one or more decimal digits, and refuses what does not fit 64 bits. -/
def toInt64? (t : Text) : Option Int :=
  let (negative, digits) := match t with
    | 0x2d :: digits => (true, digits)
    | 0x2b :: digits => (false, digits)
    | digits => (false, digits)
  if digits.isEmpty || !digits.all isDigit then none
  else
    let size : Int := valueOfDigits digits
    let value := if negative then -size else size
    if minInt64 ≤ value && value ≤ maxInt64 then some value else none

end Mcs51.Text
