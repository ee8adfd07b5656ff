import Mcs51.Binary64.Shortest

/-!
# Rounded decimals

A finite number written with a given number of digits. The exact value is rounded once, and from
halfway to the even digit.
-/

namespace Mcs51.Binary64

/-- A magnitude with a number of digits after the point. -/
def fixed (count mantissa : Nat) (exponent : Int) : Text :=
  let num := mantissa * twoTo exponent.toNat * tenTo count
  let digits := Text.ofNat (roundDiv num (twoTo (-exponent).toNat))
  let digits := List.replicate (count + 1 - digits.length) 0x30 ++ digits
  let whole := digits.length - count
  digits.take whole ++ '.'.toUInt8 :: digits.drop whole

/-- A number of significant digits of a magnitude. -/
def rounded (count mantissa : Nat) (exponent : Int) : Digits :=
  if mantissa == 0 then ⟨List.replicate count 0x30, 1⟩
  else
    let point := places mantissa exponent
    let power := point - count
    let num := mantissa * twoTo exponent.toNat * tenTo (-power).toNat
    let n := roundDiv num (twoTo (-exponent).toNat * tenTo power.toNat)
    if n == tenTo count then ⟨Text.ofNat (tenTo (count - 1)), point + 1⟩ else ⟨Text.ofNat n, point⟩

end Mcs51.Binary64
