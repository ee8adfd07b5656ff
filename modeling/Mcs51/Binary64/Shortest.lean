import Mcs51.Binary64
import Mcs51.Text.Decimal

/-!
# Shortest decimals

A finite number is written with the fewest digits that read back as it, and of those decimals the
nearest. The reals that read back as a number are those up to halfway to its neighbours; halfway
itself counts if the mantissa is even, since reading rounds to even.
-/

namespace Mcs51.Binary64

/-- The digits of a positive decimal fraction `0.d₁d₂…`, and the power of ten it is scaled by. -/
structure Digits where
  digits : Text
  point : Int
  deriving Repr, DecidableEq

/-- Compares `a * 10 ^ power` with `b * 2 ^ exponent`. -/
def compareDecimal (a : Nat) (power : Int) (b : Nat) (exponent : Int) : Ordering :=
  compare (a * tenTo power.toNat * twoTo (-exponent).toNat)
    (b * twoTo exponent.toNat * tenTo (-power).toNat)

/-- The decimal `candidate * 10 ^ power` reads back as `mantissa * 2 ^ exponent`. Below the first
number of a new exponent the neighbour is half as far away. -/
def readsBack (mantissa : Nat) (exponent : Int) (candidate : Nat) (power : Int) : Bool :=
  let isFirst := mantissa == twoTo (precision - 1) && leastExponent < exponent
  let low := 4 * mantissa - (if isFirst then 1 else 2)
  let high := 4 * mantissa + 2
  let above := compareDecimal candidate power low (exponent - 2)
  let below := compareDecimal candidate power high (exponent - 2)
  if mantissa % 2 == 0 then above.isGE && below.isLE else above.isGT && below.isLT

/-- The quotient and the remainder's sign of `mantissa * 2 ^ exponent / 10 ^ power`: the decimal
below, and which of it and the next is nearer. -/
def floorAt (mantissa : Nat) (exponent : Int) (power : Int) : Nat × Ordering :=
  let num := mantissa * twoTo exponent.toNat * tenTo (-power).toNat
  let den := twoTo (-exponent).toNat * tenTo power.toNat
  (num / den, compare (2 * (num % den)) den)

/-- The decimal on the grid of `10 ^ power` that reads back as the number, the nearer one of two. -/
def onGrid? (mantissa : Nat) (exponent : Int) (power : Int) : Option Nat :=
  let (below, nearer) := floorAt mantissa exponent power
  let fitsBelow := readsBack mantissa exponent below power
  let fitsAbove := readsBack mantissa exponent (below + 1) power
  if fitsBelow && (!fitsAbove || nearer.isLT || (nearer.isEq && below % 2 == 0)) then some below
  else if fitsAbove then some (below + 1)
  else none

/-- The number of decimal places to the left of the point of a positive number. -/
def places (mantissa : Nat) (exponent : Int) : Int :=
  let num := mantissa * twoTo exponent.toNat
  let den := twoTo (-exponent).toNat
  let guess : Int := (Text.ofNat num).length - (Text.ofNat den).length
  if compareDecimal 1 guess mantissa exponent == .gt then guess else guess + 1

/-- The most digits that a number needs. -/
def maxDigits : Nat := 17

/-- The first decimal that reads back, from the coarsest of `left` grids to the finest. -/
def search (mantissa : Nat) (exponent : Int) (point : Int) : Nat → Nat × Int
  | 0 => ((floorAt mantissa exponent (point - maxDigits)).1, point - maxDigits)
  | left + 1 =>
    let power := point - (maxDigits - left : Nat)
    match onGrid? mantissa exponent power with
    | some n => (n, power)
    | none => search mantissa exponent point left

/-- The digits without the zeros at their end. -/
def dropZeros (digits : Text) : Text := (digits.reverse.dropWhile (· == 0x30)).reverse

/-- The shortest digits of a positive number. -/
def shortest (mantissa : Nat) (exponent : Int) : Digits :=
  let (n, power) := search mantissa exponent (places mantissa exponent) maxDigits
  let digits := Text.ofNat n
  ⟨dropZeros digits, power + digits.length⟩

/-! ## Text -/

/-- Digits with the point among them. -/
def positional (d : Digits) : Text :=
  if d.point ≤ 0 then
    Text.ofString "0." ++ List.replicate (-d.point).toNat 0x30 ++ d.digits
  else
    let whole := d.digits.take d.point.toNat
    let fraction := d.digits.drop d.point.toNat
    whole ++ List.replicate (d.point.toNat - whole.length) 0x30
      ++ (if fraction.isEmpty then [] else '.'.toUInt8 :: fraction)

/-- Digits with the point after the first, and a power of ten of at least two digits. -/
def scientific (d : Digits) : Text :=
  let power := d.point - 1
  let size := Text.ofNat power.natAbs
  d.digits.take 1
    ++ (if (d.digits.drop 1).isEmpty then [] else '.'.toUInt8 :: d.digits.drop 1)
    ++ (if power < 0 then Text.ofString "e-" else Text.ofString "e+")
    ++ List.replicate (2 - size.length) 0x30 ++ size

/-- The text of a number: positional from a ten-thousandth up to a million, else with a power of
ten. -/
def text : Binary64 → Text
  | .undefined => Text.ofString "NaN"
  | .infinite negative => if negative then Text.ofString "-Inf" else Text.ofString "+Inf"
  | .finite negative mantissa exponent =>
    (if negative then ['-'.toUInt8] else []) ++
      if mantissa == 0 then Text.ofString "0"
      else
        let d := shortest mantissa exponent
        if d.point - 1 < -4 || 6 ≤ d.point - 1 then scientific d else positional d

end Mcs51.Binary64
