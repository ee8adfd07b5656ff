/-!
# Binary floating point

Numbers of 53 significant bits, kept as an integer times a power of two, so that each operation is
the exact result rounded once: to the nearest number, and from halfway to the one whose last bit is
zero. A result too large to round is infinite.
-/

namespace Mcs51

/-- A floating-point number: a magnitude `mantissa * 2 ^ exponent` with a sign, an infinity, or the
value of an operation that has none. A finite magnitude has a mantissa below `2 ^ 53` and an
exponent of at least -1074, and its mantissa is at least `2 ^ 52` unless the exponent is -1074. -/
inductive Binary64 where
  | finite (negative : Bool) (mantissa : Nat) (exponent : Int)
  | infinite (negative : Bool)
  | undefined
  deriving Repr, DecidableEq

namespace Binary64

/-- The number of bits of a full mantissa. -/
def precision : Nat := 53

/-- The exponent of the numbers nearest to zero. -/
def leastExponent : Int := -1074

/-- The exponent of the largest finite numbers. -/
def greatestExponent : Int := 971

/-- A power of two. -/
def twoTo (n : Nat) : Nat := Nat.pow 2 n

/-- A power of ten. -/
def tenTo (n : Nat) : Nat := Nat.pow 10 n

/-- Zero with a sign. -/
def zero (negative : Bool) : Binary64 := .finite negative 0 leastExponent

/-! ## Rounding -/

/-- The integer nearest to `num / den`, the even one of two that are equally near. -/
def roundDiv (num den : Nat) : Nat :=
  let quotient := num / den
  let twice := 2 * (num % den)
  if twice < den then quotient
  else if den < twice then quotient + 1
  else quotient + quotient % 2

/-- Numerator and denominator of `num / den / 2 ^ exponent`. -/
def scaled (num den : Nat) (exponent : Int) : Nat × Nat :=
  if 0 ≤ exponent then (num, den * twoTo exponent.toNat) else (num * twoTo (-exponent).toNat, den)

/-- The exponent at which `num / den`, if positive, has a full mantissa. -/
def fittingExponent (num den : Nat) : Int :=
  let guess : Int := (num.log2 : Int) - den.log2 - (precision - 1 : Nat)
  let (top, bottom) := scaled num den guess
  if top < bottom * twoTo (precision - 1) then guess - 1 else guess

/-- The number nearest to `num / den`, for a positive `den`. -/
def ofRatio (negative : Bool) (num den : Nat) : Binary64 :=
  if num == 0 then zero negative
  else
    let exponent := max (fittingExponent num den) leastExponent
    let (top, bottom) := scaled num den exponent
    let rounded := roundDiv top bottom
    let (mantissa, exponent) :=
      if rounded == twoTo precision then (twoTo (precision - 1), exponent + 1)
      else (rounded, exponent)
    if greatestExponent < exponent then .infinite negative else .finite negative mantissa exponent

/-- The number nearest to `digits * 10 ^ power`. A power beyond the range of the numbers is settled
without being computed. -/
def ofDecimal (negative : Bool) (digits : Nat) (power : Int) : Binary64 :=
  if digits == 0 || power < -400 - (digits.log2 : Int) then zero negative
  else if 400 < power then .infinite negative
  else if 0 ≤ power then ofRatio negative (digits * tenTo power.toNat) 1
  else ofRatio negative digits (tenTo (-power).toNat)

/-- The number nearest to an integer. -/
def ofInt (n : Int) : Binary64 := ofRatio (n < 0) n.natAbs 1

/-! ## Exact values -/

/-- A number as a fraction, with its sign at the numerator. -/
def fraction (mantissa : Nat) (negative : Bool) (exponent : Int) : Int × Nat :=
  let signed : Int := if negative then -mantissa else mantissa
  if 0 ≤ exponent then (signed * twoTo exponent.toNat, 1) else (signed, twoTo (-exponent).toNat)

/-- The exact value of a finite number. -/
def value? : Binary64 → Option (Int × Nat)
  | .finite negative mantissa exponent => some (fraction mantissa negative exponent)
  | _ => none

/-- The number nearest to a fraction; a zero takes the given sign. -/
def ofFraction (negativeZero : Bool) (num : Int) (den : Nat) : Binary64 :=
  if num == 0 then zero negativeZero else ofRatio (num < 0) num.natAbs den

def isFinite : Binary64 → Bool
  | .finite .. => true
  | _ => false

def isZero : Binary64 → Bool
  | .finite _ mantissa _ => mantissa == 0
  | _ => false

/-- The sign bit; an undefined value has none. -/
def isNegative : Binary64 → Bool
  | .finite negative .. => negative
  | .infinite negative => negative
  | .undefined => false

/-- Less than zero: a zero with a minus sign is not. -/
def isBelowZero (x : Binary64) : Bool := x.isNegative && !x.isZero

/-! ## Arithmetic -/

def neg : Binary64 → Binary64
  | .finite negative mantissa exponent => .finite (!negative) mantissa exponent
  | .infinite negative => .infinite (!negative)
  | .undefined => .undefined

def abs : Binary64 → Binary64
  | .finite _ mantissa exponent => .finite false mantissa exponent
  | .infinite _ => .infinite false
  | .undefined => .undefined

def add (x y : Binary64) : Binary64 :=
  match x.value?, y.value? with
  | some (a, b), some (c, d) =>
    ofFraction (x.isNegative && y.isNegative) (a * d + c * b) (b * d)
  | _, _ => match x, y with
    | .undefined, _ => .undefined
    | _, .undefined => .undefined
    | .infinite s, .infinite t => if s == t then .infinite s else .undefined
    | .infinite s, _ => .infinite s
    | _, y => y

def sub (x y : Binary64) : Binary64 := add x y.neg

def mul (x y : Binary64) : Binary64 :=
  let negative := x.isNegative != y.isNegative
  match x.value?, y.value? with
  | some (a, b), some (c, d) => ofFraction negative (a * c) (b * d)
  | _, _ =>
    if x = .undefined || y = .undefined || x.isZero || y.isZero then .undefined
    else .infinite negative

/-- The quotient by a number other than zero. -/
def div (x y : Binary64) : Binary64 :=
  let negative := x.isNegative != y.isNegative
  match x.value?, y.value? with
  | some (a, b), some (c, d) => ofFraction negative (a * d * c.sign) (b * c.natAbs)
  | some _, none => if y = .undefined then .undefined else zero negative
  | none, some _ => if x = .undefined then .undefined else .infinite negative
  | none, none => .undefined

/-- The largest integral number that is not above `x`. -/
def floor (x : Binary64) : Binary64 :=
  match x.value? with
  | some (num, den) => ofFraction x.isNegative (Int.fdiv num den) 1
  | none => x

/-- The remainder that has the sign of the divisor, which is not zero. -/
def floorMod (x y : Binary64) : Binary64 :=
  match x.value?, y.value? with
  | some (a, b), some (c, d) =>
    let rest := ofFraction x.isNegative (Int.tmod (a * d) (c * b)) (b * d)
    if x.isBelowZero != y.isBelowZero && !rest.isZero then rest.add y else rest
  | some _, none =>
    if y = .undefined then .undefined
    else if x.isBelowZero != y.isBelowZero && !x.isZero then x.add y else x
  | none, _ => .undefined

/-- The integer part of a finite number. -/
def truncate? (x : Binary64) : Option Int := x.value?.map fun (num, den) => Int.tdiv num den

/-! ## Order -/

/-- The order of numbers: an undefined value is above all others and equal to itself. -/
def order (x y : Binary64) : Ordering :=
  let rank : Binary64 → Int
    | .infinite true => -1
    | .finite .. => 0
    | .infinite false => 1
    | .undefined => 2
  match x.value?, y.value? with
  | some (a, b), some (c, d) => compare (a * d) (c * b)
  | _, _ => compare (rank x) (rank y)

/-- The order of an integer and a number, without rounding the integer. -/
def orderInt (n : Int) (y : Binary64) : Ordering :=
  match y with
  | .finite negative mantissa exponent =>
    let (num, den) := fraction mantissa negative exponent
    compare (n * den) num
  | .infinite negative => if negative then .gt else .lt
  | .undefined => .lt

end Binary64
end Mcs51
