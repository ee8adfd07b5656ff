import Mcs51.Text.LetterCase
import Mcs51.Text.Decimal
import Mcs51.Message
import Mcs51.NameTable

/-!
# Numeric literals

A literal is hexadecimal after `0x`; otherwise a last letter chooses its radix (`b`, `o` or `q`,
`d`, `h`), and without such a letter it is decimal. Letters may be in either case. A value too large
for 63 bits is read as the largest one, so that every bounds check refuses it.
-/

namespace Mcs51

/-- The radix of a literal. -/
inductive Radix where
  | binary
  | octal
  | decimal
  | hexadecimal
  deriving Repr, DecidableEq

namespace Radix

/-- The base of a radix. -/
def base : Radix → Nat
  | .binary => 2
  | .octal => 8
  | .decimal => 10
  | .hexadecimal => 16

/-- All radixes. -/
def all : List Radix := [.binary, .octal, .decimal, .hexadecimal]

def name : Radix → String
  | .binary => "binary"
  | .octal => "octal"
  | .decimal => "decimal"
  | .hexadecimal => "hexadecimal"

/-- The names of the radixes, by base. -/
def table : NameTable := ⟨"Radix", all.map fun radix => (radix.base, radix.name)⟩

/-- The radix that a last letter chooses. -/
def ofSuffix? (b : UInt8) : Option Radix :=
  if b == 'b'.toUInt8 then some .binary
  else if b == 'o'.toUInt8 || b == 'q'.toUInt8 then some .octal
  else if b == 'd'.toUInt8 then some .decimal
  else if b == 'h'.toUInt8 then some .hexadecimal
  else none

end Radix

/-- A literal with no digits, or with one that its radix does not have. -/
structure RadixError where
  text : Text
  radix : Radix
  deriving Repr, DecidableEq

/-- The wording of a malformed literal. -/
def RadixError.message (e : RadixError) : Text :=
  (Message.mk "'%v' is not a valid %v number" [e.text, e.radix.name]).render

namespace Numeral

/-- The text starts like a literal: with a digit. -/
def looksNumeric : Text → Bool
  | [] => false
  | b :: _ => Text.isDigit b

/-- The value of a lower-case digit, letters counting on from ten. -/
def digit? (b : UInt8) : Option Nat :=
  if Text.isDigit b then some (b.toNat - 0x30)
  else if Text.isLower b then some (b.toNat - 0x57)
  else none

/-- The digit exists in the base. -/
def isDigitOf (base : Nat) (b : UInt8) : Bool :=
  match digit? b with
  | some d => d < base
  | none => false

/-- The radix of a literal in lower case, and its digits. -/
def split (lowered : Text) : Radix × Text :=
  match Text.dropPrefix? "0x" lowered with
  | some digits => (.hexadecimal, digits)
  | none =>
    if 1 < lowered.length then
      match lowered.getLast? >>= Radix.ofSuffix? with
      | some radix => (radix, lowered.dropLast)
      | none => (.decimal, lowered)
    else (.decimal, lowered)

/-- The value of a row of digits in a base. -/
def value (base : Nat) (digits : Text) : Nat :=
  digits.foldl (fun n b => n * base + (digit? b).getD 0) 0

/-- The largest value of a literal. -/
def largest : Nat := 9223372036854775807

/-- Reads a literal. -/
def parse (text : Text) : Except RadixError Nat :=
  let (radix, digits) := split (Text.lower text)
  if !digits.isEmpty && digits.all (isDigitOf radix.base) then
    .ok (min (value radix.base digits) largest)
  else .error ⟨text, radix⟩

end Numeral
end Mcs51
