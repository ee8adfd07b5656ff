import Mcs51.Message.Template
import Mcs51.Text.Quoted

/-!
# Arguments of messages

How an integer or a text stands in a message, by the verb and the flags of its place. A decimal
integer has its digits in groups of three; the other forms of an integer are plain. An argument that
does not fit its verb is shown with the word for its type.
-/

namespace Mcs51

/-- An argument of a message. -/
inductive Arg where
  | text (t : Text)
  | number (n : Int)
  deriving Repr, DecidableEq

instance : Coe Text Arg := ⟨Arg.text⟩
instance : Coe String Arg := ⟨fun s => .text (Text.ofString s)⟩
instance : Coe Int Arg := ⟨Arg.number⟩
instance : Coe Nat Arg := ⟨fun n => .number n⟩

namespace Message

/-- The form that a place asks for. -/
structure Style where
  flags : Flags := {}
  /-- `#` with the verb `v`, which asks for a text in quotes or a number without groups. -/
  literal : Bool := false
  width : Option Nat := none
  precision : Option Nat := none
  deriving Repr, DecidableEq

/-- Where decimal integers are filled up with spaces, and how far. -/
structure Padding where
  width : Nat
  after : Bool
  deriving Repr, DecidableEq

namespace Style

/-- The text filled up to the width of the style with the byte `fill`. -/
def padWith (s : Style) (fill : UInt8) (t : Text) : Text :=
  let extra := List.replicate (s.width.getD 0 - Text.codeCount t) fill
  if s.flags.minus then t ++ extra else extra ++ t

/-- The byte that fills up texts. -/
def fill (s : Style) : UInt8 := if s.flags.zero then '0'.toUInt8 else ' '.toUInt8

/-- The text filled up to the width of the style. -/
def pad (s : Style) (t : Text) : Text := s.padWith s.fill t

/-- The text cut to the precision, which counts characters. -/
def truncate (s : Style) (t : Text) : Text :=
  match s.precision with
  | some n => ((Text.pieces t).take n).flatMap Text.Piece.bytes
  | none => t

/-- The sign of an integer. -/
def sign (s : Style) (n : Int) : Text :=
  if n < 0 then Text.ofString "-"
  else if s.flags.plus then Text.ofString "+"
  else if s.flags.space then Text.ofString " "
  else []

/-! ## Integers -/

/-- At least so many digits, with zeros in front. -/
def zeroFilled (least : Nat) (digits : Text) : Text :=
  List.replicate (least - digits.length) '0'.toUInt8 ++ digits

/-- The mark of a base before the digits: `0` for octal ones that do not start with it, `0x` for
hexadecimal ones. -/
def baseMark (base : Nat) (upper : Bool) (digits : Text) : Text :=
  if base == 8 && digits.head? != some '0'.toUInt8 then Text.ofString "0"
  else if base == 16 then (if upper then Text.ofString "0X" else Text.ofString "0x")
  else []

/-- An integer in a base, without groups. Zero with precision zero has no digits at all. -/
def integer (s : Style) (base : Nat) (upper : Bool) (n : Int) : Text :=
  if s.precision == some 0 && n == 0 then List.replicate (s.width.getD 0) ' '.toUInt8
  else
    let sign := s.sign n
    let least := match s.precision with
      | some least => least
      | none => if s.flags.zero then s.width.getD 0 - sign.length else 0
    let plain := Text.ofNatBase base n.natAbs
    let digits := zeroFilled least (if upper then plain.map Text.upperByte else plain)
    let mark := if s.flags.sharp then baseMark base upper digits else []
    s.padWith ' '.toUInt8 (sign ++ mark ++ digits)

/-- The least number of digits of a decimal integer; it is kept as a byte. -/
def leastDigits (s : Style) : Nat :=
  match s.precision with
  | some least => least % 256
  | none =>
    let width := s.width.getD 0 - (if s.flags.plus || s.flags.space then 1 else 0)
    if s.flags.zero && 1 < width then width % 256 else 1

/-- The padding of a decimal integer after one with the given padding. A style with a precision and
no width keeps that padding. -/
def padding (s : Style) (before : Option Padding) : Option Padding :=
  match s.width, s.precision with
  | some width, _ => some ⟨width % 65536, s.flags.minus⟩
  | none, some _ => before
  | none, none => none

/-- A decimal integer with its digits in groups of three. -/
def decimal (s : Style) (padding : Option Padding) (n : Int) : Text :=
  let digits := zeroFilled s.leastDigits (if n == 0 then [] else Text.ofNat n.natAbs)
  let text := s.sign n ++ Text.groupDigits digits.length digits
  match padding with
  | none => text
  | some p =>
    let extra := List.replicate (p.width - text.length) ' '.toUInt8
    if p.after then text ++ extra else extra ++ text

/-- The code of a character as `U+` and at least four digits, with the character itself if the style
asks for it and it prints. -/
def codePoint (s : Style) (code : Nat) : Text :=
  let least := max 4 (s.precision.getD 0)
  let shown := if s.flags.sharp && code ≤ 0x10ffff && Text.isPrinting code then
    Text.ofString " '" ++ Text.encodePoint code ++ Text.ofString "'" else []
  s.padWith ' '.toUInt8 (Text.ofString "U+" ++ Text.ofNatUpperHex least code ++ shown)

/-- The code points that stand between quotes as they are. -/
def shows (s : Style) : Nat → Bool := if s.flags.plus then Text.isPrintingAscii else Text.isPrinting

/-- The word of 64 bits that holds an integer. -/
def wordOf (n : Int) : Nat := (n % 18446744073709551616).toNat

/-- An integer as the verb asks for it, if the verb fits; `padding` is that of a decimal. -/
def number? (s : Style) (padding : Option Padding) (verb : Char) (n : Int) : Option Text :=
  let code := wordOf n
  match verb with
  | 'v' | 'd' =>
    some (if s.flags.sharp || s.literal then s.integer 10 false n else s.decimal padding n)
  | 'b' => some (s.integer 2 false n)
  | 'o' => some (s.integer 8 false n)
  | 'x' => some (s.integer 16 false n)
  | 'X' => some (s.integer 16 true n)
  | 'c' =>
    some (s.pad (Text.encodePoint (if Text.isScalar code then code else Text.replacement)))
  | 'q' => if code ≤ 0x10ffff then some (s.pad (Text.quotedCharacter s.shows code)) else none
  | 'U' => some (s.codePoint code)
  | 'T' => some (s.pad (s.truncate (Text.ofString "int")))
  | _ => none

/-- The padding that an integer leaves to the next one. -/
def paddingAfter (s : Style) (before : Option Padding) (verb : Char) : Option Padding :=
  if (verb == 'v' || verb == 'd') && !(s.flags.sharp || s.literal) then s.padding before else before

/-! ## Texts -/

/-- A text between quotes. -/
def quote (s : Style) (t : Text) : Text :=
  let t := s.truncate t
  if s.flags.sharp && Text.isRaw t then s.pad (Text.ofString "`" ++ t ++ Text.ofString "`")
  else s.pad (Text.quotedBy s.shows t)

/-- The bytes of a text in hexadecimal, as many as the precision allows. With a space between bytes,
each has the mark of its base. -/
def hexBytes (s : Style) (upper : Bool) (t : Text) : Text :=
  let bytes := (t.take (s.precision.getD t.length)).map fun b =>
    if upper then Text.ofNatUpperHex 2 b.toNat else Text.ofNatHex 2 b.toNat
  let mark : Text :=
    if s.flags.sharp then (if upper then Text.ofString "0X" else Text.ofString "0x") else []
  if bytes.isEmpty then List.replicate (s.width.getD 0) s.fill
  else if s.flags.space then s.pad (Text.joinWith (Text.ofString " ") (bytes.map (mark ++ ·)))
  else s.pad (mark ++ bytes.flatten)

/-- A text as the verb asks for it, if the verb fits. -/
def text? (s : Style) (verb : Char) (t : Text) : Option Text :=
  match verb with
  | 'v' => some (if s.literal then s.quote t else s.pad (s.truncate t))
  | 's' => some (s.pad (s.truncate t))
  | 'x' => some (s.hexBytes false t)
  | 'X' => some (s.hexBytes true t)
  | 'q' => some (s.quote t)
  | 'm' => some t
  | 'T' => some (s.pad (s.truncate (Text.ofString "string")))
  | _ => none

end Style
end Message

namespace Arg

open Message

/-- The word for the type of an argument. -/
def typeName : Arg → Text
  | .text _ => Text.ofString "string"
  | .number _ => Text.ofString "int"

/-- The argument as the verb asks for it, if the verb fits, and the padding that it leaves to the
next decimal integer. -/
def form? (s : Style) (before : Option Padding) (verb : Char) : Arg → Option Text × Option Padding
  | .text t => (s.text? verb t, before)
  | .number n => (s.number? (s.padding before) verb n, s.paddingAfter before verb)

/-- The argument with the word for its type. -/
def labelled (s : Style) (before : Option Padding) (arg : Arg) : Text × Option Padding :=
  let (form, padding) := arg.form? s before 'v'
  (arg.typeName ++ Text.ofString "=" ++ form.getD [], padding)

/-- The argument in a place with the given verb. -/
def form (s : Style) (before : Option Padding) (verb : Nat) (arg : Arg) : Text × Option Padding :=
  match arg.form? s before (Char.ofNat verb) with
  | (some t, padding) => (t, padding)
  | (none, _) =>
    let (label, padding) := arg.labelled s before
    (Text.ofString "%!" ++ Text.encodePoint verb ++ Text.ofString "(" ++ label ++ Text.ofString ")",
      padding)

end Arg
end Mcs51
