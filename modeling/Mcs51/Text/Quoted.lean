import Mcs51.Text.Decimal
import Mcs51.Text.Graphic
import Mcs51.Text.Utf8

/-!
# Quoted text

How a message shows a text or a single character that someone gave: between quotes, with a backslash
before quotes and backslashes, and with escapes for all that does not print.
-/

namespace Mcs51.Text

/-- At least `width` hexadecimal digits in lower case. -/
def ofNatHex (width n : Nat) : Text :=
  let digits := ofNatBase 16 n
  List.replicate (width - digits.length) 0x30 ++ digits

/-- The letter after the backslash for a control character. -/
def controlLetter? (code : Nat) : Option UInt8 :=
  ([(0x07, 'a'), (0x08, 'b'), (0x0c, 'f'), (0x0a, 'n'), (0x0d, 'r'), (0x09, 't'),
    (0x0b, 'v')].lookup code).map Char.toUInt8

/-- A code point between quotes of the given kind; `shows` tells which code points stand as they
are. -/
def quotedPoint (shows : Nat → Bool) (quote : UInt8) (code : Nat) : Text :=
  if code == quote.toNat || code == 0x5c then [backslash, code.toUInt8]
  else if shows code then encodePoint code
  else match controlLetter? code with
    | some letter => [backslash, letter]
    | none =>
      if code < 0x20 || code == 0x7f then ofString "\\x" ++ ofNatHex 2 code
      else if code < 0x10000 then ofString "\\u" ++ ofNatHex 4 code
      else ofString "\\U" ++ ofNatHex 8 code

/-- A piece between quotes of the given kind. -/
def quotedPiece (shows : Nat → Bool) (quote : UInt8) : Piece → Text
  | .point code => quotedPoint shows quote code
  | .stray byte => ofString "\\x" ++ ofNatHex 2 byte.toNat

/-- A text between double quotes with the given choice of code points that stand as they are. -/
def quotedBy (shows : Nat → Bool) (t : Text) : Text :=
  doubleQuote :: (pieces t).flatMap (quotedPiece shows doubleQuote) ++ [doubleQuote]

/-- A text between double quotes. -/
def quoted (t : Text) : Text := quotedBy isPrinting t

/-- A character between single quotes; a surrogate counts as U+FFFD. -/
def quotedCharacter (shows : Nat → Bool) (code : Nat) : Text :=
  singleQuote :: quotedPoint shows singleQuote (if isScalar code then code else replacement)
    ++ [singleQuote]

/-- A character between single quotes, given by a byte that is its code. -/
def quotedByte (b : UInt8) : Text := quotedCharacter isPrinting b.toNat

/-- The ASCII characters that print. -/
def isPrintingAscii (code : Nat) : Bool := code < 0x80 && isPrinting code

/-- The text can stand between backquotes as it is: it has no backquote, no stray byte, no byte
order mark, and no control character but the tab. -/
def isRaw (t : Text) : Bool := (pieces t).all fun
  | .stray _ => false
  | .point code =>
    code != 0xfeff && code != 0x60 && code != 0x7f && (0x20 ≤ code || code == 0x09)

end Mcs51.Text
