import Mcs51.Text.Utf8

/-!
# String literals

A literal stands between double quotes on one line. A backslash starts an escape: a control
character by letter, a byte by two hexadecimal or three octal digits, or a code point by four or
eight hexadecimal digits. The single quote has no escape here.
-/

namespace Mcs51.Text

/-- The value of a hexadecimal digit. -/
def hexDigitValue? (b : UInt8) : Option Nat :=
  if isDigit b then some (b.toNat - 0x30)
  else if 0x61 ≤ b && b ≤ 0x66 then some (b.toNat - 0x57)
  else if 0x41 ≤ b && b ≤ 0x46 then some (b.toNat - 0x37)
  else none

/-- The value of a row of hexadecimal digits. -/
def hexValue? (digits : Text) : Option Nat :=
  digits.foldlM (fun n b => (hexDigitValue? b).map (n * 16 + ·)) 0

/-- The code point of a row of hexadecimal digits, if it has an encoding. -/
def hexPoint? (digits : Text) : Option Text := do
  let code ← hexValue? digits
  if isScalar code then some (encodePoint code) else none

/-- The byte of three octal digits. -/
def octalByte? (a b c : UInt8) : Option UInt8 :=
  if [a, b, c].all (fun d => 0x30 ≤ d && d ≤ 0x37) then
    let n := (a.toNat - 0x30) * 64 + (b.toNat - 0x30) * 8 + (c.toNat - 0x30)
    if n ≤ 0xff then some n.toUInt8 else none
  else none

/-- The character that a letter after the backslash stands for. -/
def escapeLetter? (b : UInt8) : Option UInt8 :=
  if b == 'a'.toUInt8 then some 0x07
  else if b == 'b'.toUInt8 then some 0x08
  else if b == 'f'.toUInt8 then some 0x0c
  else if b == 'n'.toUInt8 then some 0x0a
  else if b == 'r'.toUInt8 then some 0x0d
  else if b == 't'.toUInt8 then some 0x09
  else if b == 'v'.toUInt8 then some 0x0b
  else if b == backslash then some backslash
  else if b == doubleQuote then some doubleQuote
  else none

/-- The contents of a literal from the text after its opening quote; the closing quote ends the
text. -/
def literalBody? : Text → Option Text
  | [] => none
  | b :: rest =>
    if b == doubleQuote then (if rest.isEmpty then some [] else none)
    else if b == lineFeed then none
    else if b != backslash then (literalBody? rest).map (b :: ·)
    else match rest with
      | [] => none
      | e :: rest₁ =>
        match escapeLetter? e with
        | some c => (literalBody? rest₁).map (c :: ·)
        | none => match rest₁ with
          | x :: y :: rest₃ =>
            if e == 'x'.toUInt8 then do
              let n ← hexValue? [x, y]
              (literalBody? rest₃).map (n.toUInt8 :: ·)
            else if isDigit e then do
              let c ← octalByte? e x y
              (literalBody? rest₃).map (c :: ·)
            else match rest₃ with
              | z :: w :: rest₅ =>
                if e == 'u'.toUInt8 then do
                  let point ← hexPoint? [x, y, z, w]
                  (literalBody? rest₅).map (point ++ ·)
                else match rest₅ with
                  | p :: q :: r :: s :: rest₉ =>
                    if e == 'U'.toUInt8 then do
                      let point ← hexPoint? [x, y, z, w, p, q, r, s]
                      (literalBody? rest₉).map (point ++ ·)
                    else none
                  | _ => none
              | _ => none
          | _ => none

/-- The contents of a literal with both its quotes; a stray byte in it becomes U+FFFD. -/
def unquote? (t : Text) : Option Text :=
  match scrub t with
  | b :: body => if b == doubleQuote then literalBody? body else none
  | [] => none

end Mcs51.Text
