import Mcs51.Text.Blank
import Mcs51.Text.Decimal
import Mcs51.Text.Quoting

/-!
# Character literals

Between single quotes stands one character, perhaps after a backslash, and the literal is the number
of its code. Only ASCII characters and stray bytes have a code; the literal of any other character,
and an escape without a meaning, stays as it is.
-/

namespace Mcs51.Source

open Text (Piece)

def quotePiece : Piece := .point 0x27

/-- The code of the character that stands after a backslash. -/
def escapeCode? (letter : Nat) : Option Nat :=
  if letter == '\\'.toNat then some 0x5c
  else if letter == 'n'.toNat then some 0x0a
  else if letter == 'r'.toNat then some 0x0d
  else if letter == 't'.toNat then some 0x09
  else if letter == '0'.toNat then some 0x00
  else if letter == 'e'.toNat then some 0x1b
  else none

/-- The code of a character that stands alone. A backslash has none. -/
def characterCode? : Piece → Option Nat
  | .point code => if code < 0x80 && code != 0x5c then some code else none
  | .stray byte => some byte.toNat

/-- The code of a character after a backslash. -/
def escapedCode? : Piece → Option Nat
  | .point letter => escapeCode? letter
  | .stray _ => none

/-- The number for a code, or the literal itself without one. -/
def literalText (code? : Option Nat) (inner : List Piece) : Text :=
  match code? with
  | some code => Text.ofNat code
  | none => Text.ofPieces (quotePiece :: inner ++ [quotePiece])

/-- What stands for the literal whose opening quote is before a row of pieces, and how many of them
belong to it. -/
def literal? (row : List Piece) : Option (Text × Nat) :=
  let plain := match row with
    | c :: close :: _ =>
      if c != quotePiece && close == quotePiece then some (literalText (characterCode? c) [c], 2)
      else none
    | _ => none
  match row with
  | escape :: c :: close :: _ =>
    if escape == .point 0x5c && c != quotePiece && close == quotePiece then
      some (literalText (escapedCode? c) [escape, c], 3)
    else plain
  | _ => plain

/-- Replaces the literals in a row of pieces, the first `skip` of which are already read. -/
def replaceLiteralsFrom : Nat → List Piece → Text
  | _, [] => []
  | skip + 1, _ :: row => replaceLiteralsFrom skip row
  | 0, p :: row =>
    match (if p == quotePiece then literal? row else none) with
    | some (text, size) => text ++ replaceLiteralsFrom size row
    | none => p.bytes ++ replaceLiteralsFrom 0 row

/-- Replaces the character literals of a text. -/
def replaceLiterals (t : Text) : Text := replaceLiteralsFrom 0 (Text.pieces t)

end Mcs51.Source
