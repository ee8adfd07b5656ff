import Mcs51.Text.Utf8

/-!
# White space

The code points of Unicode's `White_Space` property, and the two operations that know them: cutting
them off both ends of a text, and splitting a text into its words.
-/

namespace Mcs51.Text

/-- The code points with the `White_Space` property. -/
def isBlankPoint (code : Nat) : Bool :=
  (0x09 ≤ code && code ≤ 0x0d) || code == 0x20 || code == 0x85 || code == 0xa0 || code == 0x1680
    || (0x2000 ≤ code && code ≤ 0x200a) || code == 0x2028 || code == 0x2029 || code == 0x202f
    || code == 0x205f || code == 0x3000

/-- A white space code point; a stray byte is none. -/
def Piece.isBlank : Piece → Bool
  | .point code => isBlankPoint code
  | .stray _ => false

/-- The bytes of a row of pieces. -/
def ofPieces (ps : List Piece) : Text := ps.flatMap Piece.bytes

/-- The text without the white space at both ends. -/
def trim (t : Text) : Text :=
  ofPieces (((pieces t).dropWhile Piece.isBlank).reverse.dropWhile Piece.isBlank).reverse

/-- `wordsOf` with the open word `word`, last piece first. -/
def wordsFrom : List Piece → List Piece → List Text
  | word, [] => if word.isEmpty then [] else [ofPieces word.reverse]
  | word, p :: ps =>
    if p.isBlank then
      (if word.isEmpty then [] else [ofPieces word.reverse]) ++ wordsFrom [] ps
    else wordsFrom (p :: word) ps

/-- The words of a text: its longest parts without white space. -/
def wordsOf (t : Text) : List Text := wordsFrom [] (pieces t)

/-- The text without any white space. -/
def squeeze (t : Text) : Text := (wordsOf t).flatten

end Mcs51.Text
