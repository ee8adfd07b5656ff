import Mcs51.Text.Basic

/-!
# Code points in byte text

A text is read as a row of pieces: a code point that is correctly encoded, or a stray byte that
belongs to no correct encoding. Pieces keep all bytes, so the text is their concatenation. Over-long
forms, surrogates and values past U+10FFFF are not correct encodings; of such a sequence each byte
is stray.
-/

namespace Mcs51.Text

/-- One step of reading: a code point, or a byte outside every correct encoding. -/
inductive Piece where
  | point (code : Nat)
  | stray (byte : UInt8)
  deriving Repr, DecidableEq

/-! ## Encoding -/

/-- The UTF-8 bytes of a code point. -/
def encodePoint (code : Nat) : Text :=
  if code < 0x80 then [code.toUInt8]
  else if code < 0x800 then
    [(0xc0 + code / 0x40).toUInt8, (0x80 + code % 0x40).toUInt8]
  else if code < 0x10000 then
    [(0xe0 + code / 0x1000).toUInt8, (0x80 + code / 0x40 % 0x40).toUInt8,
      (0x80 + code % 0x40).toUInt8]
  else
    [(0xf0 + code / 0x40000).toUInt8, (0x80 + code / 0x1000 % 0x40).toUInt8,
      (0x80 + code / 0x40 % 0x40).toUInt8, (0x80 + code % 0x40).toUInt8]

/-- The code point that stands for a byte without meaning. -/
def replacement : Nat := 0xfffd

/-- A code point that has an encoding: no surrogate and not past U+10FFFF. -/
def isScalar (code : Nat) : Bool := code < 0xd800 || (0xdfff < code && code ≤ 0x10ffff)

/-- The bytes a piece was read from. -/
def Piece.bytes : Piece → Text
  | .point code => encodePoint code
  | .stray byte => [byte]

/-- The code point a piece counts as. -/
def Piece.code : Piece → Nat
  | .point code => code
  | .stray _ => replacement

/-! ## Decoding -/

/-- A continuation byte. -/
def isTail (b : UInt8) : Bool := 0x80 ≤ b && b ≤ 0xbf

/-- The six bits a continuation byte carries. -/
def tailBits (b : UInt8) : Nat := b.toNat % 0x40

/-- A correct two-byte encoding. -/
def pair? (a b : UInt8) : Option Nat :=
  if 0xc2 ≤ a && a ≤ 0xdf && isTail b then some (a.toNat % 0x20 * 0x40 + tailBits b) else none

/-- A correct three-byte encoding: not over-long and no surrogate. -/
def triple? (a b c : UInt8) : Option Nat :=
  let code := a.toNat % 0x10 * 0x1000 + tailBits b * 0x40 + tailBits c
  if 0xe0 ≤ a && a ≤ 0xef && isTail b && isTail c && 0x800 ≤ code && isScalar code then some code
  else none

/-- A correct four-byte encoding: not over-long and not past U+10FFFF. -/
def quad? (a b c d : UInt8) : Option Nat :=
  let code := a.toNat % 8 * 0x40000 + tailBits b * 0x1000 + tailBits c * 0x40 + tailBits d
  if 0xf0 ≤ a && a ≤ 0xf4 && isTail b && isTail c && isTail d && 0x10000 ≤ code
      && isScalar code then
    some code
  else none

/-- The piece that starts with byte `a` when `rest` follows, and how many bytes of `rest` it covers.
-/
def leading (a : UInt8) (rest : Text) : Piece × Nat :=
  if a < 0x80 then (.point a.toNat, 0)
  else match rest with
    | [] => (.stray a, 0)
    | b :: rest₁ =>
      match pair? a b with
      | some code => (.point code, 1)
      | none => match rest₁ with
        | [] => (.stray a, 0)
        | c :: rest₂ =>
          match triple? a b c with
          | some code => (.point code, 2)
          | none => match rest₂ with
            | [] => (.stray a, 0)
            | d :: _ =>
              match quad? a b c d with
              | some code => (.point code, 3)
              | none => (.stray a, 0)

/-- The pieces of a text whose first `covered` bytes belong to a piece already read. -/
def piecesFrom : Nat → Text → List Piece
  | _, [] => []
  | 0, a :: rest => (leading a rest).1 :: piecesFrom (leading a rest).2 rest
  | covered + 1, _ :: rest => piecesFrom covered rest

/-- The pieces of a text. -/
def pieces (t : Text) : List Piece := piecesFrom 0 t

/-- The text of a row of code points. -/
def encode (codes : List Nat) : Text := codes.flatMap encodePoint

/-- The code points of a text, each stray byte counted as U+FFFD. -/
def codes (t : Text) : List Nat := (pieces t).map Piece.code

/-- The number of code points, each stray byte counted as one. -/
def codeCount (t : Text) : Nat := (pieces t).length

/-- The text with each stray byte replaced by U+FFFD. -/
def scrub (t : Text) : Text := encode (codes t)

/-- The text has no stray byte. -/
def isValid (t : Text) : Bool := (pieces t).all fun
  | .point _ => true
  | .stray _ => false

end Mcs51.Text
