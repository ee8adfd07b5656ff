import Mcs51.Text.Blank
import Mcs51.Text.Letter
import Mcs51.Text.LetterCase

/-!
# Parts of texts

Where a text occurs in another, and the parts it divides it into. Places are counted in bytes.
Letters and white space are those of the code points of a text.
-/

namespace Mcs51.Expression.TextSearch

/-! ## Places -/

/-- The first place from `i` on where a text starts with `part`. -/
def findFrom (part : Text) : Nat → Text → Option Nat
  | i, [] => if part.isEmpty then some i else none
  | i, b :: rest => if Text.beginsWith part (b :: rest) then some i else findFrom part (i + 1) rest

/-- The first place of `part` in a text. -/
def find? (part t : Text) : Option Nat := findFrom part 0 t

/-- The last place of `part` in a text. -/
def findLast? (part t : Text) : Option Nat :=
  (find? part.reverse t.reverse).map fun i => t.length - part.length - i

/-- A text ends with `part`. -/
def endsWith (part t : Text) : Bool := Text.beginsWith part.reverse t.reverse

/-- The parts of a text between the places of `sep`, which is not empty. At most `limit` places
count. The part before the next byte is kept backwards, and as many bytes as `skip` says belong to
the last place. -/
def splitFrom (sep : Text) : Nat → Text → Nat → Text → List Text
  | _, part, _, [] => [part.reverse]
  | limit, part, skip + 1, _ :: rest => splitFrom sep limit part skip rest
  | limit, part, 0, b :: rest => match limit with
    | 0 => [part.reverse ++ b :: rest]
    | limit + 1 =>
      if Text.beginsWith sep (b :: rest) then
        part.reverse :: splitFrom sep limit [] (sep.length - 1) rest
      else splitFrom sep (limit + 1) (b :: part) 0 rest

/-- The parts of a text between the first `limit` places of `sep`, which is not empty. -/
def splitFirst (limit : Nat) (sep t : Text) : List Text := splitFrom sep limit [] 0 t

/-- The parts of a text between the places of `sep`, which is not empty. -/
def split (sep t : Text) : List Text := splitFirst t.length sep t

/-- The parts of a text between the last `limit` places of `sep` at which `split` divides it. -/
def splitLast (limit : Nat) (sep t : Text) : List Text :=
  let parts := split sep t
  let excess := parts.length - limit
  if excess < 2 then parts
  else Text.joinWith sep (parts.take excess) :: parts.drop excess

/-- The number of places of `part` in a text that do not overlap. The empty text has a place before
each character and at the end. -/
def count (part t : Text) : Nat :=
  if part.isEmpty then Text.codeCount t + 1 else (split part t).length - 1

/-- The text with `new` before each of its first `limit` characters, or at the end. -/
def interleave (new : Text) : Nat → List Text.Piece → Text
  | 0, pieces => Text.ofPieces pieces
  | _ + 1, [] => new
  | limit + 1, piece :: rest => new ++ piece.bytes ++ interleave new limit rest

/-- The text with the first `limit` places of `old` replaced by `new`. -/
def replace (old new : Text) (limit : Nat) (t : Text) : Text :=
  if old.isEmpty then interleave new limit (Text.pieces t)
  else Text.joinWith new (splitFirst limit old t)

/-! ## Words -/

/-- The first `limit` words of pieces between white space, and then all that is left from the next
word on, each restored to its order. -/
def wordsWithin (restore : List Text.Piece → List Text.Piece) :
    Nat → Nat → List Text.Piece → List Text
  | 0, _, _ => []
  | fuel + 1, limit, pieces =>
    let pieces := pieces.dropWhile Text.Piece.isBlank
    if pieces.isEmpty then []
    else match limit with
      | 0 => [Text.ofPieces (restore pieces)]
      | limit + 1 =>
        let word := pieces.takeWhile (!·.isBlank)
        Text.ofPieces (restore word)
          :: wordsWithin restore fuel limit (pieces.drop word.length)

/-- The first `limit` words between white space, and then all that is left from the next word on. -/
def wordsFirst (limit : Nat) (t : Text) : List Text :=
  wordsWithin id (t.length + 1) limit (Text.pieces t)

/-- The last `limit` words between white space, after all that is left up to the word before. -/
def wordsLast (limit : Nat) (t : Text) : List Text :=
  (wordsWithin List.reverse (t.length + 1) limit (Text.pieces t).reverse).reverse

/-! ## Ends -/

/-- The pieces that are cut off at the ends of a text. -/
def isCut (chars : Text) (piece : Text.Piece) : Bool :=
  if chars.isEmpty then piece.isBlank else (Text.codes chars).contains piece.code

/-- A text without what is cut off at its start. -/
def cutStart (chars t : Text) : Text := Text.ofPieces ((Text.pieces t).dropWhile (isCut chars))

/-- A text without what is cut off at its end. -/
def cutEnd (chars t : Text) : Text :=
  Text.ofPieces ((Text.pieces t).reverse.dropWhile (isCut chars)).reverse

/-- The lines of a text; a line feed at the end starts none. -/
def lines (keepEnds : Bool) (t : Text) : List Text :=
  let parts := Text.splitOn Text.lineFeed t
  let whole := parts.dropLast
  let last := (parts.getLast?).getD []
  (if keepEnds then whole.map (· ++ [Text.lineFeed]) else whole)
    ++ (if last.isEmpty then [] else [last])

/-! ## Letters -/

/-- Every code point of a text, which is not empty, is of a kind. -/
def isAll (kind : Nat → Bool) (t : Text) : Bool := !t.isEmpty && (Text.codes t).all kind

def isLetterOrDigit (code : Nat) : Bool := Text.isLetter code || Text.isDecimalDigit code

/-- The text has a letter with a case and is its own image. -/
def isImage (image : Text → Text) (t : Text) : Bool :=
  (Text.codes t).any Text.isCased && image t == t

/-- The words of the code points have one capital, which is their first letter. -/
def isTitleFrom (seen afterCased : Bool) : List Nat → Bool
  | [] => seen
  | code :: rest =>
    if (0x41 ≤ code && code ≤ 0x5a) || Text.titleRows.contains code then
      !afterCased && isTitleFrom true true rest
    else if Text.isSmall code then afterCased && isTitleFrom true true rest
    else if Text.isCapital code then false
    else isTitleFrom seen false rest

def isTitle (t : Text) : Bool := isTitleFrom false false (Text.codes t)

/-- The first code point as at the start of a title, the others small. -/
def capitalize (t : Text) : Text :=
  match Text.codes t with
  | [] => []
  | code :: rest => Text.encode (Text.titlePoint code :: rest.map Text.lowerPoint)

/-- The code points as in a title: small after a letter with a case. -/
def titleFrom (afterCased : Bool) : List Nat → List Nat
  | [] => []
  | code :: rest =>
    let image := if afterCased then Text.lowerPoint code else Text.titlePoint code
    image :: titleFrom (Text.isCased image) rest

def title (t : Text) : Text := Text.encode (titleFrom false (Text.codes t))

end Mcs51.Expression.TextSearch
