import Mcs51.Text.Basic

/-!
# Lines of a file

A line ends at a line feed, and one carriage return before the end belongs to the ending. The last
line may lack its ending; nothing after the last ending is no line. Lines are limited in length, so
that a reader with a fixed buffer can deliver them.
-/

namespace Mcs51.Text

/-- A line of this many bytes, its carriage return included, is too long. -/
def lineLimit : Nat := 65536

/-- The wording for a line that is too long. -/
def tooLongMessage : Text := "bufio.Scanner: token too long"

/-- The line without a carriage return at its end. -/
def dropReturn (line : Text) : Text :=
  match line.reverse with
  | b :: front => if b == carriageReturn then front.reverse else line
  | [] => line

/-- The lines of a text with their carriage returns; `line` holds the open line, last byte first. -/
def rawLinesFrom : Text → Text → List Text
  | line, [] => if line.isEmpty then [] else [line.reverse]
  | line, b :: t =>
    if b == lineFeed then line.reverse :: rawLinesFrom [] t else rawLinesFrom (b :: line) t

/-- What a text holds for a reader: its lines before the first one that is too long, and whether
there is such a line. -/
structure LinesRead where
  lines : List Text
  tooLong : Bool

/-- Reads the lines of a text. -/
def readLines (t : Text) : LinesRead :=
  let raw := rawLinesFrom [] t
  let fits := raw.takeWhile fun line => line.length < lineLimit
  { lines := fits.map dropReturn, tooLong := fits.length < raw.length }

end Mcs51.Text
