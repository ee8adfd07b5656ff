/-!
# Byte text

Source lines, names, paths and messages are byte strings: a source file need not be valid UTF-8, and
every rule of the assembler that looks at single characters looks for ASCII ones, whose bytes never
occur inside a longer UTF-8 sequence. So text is a list of bytes, and only the few rules that look
at whole code points (`Mcs51.Text.Utf8`) decode it.
-/

namespace Mcs51

/-- A byte string. -/
abbrev Text := List UInt8

namespace Text

/-- The UTF-8 bytes of a string. -/
def ofString (s : String) : Text := s.toUTF8.data.toList

instance : Coe String Text := ⟨ofString⟩

/-! ## Byte classes -/

/-- `0`-`9`. -/
def isDigit (b : UInt8) : Bool := 0x30 ≤ b && b ≤ 0x39

/-- `a`-`z`. -/
def isLower (b : UInt8) : Bool := 0x61 ≤ b && b ≤ 0x7a

/-- `A`-`Z`. -/
def isUpper (b : UInt8) : Bool := 0x41 ≤ b && b ≤ 0x5a

/-- The bytes that may start a symbol: `a`-`z`, `_` and `?`. -/
def isNameStart (b : UInt8) : Bool := isLower b || b == '_'.toUInt8 || b == '?'.toUInt8

/-- The bytes that may continue a symbol: those that may start one, and digits. -/
def isNameByte (b : UInt8) : Bool := isNameStart b || isDigit b

/-- The bytes of a literal after its first digit: `a`-`z` and digits. -/
def isLiteralByte (b : UInt8) : Bool := isLower b || isDigit b

/-- The blanks that separate the words of a line: tab, line feed, form feed, carriage return, space.
-/
def isWordBlank (b : UInt8) : Bool :=
  b == 0x09 || b == 0x0a || b == 0x0c || b == 0x0d || b == 0x20

def doubleQuote : UInt8 := 0x22
def singleQuote : UInt8 := 0x27
def backslash : UInt8 := 0x5c
def lineFeed : UInt8 := 0x0a
def carriageReturn : UInt8 := 0x0d

/-- The lower-case form of an ASCII letter; any other byte is itself. -/
def lowerByte (b : UInt8) : UInt8 := if isUpper b then b + 0x20 else b

/-- The upper-case form of an ASCII letter; any other byte is itself. -/
def upperByte (b : UInt8) : UInt8 := if isLower b then b - 0x20 else b

/-! ## Order -/

/-- The order of byte strings: by the first byte that differs, a proper prefix first. -/
def order : Text → Text → Ordering
  | [], [] => .eq
  | [], _ :: _ => .lt
  | _ :: _, [] => .gt
  | a :: s, b :: t => if a < b then .lt else if b < a then .gt else order s t

/-- `s` comes before `t` or equals it. -/
def le (s t : Text) : Bool := (order s t).isLE

/-! ## Cutting and joining -/

/-- What follows `start` in a text that begins with it. -/
def dropPrefix? : Text → Text → Option Text
  | [], t => some t
  | _ :: _, [] => none
  | p :: start, b :: t => if p == b then dropPrefix? start t else none

/-- The text begins with `start`. -/
def beginsWith (start t : Text) : Bool := (dropPrefix? start t).isSome

/-- The parts before and after the first byte `sep`. -/
def cut? (sep : UInt8) : Text → Option (Text × Text)
  | [] => none
  | b :: t =>
    if b == sep then some ([], t)
    else (cut? sep t).map fun parts => (b :: parts.1, parts.2)

/-- The parts between the bytes `sep`; there is one more part than there are such bytes. -/
def splitOn (sep : UInt8) : Text → List Text
  | [] => [[]]
  | b :: t =>
    if b == sep then [] :: splitOn sep t
    else match splitOn sep t with
      | [] => [[b]]
      | part :: parts => (b :: part) :: parts

/-- The parts, with `sep` between neighbours. -/
def joinWith (sep : Text) : List Text → Text
  | [] => []
  | [part] => part
  | part :: parts => part ++ sep ++ joinWith sep parts

/-- `mapRuns` on the rest of a text, where `run` holds the open run, last byte first. -/
def mapRunsFrom (inRun : UInt8 → Bool) (image : Text → Text) : Text → Text → Text
  | run, [] => if run.isEmpty then [] else image run.reverse
  | run, b :: rest =>
    if inRun b then mapRunsFrom inRun image (b :: run) rest
    else (if run.isEmpty then [] else image run.reverse) ++ b :: mapRunsFrom inRun image [] rest

/-- Replaces each longest run of bytes of a class by its image. -/
def mapRuns (inRun : UInt8 → Bool) (image : Text → Text) (t : Text) : Text :=
  mapRunsFrom inRun image [] t

/-- Spaces after a text that has fewer than `width` characters, counted as given. -/
def padRight (width count : Nat) (t : Text) : Text := t ++ List.replicate (width - count) 0x20

end Text
end Mcs51
