import Mcs51.Binary64
import Mcs51.Text.Decimal
import Mcs51.Text.Letter
import Mcs51.Text.StringLiteral

/-!
# Lexemes of an expression

The text of an expression is a row of numbers, strings, names and marks in lines. Blanks separate
lexemes, `#` starts a comment, and a NUL ends the text. A line end is a lexeme of its own unless a
bracket is open or the line is blank; a backslash before it joins two lines. Where no bracket is
open, a line that starts further to the right than the one before opens an indentation, and one that
starts further to the left closes those that it leaves.
-/

namespace Mcs51.Expression

/-- The marks and the words that are no names. -/
inductive Mark where
  | openParen
  | closeParen
  | openBracket
  | closeBracket
  | openBrace
  | closeBrace
  | comma
  | colon
  | semicolon
  | dot
  | assign
  | plus
  | minus
  | star
  | doubleStar
  | slash
  | doubleSlash
  | percent
  | tilde
  | ampersand
  | bar
  | caret
  | shiftLeft
  | shiftRight
  | less
  | greater
  | lessEqual
  | greaterEqual
  | equal
  | notEqual
  | plusAssign
  | minusAssign
  | starAssign
  | slashAssign
  | doubleSlashAssign
  | percentAssign
  | ampersandAssign
  | barAssign
  | caretAssign
  | shiftLeftAssign
  | shiftRightAssign
  | andWord
  | breakWord
  | continueWord
  | defWord
  | elifWord
  | elseWord
  | forWord
  | ifWord
  | inWord
  | lambdaWord
  | notWord
  | orWord
  | passWord
  | returnWord
  deriving Repr, DecidableEq

inductive Lexeme where
  | integer (n : Nat)
  | real (x : Binary64)
  | text (t : Text)
  | bytes (t : Text)
  | name (t : Text)
  | mark (m : Mark)
  | lineEnd
  | indent
  | outdent
  deriving Repr, DecidableEq

/-! ## Numbers -/

/-- A row of digits in a base, all of them below it. -/
def digitsValue? (base : Nat) (digits : Text) : Option Nat :=
  digits.foldlM (fun n b => match Text.hexDigitValue? b with
    | some d => if d < base then some (n * base + d) else none
    | none => none) 0

/-- The bytes of a lexeme in a base after its two bytes of mark, and the lexeme. -/
def basedNumber? (base : Nat) (limit? : Option Nat) (t : Text) : Option (Lexeme × Nat) :=
  let isDigit b := (digitsValue? base [b]).isSome
  let digits := t.takeWhile isDigit
  if digits.isEmpty then none
  else do
    let n ← digitsValue? base digits
    match limit? with
    | some limit => if limit < n then none else some (.integer n, 2 + digits.length)
    | none => some (.integer n, 2 + digits.length)

/-- The exponent of a decimal, and the number of its bytes. A mark without digits is refused. -/
def exponentPart? (t : Text) : Option (Int × Nat) :=
  match t with
  | b :: t =>
    if b == 'e'.toUInt8 || b == 'E'.toUInt8 then
      let (negative, signSize, t) := match t with
        | 0x2b :: t => (false, 1, t)
        | 0x2d :: t => (true, 1, t)
        | t => (false, 0, t)
      let digits := t.takeWhile Text.isDigit
      if digits.isEmpty then none
      else
        let size : Int := Text.valueOfDigits digits
        some (if negative then -size else size, 1 + signSize + digits.length)
    else some (0, 0)
  | [] => some (0, 0)

/-- A decimal with a point or an exponent; one that is infinite is refused. -/
def decimal? (whole fraction : Text) (size : Nat) (rest : Text) : Option (Lexeme × Nat) := do
  let (exponent, exponentSize) ← exponentPart? rest
  let x := Binary64.ofDecimal false (Text.valueOfDigits (whole ++ fraction))
    (exponent - fraction.length)
  if x.isFinite then some (.real x, size + exponentSize) else none

/-- A decimal integer; only zero may start with a zero. -/
def wholeNumber? (digits : Text) : Option (Lexeme × Nat) :=
  let n := Text.valueOfDigits digits
  if digits.head? == some 0x30 && n != 0 then none else some (.integer n, digits.length)

/-- The number at the start of a text that starts with a digit, or with a point and a digit, and how
many bytes it has. Octal and binary integers are limited to 63 bits. -/
def number? (t : Text) : Option (Lexeme × Nat) :=
  let plain : Option (Lexeme × Nat) :=
    let whole := t.takeWhile Text.isDigit
    match t.dropWhile Text.isDigit with
    | 0x2e :: rest =>
      let fraction := rest.takeWhile Text.isDigit
      decimal? whole fraction (whole.length + 1 + fraction.length) (rest.dropWhile Text.isDigit)
    | b :: rest =>
      if b == 'e'.toUInt8 || b == 'E'.toUInt8 then decimal? whole [] whole.length (b :: rest)
      else wholeNumber? whole
    | [] => wholeNumber? whole
  match t with
  | 0x30 :: b :: rest =>
    if b == 'x'.toUInt8 || b == 'X'.toUInt8 then basedNumber? 16 none rest
    else if b == 'o'.toUInt8 || b == 'O'.toUInt8 then
      basedNumber? 8 (some Text.maxInt64.toNat) rest
    else if b == 'b'.toUInt8 || b == 'B'.toUInt8 then
      basedNumber? 2 (some Text.maxInt64.toNat) rest
    else plain
  | _ => plain

/-! ## Strings -/

/-- How a string is written: between one or three quotes on each side, with escapes or without, and
as text or as bytes. -/
structure Quotes where
  triple : Bool := false
  raw : Bool := false
  bytes : Bool := false

/-- The octal digits at the start of a text, three at most. -/
def octalDigits (t : Text) : Text := (t.take 3).takeWhile fun b => 0x30 ≤ b && b ≤ 0x37

/-- A byte given by number. Text takes only ASCII ones. -/
def numberedByte? (q : Quotes) (n : Nat) : Option Text :=
  if n ≤ (if q.bytes then 0xff else 0x7f) then some [n.toUInt8] else none

/-- A code point of so many hexadecimal digits. -/
def pointEscape? (count : Nat) (digits : Text) : Option (Text × Nat) :=
  if digits.length < count then none
  else (Text.hexPoint? (digits.take count)).map fun point => (point, count + 1)

/-- The text an escape stands for, from the bytes after its backslash, and how many of them it has.
-/
def escape? (q : Quotes) (t : Text) : Option (Text × Nat) :=
  match t with
  | [] => none
  | b :: rest =>
    if b == Text.lineFeed then some ([], 1)
    else if b == Text.singleQuote then some ([b], 1)
    else match Text.escapeLetter? b with
      | some c => some ([c], 1)
      | none =>
        if !(octalDigits t).isEmpty then do
          let n ← digitsValue? 8 (octalDigits t)
          return (← numberedByte? q n, (octalDigits t).length)
        else if b == 'x'.toUInt8 && 2 ≤ rest.length then do
          let n ← Text.hexValue? (rest.take 2)
          return (← numberedByte? q n, 3)
        else if b == 'u'.toUInt8 then pointEscape? 4 rest
        else if b == 'U'.toUInt8 then pointEscape? 8 rest
        else none

/-- The contents of a string and the number of its bytes up to the closing quotes included, from the
text after the opening quotes; the first `skip` bytes belong to an escape already read. -/
def stringBody? (q : Quotes) : Nat → Text → Option (Text × Nat)
  | _, [] => none
  | skip + 1, _ :: t => (stringBody? q skip t).map fun (body, size) => (body, size + 1)
  | 0, b :: t =>
    if b == Text.singleQuote && !q.triple then some ([], 1)
    else if q.triple && Text.beginsWith [0x27, 0x27, 0x27] (b :: t) then some ([], 3)
    else if b == Text.lineFeed && !q.triple then none
    else if b == Text.backslash then
      if q.raw then match t with
        | [] => none
        | c :: _ => (stringBody? q 1 t).map fun (body, size) => (b :: c :: body, size + 1)
      else do
        let (piece, count) ← escape? q t
        (stringBody? q count t).map fun (body, size) => (piece ++ body, size + 1)
    else (stringBody? q 0 t).map fun (body, size) => (b :: body, size + 1)

/-- The string whose opening quote starts a text, and how many bytes it has. -/
def string? (raw bytes : Bool) (t : Text) : Option (Lexeme × Nat) :=
  let lexeme (body : Text) : Lexeme := if bytes then .bytes body else .text body
  match Text.dropPrefix? [0x27, 0x27, 0x27] t with
  | some rest =>
    (stringBody? ⟨true, raw, bytes⟩ 0 rest).map fun (body, size) => (lexeme body, size + 3)
  | none =>
    (stringBody? ⟨false, raw, bytes⟩ 0 (t.drop 1)).map fun (body, size) => (lexeme body, size + 1)

/-- The letters before the quote of a string, which tell whether it is raw and whether it is bytes.
-/
def stringPrefixes : List (String × Bool × Bool) :=
  [("", false, false), ("r", true, false), ("b", false, true), ("rb", true, true)]

/-- The string at the start of a text, letters before its quote included, if there is one: whether
it is raw and bytes, and how many letters it has. -/
def stringStart? (t : Text) : Option (Bool × Bool × Nat) :=
  stringPrefixes.findSome? fun (letters, raw, bytes) =>
    if Text.beginsWith (Text.ofString letters ++ [Text.singleQuote]) t then
      some (raw, bytes, (Text.ofString letters).length)
    else none

/-! ## Words -/

/-- The ASCII bytes that may start a name. -/
def isWordStart (b : UInt8) : Bool := Text.isLower b || Text.isUpper b || b == '_'.toUInt8

/-- The ASCII bytes that may continue a name. -/
def isWordByte (b : UInt8) : Bool := isWordStart b || Text.isDigit b

/-- The number of bytes of the word at the start of a text; the first `skip` of them belong to a
letter already seen. Letters of every script may stand in a word. -/
def wordSize : Nat → Text → Nat
  | _, [] => 0
  | skip + 1, _ :: t => wordSize skip t + 1
  | 0, b :: t =>
    if b < 0x80 then (if isWordByte b then wordSize 0 t + 1 else 0)
    else match Text.leading b t with
      | (.point code, more) => if Text.isLetter code then wordSize more t + 1 else 0
      | (.stray _, _) => 0

/-- The words that are marks. -/
def wordMarks : List (String × Mark) :=
  [("and", .andWord), ("break", .breakWord), ("continue", .continueWord), ("def", .defWord),
   ("elif", .elifWord), ("else", .elseWord), ("for", .forWord), ("if", .ifWord), ("in", .inWord),
   ("lambda", .lambdaWord), ("not", .notWord), ("or", .orWord), ("pass", .passWord),
   ("return", .returnWord)]

/-- The words that are reserved and have no use. -/
def refusedWords : List String :=
  ["as", "async", "await", "class", "del", "except", "finally", "from", "global", "import", "is",
   "load", "nonlocal", "raise", "try", "while", "with", "yield"]

/-- The lexeme of a word. -/
def word? (w : Text) : Option Lexeme :=
  match wordMarks.find? fun entry => Text.ofString entry.1 == w with
  | some (_, m) => some (.mark m)
  | none => if refusedWords.any fun r => Text.ofString r == w then none else some (.name w)

/-! ## Marks -/

/-- The marks, each before those that it starts with. -/
def marks : List (String × Mark) :=
  [("//=", .doubleSlashAssign), ("<<=", .shiftLeftAssign), (">>=", .shiftRightAssign),
   ("**", .doubleStar), ("//", .doubleSlash), ("<<", .shiftLeft), (">>", .shiftRight),
   ("<=", .lessEqual), (">=", .greaterEqual), ("==", .equal), ("!=", .notEqual),
   ("+=", .plusAssign), ("-=", .minusAssign), ("*=", .starAssign), ("/=", .slashAssign),
   ("%=", .percentAssign), ("&=", .ampersandAssign), ("|=", .barAssign), ("^=", .caretAssign),
   ("(", .openParen), (")", .closeParen), ("[", .openBracket), ("]", .closeBracket),
   ("\x7b", .openBrace), ("\x7d", .closeBrace), (",", .comma), (":", .colon), (";", .semicolon),
   (".", .dot), ("=", .assign), ("+", .plus), ("-", .minus), ("*", .star), ("/", .slash),
   ("%", .percent), ("~", .tilde), ("&", .ampersand), ("|", .bar), ("^", .caret), ("<", .less),
   (">", .greater)]

/-- The mark at the start of a text, and how many bytes it has. -/
def mark? (t : Text) : Option (Mark × Nat) :=
  (marks.find? fun entry => Text.beginsWith (Text.ofString entry.1) t).map
    fun entry => (entry.2, (Text.ofString entry.1).length)

/-- The number of open brackets after a mark; one that closes none is refused. -/
def depthAfter? (depth : Nat) : Mark → Option Nat
  | .openParen | .openBracket | .openBrace => some (depth + 1)
  | .closeParen | .closeBracket | .closeBrace => if depth == 0 then none else some (depth - 1)
  | _ => some depth

/-- The lexeme at the start of a text, and how many bytes it has. -/
def lexeme? (t : Text) : Option (Lexeme × Nat) :=
  match t with
  | [] => none
  | b :: rest =>
    if Text.isDigit b || (b == '.'.toUInt8 && (rest.head?.map Text.isDigit).getD false) then
      number? t
    else match stringStart? t with
      | some (raw, bytes, letters) =>
        (string? raw bytes (t.drop letters)).map fun (l, size) => (l, size + letters)
      | none =>
        let size := wordSize 0 t
        if size == 0 then (mark? t).map fun (m, size) => (.mark m, size)
        else (word? (t.take size)).map fun l => (l, size)

/-! ## Lines -/

/-- The text with each line end written as a line feed. -/
def plainLineEnds : Text → Text
  | [] => []
  | 0x0d :: 0x0a :: t => Text.lineFeed :: plainLineEnds t
  | b :: t => (if b == Text.carriageReturn then Text.lineFeed else b) :: plainLineEnds t

/-- The distance between tabulator stops. -/
def tabStop : Nat := 8

/-- The column where a line starts and the number of blanks before it; `column` and `size` are those
of the blanks already seen. A tab counts for as much as is left to the next stop after the number of
blanks before it. -/
def margin (column size : Nat) : Text → Nat × Nat
  | [] => (column, size)
  | b :: t =>
    if b == 0x20 then margin (column + 1) (size + 1) t
    else if b == 0x09 then margin (column + (tabStop - size % tabStop)) (size + 1) t
    else (column, size)

/-- Nothing but a comment is left on the line, or the text ends. -/
def isIdle (t : Text) : Bool :=
  match t with
  | [] => true
  | b :: _ => b == Text.lineFeed || b == '#'.toUInt8 || b == 0

/-- Where the reading of lines stands. -/
structure Place where
  /-- The number of open brackets. -/
  depth : Nat := 0
  /-- The columns of the open indentations, the last one first. -/
  columns : List Nat := []
  /-- The line has no lexeme. -/
  idle : Bool := false

/-- Moves to a line that starts at the given column: the lexemes for the indentations that it opens
or closes. A column between those of two indentations is refused. -/
def Place.moveTo? (p : Place) (column : Nat) : Option (List Lexeme × Place) :=
  if p.columns.headD 0 < column then some ([.indent], { p with columns := column :: p.columns })
  else
    let left := p.columns.takeWhile (column < ·)
    let columns := p.columns.drop left.length
    if columns.headD 0 == column then some (left.map fun _ => .outdent, { p with columns })
    else none

/-- The lexemes at the end of the text. -/
def Place.finish (p : Place) : List Lexeme :=
  (if p.idle || p.columns.isEmpty then [] else [.lineEnd]) ++ p.columns.map fun _ => .outdent

/-- The lexemes of a line end when `rest` follows, the place after it, and how many bytes of `rest`
are blanks. -/
def Place.endLine? (p : Place) (rest : Text) : Option (List Lexeme × Place × Nat) :=
  if p.depth != 0 then some ([], p, 0)
  else do
    let ended : List Lexeme := if p.idle then [] else [.lineEnd]
    let (column, size) := margin 0 0 rest
    if isIdle (rest.drop size) then return (ended, { p with idle := true }, size)
    let (shifts, p) ← p.moveTo? column
    return (ended ++ shifts, { p with idle := false }, size)

/-- The lexemes of a text whose first `skip` bytes are already read. -/
def lexemesFrom? (p : Place) : Nat → Text → Option (List Lexeme)
  | _, [] => some p.finish
  | skip + 1, _ :: t => lexemesFrom? p skip t
  | 0, b :: t =>
    if b == 0x20 || b == 0x09 then lexemesFrom? p 0 t
    else if b == 0 then some p.finish
    else if b == '#'.toUInt8 then
      lexemesFrom? p (t.takeWhile fun c => c != Text.lineFeed && c != 0).length t
    else if b == Text.lineFeed then do
      let (row, p, size) ← p.endLine? t
      return row ++ (← lexemesFrom? p size t)
    else if b == Text.backslash then
      if t.head? == some Text.lineFeed then lexemesFrom? p 1 t else none
    else do
      let (l, size) ← lexeme? (b :: t)
      let depth ← match l with
        | .mark m => depthAfter? p.depth m
        | _ => some p.depth
      return l :: (← lexemesFrom? { p with depth } (size - 1) t)

/-- The lexemes of a text that starts with a lexeme. -/
def lexemes? (t : Text) : Option (List Lexeme) :=
  lexemesFrom? {} 0 (plainLineEnds (Text.scrub t))

end Mcs51.Expression
