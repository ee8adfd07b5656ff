import Mcs51.Text.StringLiteral
import Mcs51.Toml.Value

/-!
# Reading a TOML document

A document is a row of statements: headers of tables, headers of tables in an array, and keys with
values. Reading gives the statements as they are written; what they build is the business of
`Mcs51.Toml.Document`. A document is valid UTF-8 without control characters other than tabs and line
ends, and a carriage return stands only before a line feed.

Values nest, so the readers of values have a bound on their depth, `fuel`, which the length of the
document bounds.
-/

namespace Mcs51.Toml

/-- A value as it is written: inline tables have keys of several parts. -/
inductive Item where
  | leaf (value : Value)
  | array (items : List Item)
  | table (entries : List (List Text × Item))
  deriving Repr

inductive Statement where
  | header (path : List Text)
  | arrayHeader (path : List Text)
  | entry (path : List Text) (item : Item)
  deriving Repr

/-! ## Characters -/

def isBlank (b : UInt8) : Bool := b == 0x20 || b == 0x09

def isLineEnd (b : UInt8) : Bool := b == Text.lineFeed || b == Text.carriageReturn

def isSpacing (b : UInt8) : Bool := isBlank b || isLineEnd b

/-- The bytes of a key without quotes. -/
def isBareByte (b : UInt8) : Bool :=
  Text.isLower b || Text.isUpper b || Text.isDigit b || b == '_'.toUInt8 || b == '-'.toUInt8

/-- A control character that no document holds. -/
def isControl (b : UInt8) : Bool := (b < 0x20 && !isSpacing b) || b == 0x7f

/-- Every carriage return stands before a line feed. -/
def returnsPaired : Text → Bool
  | [] => true
  | b :: t =>
    (b != Text.carriageReturn || t.head? == some Text.lineFeed) && returnsPaired t

def isDocumentText (t : Text) : Bool := Text.isValid t && !t.any isControl && returnsPaired t

def skipBlanks (t : Text) : Text := t.dropWhile isBlank

/-- The text after a comment's mark up to the end of its line. -/
def skipComment (t : Text) : Text := t.dropWhile fun b => !isLineEnd b

/-- The text after blanks, line ends and comments. -/
def skipSpacing : Nat → Text → Text
  | 0, t => t
  | fuel + 1, t =>
    match t.dropWhile isSpacing with
    | b :: rest => if b == '#'.toUInt8 then skipSpacing fuel (skipComment rest) else b :: rest
    | [] => []

/-! ## Strings -/

/-- What a letter after a backslash stands for. -/
def escapeByte? (b : UInt8) : Option UInt8 :=
  if b == 'b'.toUInt8 then some 0x08
  else if b == 't'.toUInt8 then some 0x09
  else if b == 'n'.toUInt8 then some 0x0a
  else if b == 'f'.toUInt8 then some 0x0c
  else if b == 'r'.toUInt8 then some 0x0d
  else if b == Text.doubleQuote || b == Text.backslash then some b
  else none

/-- The text an escape stands for, from the text after its backslash, and how many bytes it has. -/
def escape? (t : Text) : Option (Text × Nat) :=
  let point (count : Nat) (rest : Text) : Option (Text × Nat) :=
    if rest.length < count then none
    else (Text.hexPoint? (rest.take count)).map fun p => (p, count + 1)
  match t with
  | [] => none
  | b :: rest =>
    match escapeByte? b with
    | some c => some ([c], 1)
    | none =>
      if b == 'u'.toUInt8 then point 4 rest
      else if b == 'U'.toUInt8 then point 8 rest
      else none

/-- A string on one line from the text after its opening quote, and the text after the closing one;
the first `skip` bytes belong to an escape already read. -/
def lineString? : Nat → Text → Option (Text × Text)
  | _, [] => none
  | skip + 1, _ :: t => lineString? skip t
  | 0, b :: t =>
    if b == Text.doubleQuote then some ([], t)
    else if isLineEnd b then none
    else if b == Text.backslash then do
      let (piece, count) ← escape? t
      let (body, rest) ← lineString? count t
      return (piece ++ body, rest)
    else do
      let (body, rest) ← lineString? 0 t
      return (b :: body, rest)

/-- A string without escapes on one line. -/
def plainString? (t : Text) : Option (Text × Text) :=
  let body := t.takeWhile fun b => b != Text.singleQuote && !isLineEnd b
  match t.drop body.length with
  | b :: rest => if b == Text.singleQuote then some (body, rest) else none
  | [] => none

/-- What a row of quotes in a string of several lines means: fewer than three belong to the string,
three end it, and a few before those belong to it too. -/
inductive QuoteRun where
  | inside (count : Nat)
  | closing (before : Nat)
  | tooMany

/-- The meaning of a row of quotes of which at most `extra` stand before the three at its end. -/
def QuoteRun.of (extra count : Nat) : QuoteRun :=
  if count < 3 then .inside count else if count ≤ extra + 3 then .closing (count - 3) else .tooMany

/-- A string of several lines from the text after its opening quotes. A backslash at the end of a
line hides the line end and the spacing after it. Two quotes may stand before the three at the end,
and three after a backslash, which `afterBackslash` says. -/
def linesString? : Bool → Nat → Text → Option (Text × Text)
  | _, _, [] => none
  | _, skip + 1, b :: t => linesString? (b == Text.backslash) skip t
  | afterBackslash, 0, b :: t =>
    if b == Text.doubleQuote then
      let more := t.takeWhile (· == Text.doubleQuote)
      match QuoteRun.of (if afterBackslash then 3 else 2) (more.length + 1) with
      | .closing before => some (List.replicate before Text.doubleQuote, t.drop more.length)
      | .inside count => do
        let (body, rest) ← linesString? false (count - 1) t
        return (List.replicate count Text.doubleQuote ++ body, rest)
      | .tooMany => none
    else if b == Text.backslash then
      let spacing := t.takeWhile isSpacing
      if spacing.contains Text.lineFeed then linesString? false spacing.length t
      else do
        let (piece, count) ← escape? t
        let (body, rest) ← linesString? false count t
        return (piece ++ body, rest)
    else do
      let (body, rest) ← linesString? false 0 t
      return (b :: body, rest)

/-- A string of several lines without escapes. -/
def plainLines? : Nat → Text → Option (Text × Text)
  | _, [] => none
  | skip + 1, _ :: t => plainLines? skip t
  | 0, b :: t =>
    if b == Text.singleQuote then
      let more := t.takeWhile (· == Text.singleQuote)
      match QuoteRun.of 2 (more.length + 1) with
      | .closing before => some (List.replicate before Text.singleQuote, t.drop more.length)
      | .inside count => do
        let (body, rest) ← plainLines? (count - 1) t
        return (List.replicate count Text.singleQuote ++ body, rest)
      | .tooMany => none
    else do
      let (body, rest) ← plainLines? 0 t
      return (b :: body, rest)

/-- The text without a line end at its start. -/
def dropLineEnd (t : Text) : Text :=
  match t with
  | 0x0a :: rest => rest
  | 0x0d :: 0x0a :: rest => rest
  | t => t

/-- A string with its quotes at the start of a text; `none` also if there is none. -/
def string? (t : Text) : Option (Text × Text) :=
  match Text.dropPrefix? [0x22, 0x22, 0x22] t with
  | some rest => linesString? false 0 (dropLineEnd rest)
  | none => match Text.dropPrefix? [0x27, 0x27, 0x27] t with
    | some rest => plainLines? 0 (dropLineEnd rest)
    | none => match t with
      | 0x22 :: rest => lineString? 0 rest
      | 0x27 :: rest => plainString? rest
      | _ => none

/-! ## Keys -/

/-- One part of a key. -/
def keyPart? (t : Text) : Option (Text × Text) :=
  match t with
  | 0x22 :: rest => lineString? 0 rest
  | 0x27 :: rest => plainString? rest
  | t =>
    let part := t.takeWhile isBareByte
    if part.isEmpty then none else some (part, t.drop part.length)

/-- A key of parts with points between them, and the text after the blanks that follow it. -/
def key? : Nat → Text → Option (List Text × Text)
  | 0, _ => none
  | fuel + 1, t => do
    let (part, rest) ← keyPart? (skipBlanks t)
    match skipBlanks rest with
    | 0x2e :: rest =>
      let (parts, rest) ← key? fuel rest
      return (part :: parts, rest)
    | rest => return ([part], rest)

/-! ## Numbers -/

/-- Digits of a class in which each underscore stands between two digits, without the underscores.
-/
def separated? (isDigit : UInt8 → Bool) (t : Text) : Option Text :=
  let parts := Text.splitOn '_'.toUInt8 t
  if parts.all fun part => !part.isEmpty && part.all isDigit then some parts.flatten else none

/-- The sign in front of a number. -/
def splitSign (t : Text) : Bool × Text :=
  match t with
  | 0x2b :: rest => (false, rest)
  | 0x2d :: rest => (true, rest)
  | t => (false, t)

/-- Digits of which only a single one may be zero at the start. -/
def wholeDigits? (t : Text) : Option Text := do
  let digits ← separated? Text.isDigit t
  if 1 < t.length && t.head? == some 0x30 then none else some digits

/-- An integer of 64 bits. -/
def fitting? (n : Int) : Option Value :=
  if Text.minInt64 ≤ n && n ≤ Text.maxInt64 then some (.integer n) else none

def decimalInteger? (t : Text) : Option Value := do
  let (negative, t) := splitSign t
  let n : Int := Text.valueOfDigits (← wholeDigits? t)
  fitting? (if negative then -n else n)

/-- An integer in a base after its mark. -/
def basedInteger? (base : Nat) (t : Text) : Option Value := do
  let isDigit b := match Text.hexDigitValue? b with
    | some d => d < base
    | none => false
  let digits ← separated? isDigit t
  fitting? (digits.foldl (fun (n : Nat) b => n * base + (Text.hexDigitValue? b).getD 0) 0 : Nat)

/-- The parts before and after the mark of the exponent. -/
def splitExponent (t : Text) : Text × Option Text :=
  let isMark b := b == 'e'.toUInt8 || b == 'E'.toUInt8
  match t.dropWhile fun b => !isMark b with
  | [] => (t, none)
  | _ :: exponent => (t.takeWhile fun b => !isMark b, some exponent)

/-- A number with a fraction, an exponent or both. It must not be too large. -/
def realNumber? (t : Text) : Option Value := do
  let (negative, t) := splitSign t
  let (front, exponent?) := splitExponent t
  let (whole, fraction?) := match Text.cut? '.'.toUInt8 front with
    | some (whole, fraction) => (whole, some fraction)
    | none => (front, none)
  let whole ← wholeDigits? whole
  let fraction ← match fraction? with
    | some f => separated? Text.isDigit f
    | none => some []
  let exponent : Int ← match exponent? with
    | some e => do
      let (down, e) := splitSign e
      let size : Int := Text.valueOfDigits (← separated? Text.isDigit e)
      pure (if down then -size else size)
    | none => some 0
  let x := Binary64.ofDecimal negative (Text.valueOfDigits (whole ++ fraction))
    (exponent - fraction.length)
  if x.isFinite then some (.real x) else none

/-- The bytes of a number with a point or an exponent. -/
def isRealByte (b : UInt8) : Bool :=
  Text.isDigit b || b == '_'.toUInt8 || b == '.'.toUInt8 || b == '-'.toUInt8 || b == '+'.toUInt8
    || b == 'e'.toUInt8 || b == 'E'.toUInt8

/-- The bytes of a date or time. -/
def isMomentByte (b : UInt8) : Bool :=
  Text.isDigit b || b == '-'.toUInt8 || b == ':'.toUInt8 || b == 'T'.toUInt8 || b == 't'.toUInt8
    || b == 0x20 || b == '.'.toUInt8 || b == 'Z'.toUInt8 || b == 'z'.toUInt8 || b == '+'.toUInt8

/-- A number in a base after its mark, and the text after it. -/
def based? (base : Nat) (t : Text) : Option (Value × Text) := do
  let digits := t.takeWhile fun b => b == '_'.toUInt8 || (Text.hexDigitValue? b).any (· < base)
  return (← basedInteger? base digits, t.drop digits.length)

/-- A decimal number with its sign, or a date or time, at the start of a text that has a digit first
after the sign. -/
def decimal? (t : Text) : Option (Value × Text) :=
  let (_, unsigned) := splitSign t
  let front := unsigned.takeWhile fun b => Text.isDigit b || b == '_'.toUInt8
  let size := t.length - unsigned.length + front.length
  let next := (t.drop size).head?
  if next == some '.'.toUInt8 || next == some 'e'.toUInt8 || next == some 'E'.toUInt8 then do
    let body := t.take size ++ (t.drop size).takeWhile isRealByte
    return (← realNumber? body, t.drop body.length)
  else if (next == some '-'.toUInt8 || next == some ':'.toUInt8)
      && t.length == unsigned.length then do
    let body := t.takeWhile isMomentByte
    let moment ← Moment.read? (body.reverse.dropWhile isBlank).reverse
    return (.moment moment, t.drop body.length)
  else do
    return (← decimalInteger? (t.take size), t.drop size)

/-- The numbers that are no decimals. -/
def specialReals : List (String × Binary64) :=
  [("inf", .infinite false), ("+inf", .infinite false), ("-inf", .infinite true),
   ("nan", .undefined), ("+nan", .undefined), ("-nan", .undefined)]

/-- The first entry of a list of words that stands at the start of a text, and the text after it. -/
def leadingWord? {α : Type} (words : List (String × α)) (t : Text) : Option (α × Text) :=
  words.findSome? fun (word, a) =>
    (Text.dropPrefix? (Text.ofString word) t).map fun rest => (a, rest)

/-- A value other than an array or a table. -/
def leaf? (t : Text) : Option (Value × Text) :=
  match t with
  | [] => none
  | b :: _ =>
    if b == Text.doubleQuote || b == Text.singleQuote then
      (string? t).map fun (s, rest) => (.text s, rest)
    else match leadingWord? specialReals t with
      | some (x, rest) => some (.real x, rest)
      | none => match leadingWord? [("true", true), ("false", false)] t with
        | some (x, rest) => some (.boolean x, rest)
        | none => match leadingWord? [("0x", 16), ("0o", 8), ("0b", 2)] t with
          | some (base, rest) => based? base rest
          | none => decimal? t

/-! ## Values -/

mutual

/-- A value at the start of a text, and the text after it. -/
def item? : Nat → Text → Option (Item × Text)
  | 0, _ => none
  | fuel + 1, t =>
    match skipBlanks t with
    | 0x5b :: rest => do
      let (items, rest) ← items? fuel rest
      return (.array items, rest)
    | 0x7b :: rest =>
      match skipBlanks rest with
      | 0x7d :: rest => some (.table [], rest)
      | rest => do
        let (entries, rest) ← entries? fuel rest
        return (.table entries, rest)
    | t => do
      let (value, rest) ← leaf? t
      return (.leaf value, rest)

/-- The rest of an array: values with commas between them, and perhaps one after the last. -/
def items? : Nat → Text → Option (List Item × Text)
  | 0, _ => none
  | fuel + 1, t =>
    match skipSpacing t.length t with
    | 0x5d :: rest => some ([], rest)
    | t => do
      let (item, rest) ← item? fuel t
      match skipSpacing rest.length rest with
      | 0x5d :: rest => return ([item], rest)
      | 0x2c :: rest =>
        let (items, rest) ← items? fuel rest
        return (item :: items, rest)
      | _ => none

/-- The rest of an inline table that has an entry: entries with commas between them, on one line. -/
def entries? : Nat → Text → Option (List (List Text × Item) × Text)
  | 0, _ => none
  | fuel + 1, t => do
    let (key, rest) ← key? fuel t
    let rest ← expect? '='.toUInt8 rest
    let (item, rest) ← item? fuel rest
    match skipBlanks rest with
    | 0x7d :: rest => return ([(key, item)], rest)
    | 0x2c :: rest =>
      let (entries, rest) ← entries? fuel rest
      return ((key, item) :: entries, rest)
    | _ => none

end

/-! ## Statements -/

/-- The text after a statement's line: only blanks and a comment may follow the statement on it. -/
def lineRest? (t : Text) : Option Text :=
  match skipBlanks t with
  | [] => some []
  | b :: rest =>
    if b == '#'.toUInt8 then some (skipComment rest)
    else if isLineEnd b then some rest
    else none

/-- One statement, and the text after it. -/
def statement? (t : Text) : Option (Statement × Text) :=
  let fuel := t.length + 1
  match Text.dropPrefix? [0x5b, 0x5b] t with
  | some rest => do
    let (path, rest) ← key? fuel rest
    let rest ← Text.dropPrefix? [0x5d, 0x5d] rest
    return (.arrayHeader path, rest)
  | none => match t with
    | 0x5b :: rest => do
      let (path, rest) ← key? fuel rest
      let rest ← expect? ']'.toUInt8 rest
      return (.header path, rest)
    | t => do
      let (path, rest) ← key? fuel t
      let rest ← expect? '='.toUInt8 rest
      let (item, rest) ← item? fuel rest
      return (.entry path item, rest)

/-- The statements of a text, each on lines of its own. -/
def statementsFrom? : Nat → Text → Option (List Statement)
  | 0, _ => none
  | fuel + 1, t =>
    match skipSpacing t.length t with
    | [] => some []
    | t => do
      let (statement, rest) ← statement? t
      let rest ← lineRest? rest
      let statements ← statementsFrom? fuel rest
      return statement :: statements

/-- The text without a mark of its encoding at its start. -/
def dropMark (t : Text) : Text :=
  match t with
  | 0xff :: 0xfe :: rest => rest
  | 0xfe :: 0xff :: rest => rest
  | 0xef :: 0xbb :: 0xbf :: rest => rest
  | t => t

/-- The statements of a document. -/
def statements? (document : Text) : Option (List Statement) :=
  let t := dropMark document
  if isDocumentText t then statementsFrom? (t.length + 1) t else none

end Mcs51.Toml
