import Mcs51.Operand.Reader
import Mcs51.Text.Quoting
import Mcs51.Text.StringLiteral
import Mcs51.Token

/-!
# Reading source lines

A line is read after its comment is cut off and its case is folded: a label with its colon, then a
directive that starts with `.` or `$`, or the name of an instruction with operands between commas. A
line with problems gives the tokens that could be made. The directive `file` changes the path of the
lines that follow, and `end` is the last line that is read.
-/

namespace Mcs51

/-! ## Directives -/

namespace Directive

/-- The bytes of one argument of `db`: a string or a number. -/
def readByteItem (pos : Position) (item : Text) : Attempt (List UInt8) :=
  if Text.beginsWith [Text.doubleQuote] item then
    match Text.unquote? item with
    | some bytes => .done bytes
    | none => .fail (.error (.badString item) item pos)
  else do
    let value ← readNumber item byteLimit pos
    return [value.toUInt8]

/-- The bytes of one argument of `dw`, the high byte first. -/
def readWordItem (pos : Position) (item : Text) : Attempt (List UInt8) := do
  let value ← readNumber item wordLimit pos
  return [(value / 0x100).toUInt8, value.toUInt8]

/-- The bytes of all arguments. -/
def readItems (read : Text → Attempt (List UInt8)) : List Text → Attempt (List UInt8)
  | [] => .done []
  | item :: items => do
    let bytes ← read item
    let more ← readItems read items
    return bytes ++ more

/-- The path of `file`, which may be a string. -/
def readPath (pos : Position) (item : Text) : Attempt Text :=
  if Text.beginsWith [Text.doubleQuote] item then
    match Text.unquote? item with
    | some path => .done path
    | none => .fail (.error (.badString item) item pos)
  else .done item

/-- Reads the arguments of a directive. -/
def readArguments (kind : DirectiveKind) (pos : Position) (items : List Text) :
    Attempt Directive :=
  let bare : Directive := { kind, position := pos }
  let wrongCount (count : Nat) : Attempt Directive :=
    .fail (.error (.argumentCount bare.text count) bare.text pos)
  match kind with
  | .org | .ds => match items with
    | [item] => do
      let value ← readNumber item wordLimit pos
      return { bare with number := value }
    | _ => wrongCount 1
  | .db =>
    if items.isEmpty then .fail (.error (.noData bare.text) bare.text pos)
    else do
      let data ← readItems (readByteItem pos) items
      return { bare with data }
  | .dw =>
    if items.isEmpty then .fail (.error (.noData bare.text) bare.text pos)
    else do
      let data ← readItems (readWordItem pos) items
      return { bare with data }
  | .file => match items with
    | [item] => do
      let path ← readPath pos item
      return { bare with path }
    | _ => wrongCount 1
  | .end => if items.isEmpty then .done bare else wrongCount 0

/-- Reads a directive from its name and the text after it. -/
def read (name arguments : Text) (pos : Position) : Attempt Directive :=
  match DirectiveKind.ofName? name with
  | none => .fail (.error (.unknownDirective name) (Text.ofString "." ++ name) pos)
  | some kind =>
    let arguments := Text.trim arguments
    readArguments kind pos (if arguments.isEmpty then [] else Text.splitCommas arguments)

end Directive

/-! ## Lines -/

namespace Line

/-- The label name at the start of a line, and the text after its colon. -/
def label? (line : Text) : Option (Text × Text) :=
  match line with
  | [] => none
  | b :: _ =>
    if Text.isNameStart b then
      match (line.dropWhile Text.isNameByte).dropWhile Text.isWordBlank with
      | c :: rest =>
        if c == ':'.toUInt8 then some (line.takeWhile Text.isNameByte, rest) else none
      | [] => none
    else none

/-- What follows a name: nothing, or blanks and then a text without a line feed. -/
def argument? (rest : Text) : Option Text :=
  match rest with
  | [] => some []
  | b :: _ =>
    let argument := rest.dropWhile Text.isWordBlank
    if Text.isWordBlank b && !argument.contains Text.lineFeed then some argument else none

/-- The name and the arguments of a directive line. -/
def directive? (line : Text) : Option (Text × Text) :=
  match line with
  | [] => none
  | b :: t =>
    let name := t.takeWhile Text.isLower
    if (b == '.'.toUInt8 || b == '$'.toUInt8) && !name.isEmpty then
      (argument? (t.dropWhile Text.isLower)).map fun argument => (name, argument)
    else none

/-- The name and the operands of an instruction line. -/
def instruction? (line : Text) : Option (Text × Text) :=
  match line with
  | [] => none
  | b :: _ =>
    if Text.isLower b then
      (argument? (line.dropWhile Text.isLiteralByte)).map
        fun argument => (line.takeWhile Text.isLiteralByte, argument)
    else none

/-- Reads an operand of the instruction `name`. -/
def readOperand (name : Text) (pos : Position) (item : Text) : Attempt Operand :=
  let text := Text.squeeze item
  if text.isEmpty then .fail (.error .emptyOperand name pos) else Operand.classify text pos

/-- What a line gives. -/
structure Reading where
  tokens : List Token := []
  findings : List Finding := []
  deriving Repr, DecidableEq

/-- The reading of a line followed by another. -/
def Reading.append (r s : Reading) : Reading := ⟨r.tokens ++ s.tokens, r.findings ++ s.findings⟩

instance : Append Reading := ⟨Reading.append⟩

/-- Reads a label declaration. -/
def readLabel (name : Text) (pos : Position) : Reading :=
  if isReserved name then { findings := [.error (.reservedLabel name) name pos] }
  else if (SpecialRegister.address? name).isSome then
    { findings := [.error (.registerLabel name) name pos] }
  else { tokens := [.label { name, position := pos }] }

/-- Reads an instruction, with the operands that there are. -/
def readInstruction (name operands : Text) (pos : Position) : Reading :=
  let items := if (Text.trim operands).isEmpty then [] else Text.splitCommas operands
  let attempts := items.map (readOperand name pos)
  let broken := attempts.any fun attempt => !attempt.succeeds
  { tokens := .mnemonic { name, position := pos, broken }
      :: (attempts.filterMap Attempt.result).map .operand
    findings := attempts.flatMap Attempt.findings }

/-- Reads the part of a line after its label. -/
def readStatement (line : Text) (pos : Position) : Reading :=
  if line.isEmpty then {}
  else match directive? line with
    | some (name, arguments) =>
      let attempt := Directive.read name arguments pos
      { tokens := (attempt.result.map .directive).toList, findings := attempt.findings }
    | none => match instruction? line with
      | some (name, operands) => readInstruction name operands pos
      | none => { findings := [.error .noMnemonic line pos] }

/-- The line as its parts are recognised: without comment, outer white space and upper case. -/
def normalize (text : Text) : Text := Text.foldCase (Text.trim (Text.stripComment text))

/-- Reads a line. -/
def read (text : Text) (pos : Position) : Reading :=
  let line := normalize text
  match label? line with
  | some (name, rest) => readLabel name pos ++ readStatement (Text.trim rest) pos
  | none => readStatement line pos

/-- The path of the lines after a line with the given tokens. -/
def pathAfter (path : Text) (tokens : List Token) : Text :=
  match tokens.getLast? with
  | some (.directive d) => if d.kind == .file then d.path else path
  | _ => path

/-- The tokens of a line include `end`. -/
def endsSource (tokens : List Token) : Bool :=
  match tokens.getLast? with
  | some (.directive d) => d.kind == .end
  | _ => false

end Line

/-! ## Sources -/

/-- What the lines of a source give, and the path after them. -/
structure SourceReading where
  reading : Line.Reading
  path : Text
  deriving Repr, DecidableEq

/-- Reads lines, the first of which has the given number, until one with `end`. -/
def readLinesFrom (path : Text) (number : Int) : List Text → SourceReading
  | [] => ⟨{}, path⟩
  | text :: lines =>
    let reading := Line.read text ⟨path, number⟩
    let path := Line.pathAfter path reading.tokens
    if Line.endsSource reading.tokens then ⟨reading, path⟩
    else
      let rest := readLinesFrom path (number + 1) lines
      ⟨reading ++ rest.reading, rest.path⟩

/-- Reads the lines of a source, numbered from one. -/
def readSource (path : Text) (lines : List Text) : SourceReading := readLinesFrom path 1 lines

end Mcs51
