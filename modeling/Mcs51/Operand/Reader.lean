import Mcs51.Attempt
import Mcs51.Operand

/-!
# Reading operands

An operand fragment, without white space and with its case folded, has one of seven shapes, told
apart by their bytes alone. The shape decides how the fragment is read; what is wrong with it is
found on the way.
-/

namespace Mcs51

/-! ## Numbers within bounds -/

/-- The largest byte. -/
def byteLimit : Nat := 0xff

/-- The largest word of 16 bits. -/
def wordLimit : Nat := 0xffff

/-- The highest number of a bit in a byte. -/
def bitLimit : Nat := 7

/-- Reads a literal from zero to `limit`. -/
def readNumber (text : Text) (limit : Nat) (pos : Position) : Attempt Nat :=
  match Numeral.parse text with
  | .error e => .fail (.error (.badNumeral e) text pos)
  | .ok value =>
    if value ≤ limit then .done value else .fail (.error (.outOfRange text limit) text pos)

/-! ## Shapes -/

/-- The shapes of operands. -/
inductive Shape where
  /-- `#` and a value. -/
  | constant
  /-- A byte, a dot and a bit number. -/
  | bitAddress
  /-- A literal. -/
  | address
  /-- `/` and a bit. -/
  | negated
  /-- A sign and a literal. -/
  | offset
  /-- A symbol. -/
  | symbol
  /-- `@` and a name. -/
  | indirect
  deriving Repr, DecidableEq

namespace Shape

/-- All shapes. -/
def all : List Shape := [.constant, .bitAddress, .address, .negated, .offset, .symbol, .indirect]

/-- What follows the byte `tag`: at least one byte, and no line feed. -/
def tagged? (tag : UInt8) : Text → Option Text
  | [] => none
  | b :: inner =>
    if b == tag && !inner.isEmpty && !inner.contains Text.lineFeed then some inner else none

/-- The form of a literal: a digit, then digits and lower-case letters. -/
def isLiteral : Text → Bool
  | [] => false
  | b :: t => Text.isDigit b && t.all Text.isLiteralByte

/-- The byte and the bit of a bit address. -/
def bitParts? (text : Text) : Option (Text × Text) :=
  match Text.cut? '.'.toUInt8 text with
  | some (byte, bit) =>
    if !byte.isEmpty && byte.all Text.isNameByte && !bit.isEmpty && bit.all Text.isLiteralByte then
      some (byte, bit)
    else none
  | none => none

/-- Whether the sign of an offset is a minus, and its literal. -/
def offsetParts? : Text → Option (Bool × Text)
  | [] => none
  | b :: t =>
    if (b == '+'.toUInt8 || b == '-'.toUInt8) && isLiteral t then some (b == '-'.toUInt8, t)
    else none

/-- The text has the shape. -/
def matchesText (text : Text) : Shape → Bool
  | .constant => (tagged? '#'.toUInt8 text).isSome
  | .bitAddress => (bitParts? text).isSome
  | .address => isLiteral text
  | .negated => (tagged? '/'.toUInt8 text).isSome
  | .offset => (offsetParts? text).isSome
  | .symbol => isSymbol text
  | .indirect => (tagged? '@'.toUInt8 text).isSome

/-- The shape of a text. -/
def of? (text : Text) : Option Shape := all.find? (matchesText text)

end Shape

/-! ## Reading -/

namespace Operand

/-- Reads a bit number. -/
def readBitNumber (text bit : Text) (pos : Position) : Attempt Nat :=
  if !Numeral.looksNumeric bit then .fail (.error (.bitNotNumber bit) text pos)
  else match Numeral.parse bit with
    | .error e => .fail (.error (.badNumeral e) text pos)
    | .ok value =>
      if value ≤ bitLimit then .done value else .fail (.error (.bitOutOfRange bit) text pos)

/-- Reads the byte of a bit address: a literal or the name of a register. -/
def readBitByte (text byte : Text) (pos : Position) : Attempt Nat :=
  if Numeral.looksNumeric byte then readNumber byte byteLimit pos
  else match SpecialRegister.byte? byte with
    | some address => .done address
    | none => .fail (.error (.notBitRegister byte) text pos)

/-- The address of a bit of a byte. -/
def readBit (text byte bit : Text) (pos : Position) : Attempt Int := do
  let address ← readBitByte text byte pos
  let number ← readBitNumber text bit pos
  match SpecialRegister.bitAddress address number with
  | .ok value => .done value
  | .error e => .fail (.error (.noBitAddress text e) text pos)

/-- Reads what follows `#`. -/
def readConstant (text inner : Text) (pos : Position) : Attempt Form :=
  if Numeral.looksNumeric inner then do
    let value ← readNumber inner wordLimit pos
    return .constant value
  else if isSymbol inner && !isReserved inner then
    match SpecialRegister.address? inner with
    | some address => .done (.constant address)
    | none => .done (.symbolConstant inner none)
  else .fail (.error (.badConstant text) text pos)

/-- Reads what follows `/`. -/
def readNegated (text inner : Text) (pos : Position) : Attempt Form :=
  match Text.cut? '.'.toUInt8 inner with
  | some (byte, bit) => do
    let value ← readBit text byte bit pos
    return .negated value
  | none =>
    if Numeral.looksNumeric inner then do
      let value ← readNumber inner byteLimit pos
      return .negated value
    else match SpecialRegister.bit? inner with
      | some address => .done (.negated address)
      | none => .fail (.error (.notBit inner) text pos)

/-- Reads a sign and a literal. -/
def readOffset (minus : Bool) (literal : Text) (pos : Position) : Attempt Form := do
  let value ← readNumber literal wordLimit pos
  return .offset (if minus then -(value : Int) else value)

/-- Reads a symbol: a reserved name, a register, a named bit, or a name to be resolved. -/
def readSymbol (text : Text) : Form :=
  match Reserved.ofName? text with
  | some r => .reserved r
  | none => match SpecialRegister.byte? text with
    | some address => .address .byte address
    | none => match SpecialRegister.bit? text with
      | some address => .address .bit address
      | none => .symbol none

/-- Reads what follows `@`. -/
def readIndirect (text inner : Text) (pos : Position) : Attempt Form :=
  match Pointer.ofName? inner with
  | some pointer => .done (.indirect pointer)
  | none => .fail (.error (.badIndirect text) text pos)

/-- Reads a fragment of the given shape. -/
def readShape (text : Text) (pos : Position) : Shape → Attempt Form
  | .constant => readConstant text (text.drop 1) pos
  | .bitAddress => do
    let (byte, bit) := (Shape.bitParts? text).getD ([], [])
    let value ← readBit text byte bit pos
    return .address .bit value
  | .address => do
    let value ← readNumber text wordLimit pos
    return .address .any value
  | .negated => readNegated text (text.drop 1) pos
  | .offset => do
    let (minus, literal) := (Shape.offsetParts? text).getD (false, [])
    readOffset minus literal pos
  | .symbol => .done (readSymbol text)
  | .indirect => readIndirect text (text.drop 1) pos

/-- Takes a fragment for an operand. -/
def classify (text : Text) (pos : Position) : Attempt Operand :=
  match Shape.of? text with
  | some shape => do
    let form ← readShape text pos shape
    return ⟨text, pos, form⟩
  | none => .fail (.error (.unknownOperand text) text pos)

/-- Reads an operand: what the fragment is taken for, or why it is taken for nothing. -/
def read (text : Text) (pos : Position) : Except Finding Operand :=
  (classify text pos).toExcept (.error (.unknownOperand text) text pos)

end Operand
end Mcs51
