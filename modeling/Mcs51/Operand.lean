import Mcs51.Problem

/-!
# Operands

An operand is a fragment of a line together with what it means: an immediate constant, a direct
address, a negated bit, a jump offset, a reserved name, a symbol, or an indirect name. A symbol, and
a constant given by a symbol, has a value only once it is resolved; it may be resolved again when
code moves.
-/

namespace Mcs51

/-! ## Names with a meaning of their own -/

/-- The names that are operands in their own right. Any register number is accepted, so that a
report can name a register that does not exist. -/
inductive Reserved where
  | a
  | c
  | ab
  | dptr
  | r (n : Nat)
  deriving Repr, DecidableEq

/-- The number of a register name: `r` and decimal digits, of at most 63 bits. -/
def registerNumber? : Text → Option Nat
  | [] => none
  | b :: digits =>
    if b == 'r'.toUInt8 && !digits.isEmpty && digits.all Text.isDigit then
      let n := Text.valueOfDigits digits
      if n ≤ Numeral.largest then some n else none
    else none

/-- The meaning of a reserved name. -/
def Reserved.ofName? (name : Text) : Option Reserved :=
  if name == Text.ofString "a" then some .a
  else if name == Text.ofString "c" then some .c
  else if name == Text.ofString "ab" then some .ab
  else if name == Text.ofString "dptr" then some .dptr
  else (registerNumber? name).map .r

/-- The name is reserved. -/
def isReserved (name : Text) : Bool := (Reserved.ofName? name).isSome

/-- What may follow `@`. -/
inductive Pointer where
  | dptr
  | aDptr
  | aPc
  | r (n : Nat)
  | other
  deriving Repr, DecidableEq

/-- The meaning of a name after `@`. -/
def Pointer.ofName? (name : Text) : Option Pointer :=
  if name == Text.ofString "dptr" then some .dptr
  else if name == Text.ofString "a+dptr" then some .aDptr
  else if name == Text.ofString "a+pc" then some .aPc
  else (registerNumber? name).map .r

/-- The name may follow `@`. -/
def isPointer (name : Text) : Bool := (Pointer.ofName? name).isSome

/-- The form of a symbol: a letter, `_` or `?`, then such bytes and digits. -/
def isSymbol : Text → Bool
  | [] => false
  | b :: t => Text.isNameStart b && t.all Text.isNameByte

/-! ## Operands -/

/-- The address space that an address belongs to. -/
inductive Space where
  /-- A plain number: the instruction decides. -/
  | any
  /-- A named register. -/
  | byte
  /-- A named bit, or a bit of a byte. -/
  | bit
  /-- A space that no operand text stands for, known by its number. -/
  | other (number : Int)
  deriving Repr, DecidableEq

/-- The number of a space. -/
def Space.number : Space → Int
  | .any => 0
  | .byte => 1
  | .bit => 2
  | .other number => number

/-- The space with the given number. -/
def Space.ofNumber (n : Int) : Space :=
  if n = 0 then .any else if n = 1 then .byte else if n = 2 then .bit else .other n

/-- Each number has its space. -/
theorem Space.number_ofNumber (n : Int) : (Space.ofNumber n).number = n := by
  unfold Space.ofNumber
  split
  · simp_all [Space.number]
  · split
    · simp_all [Space.number]
    · split <;> simp_all [Space.number]

/-- What an operand means. -/
inductive Form where
  | constant (value : Int)
  | symbolConstant (symbol : Text) (value : Option Int)
  | address (space : Space) (value : Int)
  | negated (value : Int)
  | offset (value : Int)
  | reserved (name : Reserved)
  | symbol (value : Option Int)
  | indirect (pointer : Pointer)
  deriving Repr, DecidableEq

/-- A fragment of a line and its meaning. -/
structure Operand where
  text : Text
  position : Position
  form : Form
  deriving Repr, DecidableEq

/-- The classes of operands. -/
inductive OperandClass where
  | constant
  | address
  | negatedAddress
  | name
  | indirectName
  | addressOffset
  deriving Repr, DecidableEq

/-- The number of a class. -/
def OperandClass.code : OperandClass → Int
  | .constant => 0
  | .address => 1
  | .negatedAddress => 2
  | .name => 3
  | .indirectName => 4
  | .addressOffset => 5

/-- The names of the classes. -/
def OperandClass.table : NameTable :=
  ⟨"OperandKind", [(0, "constant"), (1, "address"), (2, "negated address"), (3, "name"),
    (4, "indirect name"), (5, "address offset")]⟩

namespace Operand

/-- A reserved name, or a symbol if the name is not reserved. -/
def ofName (name : Text) (position : Position) : Operand :=
  match Reserved.ofName? name with
  | some r => ⟨name, position, .reserved r⟩
  | none => ⟨name, position, .symbol none⟩

/-- The name after the `@` of an indirect operand. -/
def afterAt (text : Text) : Text := (Text.dropPrefix? "@" text).getD text

/-- An indirect operand; `text` starts with `@`. -/
def ofIndirect (text : Text) (position : Position) : Operand :=
  ⟨text, position, .indirect ((Pointer.ofName? (afterAt text)).getD .other)⟩

/-- The class of an operand: a resolved symbol counts as an address. -/
def operandClass (op : Operand) : OperandClass :=
  match op.form with
  | .constant _ | .symbolConstant _ _ => .constant
  | .address _ _ | .symbol (some _) => .address
  | .negated _ => .negatedAddress
  | .offset _ => .addressOffset
  | .reserved _ | .symbol none => .name
  | .indirect _ => .indirectName

/-- The address space of an operand. -/
def space (op : Operand) : Space :=
  match op.form with
  | .address space _ => space
  | .negated _ => .bit
  | _ => .any

/-- The value of a constant, address or offset; zero where there is none. -/
def number (op : Operand) : Int :=
  match op.form with
  | .constant v | .address _ v | .negated v | .offset v => v
  | .symbolConstant _ v | .symbol v => v.getD 0
  | .reserved _ | .indirect _ => 0

/-- The name of a named or indirect operand; empty for others. -/
def name (op : Operand) : Text :=
  match op.form with
  | .reserved _ | .symbol _ => op.text
  | .indirect _ => afterAt op.text
  | _ => []

/-- The symbol that an operand refers to; empty if to none. -/
def symbolName (op : Operand) : Text :=
  match op.form with
  | .symbolConstant s _ => s
  | .symbol _ => op.text
  | _ => []

/-- The operand refers to a symbol. -/
def isReference (op : Operand) : Bool := !op.symbolName.isEmpty

/-- The operand has its value. -/
def isResolved (op : Operand) : Bool :=
  op.symbolName.isEmpty ||
    match op.form with
    | .symbolConstant _ v | .symbol v => v.isSome
    | _ => false

/-- The operand is the given name, not indirect. -/
def isNamed (name : Text) (op : Operand) : Bool :=
  op.operandClass == .name && op.name == name

/-- The operand is the given name after `@`. -/
def isIndirectTo (name : Text) (op : Operand) : Bool :=
  op.operandClass == .indirectName && op.name == name

/-- The number of a register. -/
def register? (op : Operand) : Option Nat :=
  match op.form with
  | .reserved (.r n) => some n
  | _ => none

/-- The number of a register after `@`. -/
def indirectRegister? (op : Operand) : Option Nat :=
  match op.form with
  | .indirect (.r n) => some n
  | _ => none

/-- Gives a reference its value. Other operands stay as they are. -/
def resolve (value : Int) (op : Operand) : Operand :=
  if op.isReference then
    match op.form with
    | .symbolConstant s _ => { op with form := .symbolConstant s (some value) }
    | .symbol _ => { op with form := .symbol (some value) }
    | _ => op
  else op

/-- The same fragment as a direct address. -/
def withAddress (op : Operand) (value : Int) (space : Space) : Operand :=
  { op with form := .address space value }

/-! ## Registers as memory -/

/-- Why an operand has no direct address. -/
inductive AddressError where
  | notRegister
  | noBank (register : Text)
  deriving Repr, DecidableEq

/-- The wording of a missing direct address. -/
def AddressError.message : AddressError → Text
  | .notRegister => (Message.mk "operand is not a register" []).render
  | .noBank register =>
    (Message.mk "register %v has no direct address without a selected register bank"
      [register]).render

/-- The direct address of a register in a bank of eight, as a word of 64 bits; an address is its
own. -/
def asAddress (bank : Option Int) (op : Operand) : Except AddressError Int :=
  match op.form with
  | .address _ v | .symbol (some v) => .ok v
  | .reserved (.r n) => match bank with
    | some bank => .ok ((bank * 8 + n).bmod 18446744073709551616)
    | none => .error (.noBank op.name)
  | _ => .error .notRegister

end Operand
end Mcs51
