import Mcs51.Instruction.Field
import Mcs51.Token

/-!
# Instruction families

The instructions of the 8051 fall into families that share their operand forms and differ in
opcodes. Each family says how operands become bytes. Where an operand may be read in several ways,
the readings are tried in a fixed order.
-/

namespace Mcs51

/-- What an encoding depends on besides the operands. -/
structure Site where
  settings : Settings
  /-- The address of the instruction. -/
  point : UInt32
  /-- The name of the instruction in the source. -/
  name : Mnemonic

/-- The families, with the opcodes that tell their members apart. -/
inductive Family where
  /-- No operand. -/
  | fixed (opcode : UInt8)
  /-- `A` and a source. -/
  | arithmetic (base : UInt8)
  /-- `AB`. -/
  | multiplicative (opcode : UInt8)
  /-- `A`, a byte, or the carry and a source; the opcodes of the carry with a bit and with a negated
  bit. -/
  | logical (base : UInt8) (carry : Option (UInt8 × UInt8))
  /-- `A`, the carry or a bit. -/
  | bitwise (accumulator : Option UInt8) (carry bit : UInt8)
  /-- `A`, `DPTR` or a source. -/
  | counting (base : UInt8) (dptr : Option UInt8)
  /-- `A`. -/
  | accumulator (opcode : UInt8)
  /-- A byte address. -/
  | stack (opcode : UInt8)
  /-- A code address in the page of the next instruction. -/
  | pageJump (opcode : UInt8)
  /-- Any code address. -/
  | longJump (opcode : UInt8)
  /-- A code address near by. -/
  | shortJump (opcode : UInt8)
  /-- The shortest jump that reaches, or `@A+DPTR`. -/
  | anyJump
  /-- The shortest call that reaches. -/
  | anyCall
  /-- A bit and a code address near by. -/
  | bitJump (opcode : UInt8)
  /-- Two values and a code address near by. -/
  | compareJump
  /-- A counter and a code address near by. -/
  | countJump
  | move
  | moveCode
  | moveExternal
  | exchange
  | exchangeDigit
  deriving Repr, DecidableEq

namespace Family

open Operand

/-! ## Sources of the accumulator -/

/-- Takes the omission of an implied operand as the policy says. -/
def omitted (site : Site) (operand : String) : Attempt Unit :=
  site.settings.take .omittedOperand (.omittedOperand operand site.name.name) site.name.name
    site.name.position

/-- The opcode with a number in its low bits. -/
def withLow (opcode low : UInt8) : UInt8 := opcode ||| low

/-- A byte in memory or a register. -/
def location (directOp pointerOp registerOp : UInt8) (src : Operand) : Attempt Code :=
  (do return [directOp, ← src.direct])
    <|> (do return [withLow pointerOp (← src.pointer)])
    <|> (do return [withLow registerOp (← src.register)])

/-- A source of `A`: an immediate byte, a byte in memory or a register. -/
def source (immediateOp directOp pointerOp registerOp : UInt8) (src : Operand) : Attempt Code :=
  (do return [immediateOp, ← src.immediate]) <|> location directOp pointerOp registerOp src

/-- A source of `A` in the order of opcodes that most instructions share. -/
def sourceOf (base : UInt8) (src : Operand) : Attempt Code :=
  source (base ||| 0x04) (base ||| 0x05) (base ||| 0x06) (base ||| 0x08) src

/-- `A` and a source, where `A` may be omitted. -/
def accumulatorSource (site : Site) (base : UInt8) : List Operand → Attempt Code
  | [src] => do
    omitted site "a"
    sourceOf base src
  | [dst, src] => if dst.isReservedAs .a then sourceOf base src else .mismatch
  | _ => .mismatch

/-! ## Logic and bits -/

/-- The destination forms of the logical instructions. -/
def encodeLogical (site : Site) (base : UInt8) (carry : Option (UInt8 × UInt8)) :
    List Operand → Attempt Code
  | [src] => accumulatorSource site base [src]
  | [dst, src] =>
    if dst.isReservedAs .a then sourceOf base src
    else if dst.isReservedAs .c then
      match carry with
      | none => .mismatch
      | some (withBit, withNegated) =>
        (do return [withNegated, ← src.negatedBit]) <|> (do return [withBit, ← src.bit])
    else do
      let address ← dst.direct
      if src.isReservedAs .a then return [base ||| 0x02, address]
      else return [base ||| 0x03, address, ← src.immediate]
  | _ => .mismatch

/-- `A`, the carry or a bit. -/
def encodeBitwise (accumulator : Option UInt8) (carry bitOp : UInt8) : List Operand → Attempt Code
  | [op] =>
    if op.isReservedAs .a then
      match accumulator with
      | some opcode => .done [opcode]
      | none => .mismatch
    else if op.isReservedAs .c then .done [carry]
    else do return [bitOp, ← op.bit]
  | _ => .mismatch

/-- Counting up or down. -/
def encodeCounting (base : UInt8) (dptr : Option UInt8) : List Operand → Attempt Code
  | [op] =>
    if op.isReservedAs .a then .done [base ||| 0x04]
    else if op.isReservedAs .dptr then
      match dptr with
      | some opcode => .done [opcode]
      | none => .mismatch
    else location (base ||| 0x05) (base ||| 0x06) (base ||| 0x08) op
  | _ => .mismatch

/-- One operand, which is implied by the instruction. -/
def encodeImplied (site : Site) (implied : Reserved) (name : String) (opcode : UInt8) :
    List Operand → Attempt Code
  | [] => do
    omitted site name
    return [opcode]
  | op :: _ => if op.isReservedAs implied then .done [opcode] else .mismatch

/-! ## Jumps -/

/-- The number of the 2 KiB page that an address lies in. -/
def pageOf (address : UInt32) : UInt32 := (address >>> 11) &&& (0x1f : UInt32)

/-- The target is in the page of the instruction after a two-byte one at `point`. -/
def samePage (point target : UInt32) : Bool := pageOf target == pageOf (point + 2)

/-- A jump in a page: the opcode holds three bits of the target. -/
def pageCode (opcode : UInt8) (target : UInt32) : Code :=
  [((target >>> 3) &&& (0xe0 : UInt32)).toUInt8 ||| opcode, target.toUInt8]

/-- A jump to a full address. -/
def longCode (opcode : UInt8) (target : UInt32) : Code :=
  [opcode, (target >>> 8).toUInt8, target.toUInt8]

/-- Appends the distance from the next instruction to the target to the bytes of a jump. -/
def withDistance (site : Site) (code : Code) (op : Operand) : Attempt Code := do
  let target ← op.target site.settings site.point
  let rel ← op.relative (site.point + (code.length + 1).toUInt32) target
  return code ++ [rel]

/-- A jump in a page. -/
def encodePageJump (site : Site) (opcode : UInt8) (op : Operand) : Attempt Code := do
  let target ← op.target site.settings site.point
  if samePage site.point target then return pageCode opcode target else op.fail .pageTooFar

/-- A jump to a full address. -/
def encodeLongJump (site : Site) (opcode : UInt8) (op : Operand) : Attempt Code := do
  let target ← op.target site.settings site.point
  return longCode opcode target

/-- The shortest jump that reaches. -/
def encodeAnyJump (site : Site) (op : Operand) : Attempt Code :=
  if op.pointsTo .aDptr then .done [0x73]
  else do
    let target ← op.target site.settings site.point
    let delta := distance (site.point + 2) target
    if isShort delta then return [0x80, lowByte delta]
    else if samePage site.point target then return pageCode 0x01 target
    else return longCode 0x02 target

/-- The shortest call that reaches. -/
def encodeAnyCall (site : Site) (op : Operand) : Attempt Code := do
  let target ← op.target site.settings site.point
  if samePage site.point target then return pageCode 0x11 target else return longCode 0x12 target

/-- The two values of a comparison. -/
def comparison (left right : Operand) : Attempt Code :=
  if left.isReservedAs .a then
    (do return [0xb4, ← right.immediate]) <|> (do return [0xb5, ← right.direct])
  else do
    let data ← right.immediate
    (do return [withLow 0xb6 (← left.pointer), data])
      <|> (do return [withLow 0xb8 (← left.register), data])

/-- The counter of a counting loop. -/
def counter (op : Operand) : Attempt Code :=
  (do return [withLow 0xd8 (← op.register)]) <|> (do return [0xd5, ← op.direct])

/-! ## Moves -/

/-- The sources of a register or of a byte it points to. -/
def moveToRegister (accumulatorOp directOp immediateOp : UInt8) (src : Operand) : Attempt Code :=
  if src.isReservedAs .a then .done [accumulatorOp]
  else (do return [directOp, ← src.direct]) <|> (do return [immediateOp, ← src.immediate])

/-- The sources of a byte in memory. -/
def moveToDirect (address : UInt8) (src : Operand) : Attempt Code :=
  if src.isReservedAs .a then .done [0xf5, address]
  else
    (do return [0x75, address, ← src.immediate])
      <|> (do return [0x85, ← src.direct, address])
      <|> (do return [withLow 0x86 (← src.pointer), address])
      <|> (do return [withLow 0x88 (← src.register), address])

/-- All moves within the processor. -/
def encodeMove (dst src : Operand) : Attempt Code :=
  if dst.isReservedAs .a then source 0x74 0xe5 0xe6 0xe8 src
  else if dst.isReservedAs .c then do return [0xa2, ← src.bit]
  else if dst.isReservedAs .dptr then do return 0x90 :: (← src.immediateWord)
  else
    dst.register.cases
      (fun n => moveToRegister (withLow 0xf8 n) (withLow 0xa8 n) (withLow 0x78 n) src) fun _ =>
    dst.pointer.cases
      (fun i => moveToRegister (withLow 0xf6 i) (withLow 0xa6 i) (withLow 0x76 i) src) fun _ =>
    if src.isReservedAs .c then do return [0x92, ← dst.bit]
    else do moveToDirect (← dst.direct) src

/-- Reads of code memory. -/
def encodeMoveCode (dst src : Operand) : Attempt Code :=
  if !dst.isReservedAs .a then .mismatch
  else if src.pointsTo .aDptr then .done [0x93]
  else if src.pointsTo .aPc then .done [0x83]
  else .mismatch

/-- Moves from and to external memory. -/
def encodeMoveExternal (dst src : Operand) : Attempt Code :=
  if dst.isReservedAs .a then
    if src.pointsTo .dptr then .done [0xe0] else do return [withLow 0xe2 (← src.pointer)]
  else if !src.isReservedAs .a then .mismatch
  else if dst.pointsTo .dptr then .done [0xf0]
  else do return [withLow 0xf2 (← dst.pointer)]

/-! ## All families -/

/-- Encodes an instruction of the family. -/
def encode (site : Site) (ops : List Operand) : Family → Attempt Code
  | .fixed opcode => .done [opcode]
  | .arithmetic base => accumulatorSource site base ops
  | .multiplicative opcode => encodeImplied site .ab "ab" opcode ops
  | .logical base carry => encodeLogical site base carry ops
  | .bitwise acc carry bitOp => encodeBitwise acc carry bitOp ops
  | .counting base dptr => encodeCounting base dptr ops
  | .accumulator opcode => encodeImplied site .a "a" opcode ops
  | .stack opcode => match ops with
    | [op] => do return [opcode, ← op.direct]
    | _ => .mismatch
  | .pageJump opcode => match ops with
    | [op] => encodePageJump site opcode op
    | _ => .mismatch
  | .longJump opcode => match ops with
    | [op] => encodeLongJump site opcode op
    | _ => .mismatch
  | .shortJump opcode => match ops with
    | [op] => withDistance site [opcode] op
    | _ => .mismatch
  | .anyJump => match ops with
    | [op] => encodeAnyJump site op
    | _ => .mismatch
  | .anyCall => match ops with
    | [op] => encodeAnyCall site op
    | _ => .mismatch
  | .bitJump opcode => match ops with
    | [bitOp, op] => do withDistance site [opcode, ← bitOp.bit] op
    | _ => .mismatch
  | .compareJump => match ops with
    | [left, right, op] => do withDistance site (← comparison left right) op
    | _ => .mismatch
  | .countJump => match ops with
    | [counterOp, op] => do withDistance site (← counter counterOp) op
    | _ => .mismatch
  | .move => match ops with
    | [dst, src] => encodeMove dst src
    | _ => .mismatch
  | .moveCode => match ops with
    | [dst, src] => encodeMoveCode dst src
    | _ => .mismatch
  | .moveExternal => match ops with
    | [dst, src] => encodeMoveExternal dst src
    | _ => .mismatch
  | .exchange => match ops with
    | [dst, src] => if dst.isReservedAs .a then location 0xc5 0xc6 0xc8 src else .mismatch
    | _ => .mismatch
  | .exchangeDigit => match ops with
    | [dst, src] =>
      if dst.isReservedAs .a then do return [withLow 0xd6 (← src.pointer)] else .mismatch
    | _ => .mismatch

/-- The encoding depends on the address of the instruction. -/
def isPositionSensitive : Family → Bool
  | .pageJump _ | .longJump _ | .shortJump _ | .anyJump | .anyCall | .bitJump _ | .compareJump
  | .countJump => true
  | _ => false

end Family
end Mcs51
