import Mcs51.Instruction.Family

/-!
# The instruction set

Each instruction has a name, bounds on the number of its operands, and a family. Some operands can
be read in two ways: `A` is also the byte `0xe0`, `C` the bit `0xd7`, and a register a byte of the
selected bank. Encoding tries the operands as they are written first, then with more and more of
them replaced; the first reading that encodes is taken. If none does, the findings of the first
reading are reported.
-/

namespace Mcs51

/-- An instruction of the 8051. -/
structure Instruction where
  name : String
  /-- The fewest operands it accepts. -/
  fewest : Nat
  /-- The most operands it uses; more are trailing. -/
  most : Nat
  family : Family
  deriving Repr, DecidableEq

namespace Instruction

/-- All instructions, by name. -/
def all : List Instruction :=
  [⟨"acall", 1, 1, .pageJump 0x11⟩,
   ⟨"add", 1, 2, .arithmetic 0x20⟩,
   ⟨"addc", 1, 2, .arithmetic 0x30⟩,
   ⟨"ajmp", 1, 1, .pageJump 0x01⟩,
   ⟨"anl", 1, 2, .logical 0x50 (some (0x82, 0xb0))⟩,
   ⟨"call", 1, 1, .anyCall⟩,
   ⟨"cjne", 3, 3, .compareJump⟩,
   ⟨"clr", 1, 1, .bitwise (some 0xe4) 0xc3 0xc2⟩,
   ⟨"cpl", 1, 1, .bitwise (some 0xf4) 0xb3 0xb2⟩,
   ⟨"da", 0, 1, .accumulator 0xd4⟩,
   ⟨"dec", 1, 1, .counting 0x10 none⟩,
   ⟨"div", 0, 1, .multiplicative 0x84⟩,
   ⟨"djnz", 2, 2, .countJump⟩,
   ⟨"inc", 1, 1, .counting 0x00 (some 0xa3)⟩,
   ⟨"jb", 2, 2, .bitJump 0x20⟩,
   ⟨"jbc", 2, 2, .bitJump 0x10⟩,
   ⟨"jc", 1, 1, .shortJump 0x40⟩,
   ⟨"jmp", 1, 1, .anyJump⟩,
   ⟨"jnb", 2, 2, .bitJump 0x30⟩,
   ⟨"jnc", 1, 1, .shortJump 0x50⟩,
   ⟨"jnz", 1, 1, .shortJump 0x70⟩,
   ⟨"jz", 1, 1, .shortJump 0x60⟩,
   ⟨"lcall", 1, 1, .longJump 0x12⟩,
   ⟨"ljmp", 1, 1, .longJump 0x02⟩,
   ⟨"mov", 2, 2, .move⟩,
   ⟨"movc", 2, 2, .moveCode⟩,
   ⟨"movx", 2, 2, .moveExternal⟩,
   ⟨"mul", 0, 1, .multiplicative 0xa4⟩,
   ⟨"nop", 0, 0, .fixed 0x00⟩,
   ⟨"orl", 1, 2, .logical 0x40 (some (0x72, 0xa0))⟩,
   ⟨"pop", 1, 1, .stack 0xd0⟩,
   ⟨"push", 1, 1, .stack 0xc0⟩,
   ⟨"ret", 0, 0, .fixed 0x22⟩,
   ⟨"reti", 0, 0, .fixed 0x32⟩,
   ⟨"rl", 0, 1, .accumulator 0x23⟩,
   ⟨"rlc", 0, 1, .accumulator 0x33⟩,
   ⟨"rr", 0, 1, .accumulator 0x03⟩,
   ⟨"rrc", 0, 1, .accumulator 0x13⟩,
   ⟨"setb", 1, 1, .bitwise none 0xd3 0xd2⟩,
   ⟨"sjmp", 1, 1, .shortJump 0x80⟩,
   ⟨"subb", 1, 2, .arithmetic 0x90⟩,
   ⟨"swap", 0, 1, .accumulator 0xc4⟩,
   ⟨"xch", 2, 2, .exchange⟩,
   ⟨"xchd", 2, 2, .exchangeDigit⟩,
   ⟨"xrl", 1, 2, .logical 0x60 none⟩]

/-- The instruction of a name. -/
def find? (name : Text) : Option Instruction :=
  all.find? fun i => Text.ofString i.name == name

/-- The encoding depends on the address of the instruction. -/
def isPositionSensitive (i : Instruction) : Bool := i.family.isPositionSensitive

/-! ## Second readings -/

/-- The second reading of an operand. -/
inductive Second where
  | none
  /-- The operand as a direct address. -/
  | direct (op : Operand)
  /-- A register that has no address because no bank is selected. -/
  | unbanked
  deriving Repr, DecidableEq

/-- The second reading of an operand under the settings. -/
def second (settings : Settings) (op : Operand) : Second :=
  match op.form with
  | .reserved .a => .direct (op.withAddress SpecialRegister.accumulator .byte)
  | .reserved .c => .direct (op.withAddress SpecialRegister.carry .bit)
  | .reserved (.r n) =>
    if n ≤ 7 then
      match op.asAddress settings.bank with
      | .ok address => .direct (op.withAddress address .byte)
      | .error _ => .unbanked
    else .none
  | _ => .none

/-- All choices of readings for the operands, as written first; of two choices that agree in the
later operands, the one with the first reading of the earlier operand comes first. -/
def readings (settings : Settings) : List Operand → List (List Operand)
  | [] => [[]]
  | op :: ops =>
    match second settings op with
    | .direct other => (readings settings ops).flatMap fun rest => [op :: rest, other :: rest]
    | _ => (readings settings ops).map (op :: ·)

/-- The findings about operands that no reading encodes, when the first reading has none. -/
def refusal (i : Instruction) (site : Site) (ops : List Operand) : List Finding :=
  let unbanked := ops.filter fun op => second site.settings op == .unbanked
  if unbanked.isEmpty then
    [.error (.badOperands i.name) site.name.name site.name.position]
  else unbanked.map fun op => .error (.noBank op.name) op.text op.position

/-- Encodes the first reading of the operands that can be encoded. -/
def encodeReadings (i : Instruction) (site : Site) (ops : List Operand) : Attempt Code :=
  match (readings site.settings ops).find? fun ops => (i.family.encode site ops).succeeds with
  | some reading => i.family.encode site reading
  | none =>
    let first := (i.family.encode site ops).findings
    ⟨none, if first.isEmpty then i.refusal site ops else first⟩

/-- Encodes an instruction at a site. -/
def encode (i : Instruction) (site : Site) (ops : List Operand) : Attempt Code :=
  match ops.find? fun op => !op.isResolved with
  | some op => op.fail (.unresolved op.symbolName)
  | none =>
    if ops.length < i.fewest then
      .fail (.error (.tooFewOperands i.name i.fewest) site.name.name site.name.position)
    else match ops[i.most]? with
      | none => i.encodeReadings site ops
      | some extra => do
        site.settings.take .trailingOperand (.trailingOperand i.name) extra.text extra.position
        i.encodeReadings site (ops.take i.most)

end Instruction
end Mcs51
