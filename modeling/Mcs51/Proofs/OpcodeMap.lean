import Mcs51.Instruction.Field

/-!
# The opcode map of the 8051

What a processor makes of the bytes of an instruction. The map gives each opcode its instruction
and says where the operands lie: in the opcode itself, or in the bytes after it. It is written down
by the halves of an opcode, the low half choosing a column, and does not look at how instructions
are encoded.

* `Machine.decode` — the instruction in a sequence of bytes, all of which belong to it
* `Machine.shape?_isSome_iff` — the only opcode without an instruction is `0xa5`
* `Machine.length_of_decode` — an instruction has the number of bytes that its opcode says
* `Machine.Reads` — the bytes that the operands of an instruction take up
-/

namespace Mcs51.Machine

/-! ## The map -/

/-- What an operand of a machine instruction is, and by that where its value lies. -/
inductive Slot where
  | a
  | c
  | ab
  | dptr
  /-- The register in the three low bits of the opcode. -/
  | register
  /-- The register in the lowest bit of the opcode, as a pointer. -/
  | pointer
  | atDptr
  | atADptr
  | atAPc
  | direct
  | bit
  | negatedBit
  | immediate
  /-- Two bytes, the high one first. -/
  | immediateWord
  /-- A signed distance from the next instruction. -/
  | relative
  /-- An address in the page of the next instruction; its high bits are those of the opcode. -/
  | page
  /-- A full code address, the high byte first. -/
  | long
  deriving Repr, DecidableEq

/-- The number of bytes of an operand after the opcode. -/
def Slot.size : Slot → Nat
  | .direct | .bit | .negatedBit | .immediate | .relative | .page => 1
  | .immediateWord | .long => 2
  | _ => 0

/-- An entry of the opcode map. -/
structure Shape where
  name : String
  slots : List Slot
  /-- The bytes of the last operand come first. -/
  swapped : Bool := false
  deriving Repr, DecidableEq

/-- The number of bytes of operands. -/
def slotsSize : List Slot → Nat
  | [] => 0
  | slot :: slots => slot.size + slotsSize slots

/-- The number of bytes of an instruction. -/
def Shape.length (shape : Shape) : Nat := 1 + slotsSize shape.slots

/-- An entry whose operands stand in the order of their bytes. -/
def entry (name : String) (slots : List Slot) : Option Shape := some ⟨name, slots, false⟩

/-- A column for one kind of operand. Those of its entries that differ in more than the operand
from one kind to another are given. -/
def operandColumn (operand : Slot) (fromImmediate toDirect toOperand compare loop : Option Shape) :
    List (Option Shape) :=
  [entry "inc" [operand], entry "dec" [operand], entry "add" [.a, operand],
   entry "addc" [.a, operand], entry "orl" [.a, operand], entry "anl" [.a, operand],
   entry "xrl" [.a, operand], fromImmediate, toDirect, entry "subb" [.a, operand], toOperand,
   compare, entry "xch" [.a, operand], loop, entry "mov" [.a, operand], entry "mov" [operand, .a]]

/-- The columns of the map, each by the high half of the opcode. -/
def column : Nat → List (Option Shape)
  | 0 =>
    [entry "nop" [], entry "jbc" [.bit, .relative], entry "jb" [.bit, .relative],
     entry "jnb" [.bit, .relative], entry "jc" [.relative], entry "jnc" [.relative],
     entry "jz" [.relative], entry "jnz" [.relative], entry "sjmp" [.relative],
     entry "mov" [.dptr, .immediateWord], entry "orl" [.c, .negatedBit],
     entry "anl" [.c, .negatedBit], entry "push" [.direct], entry "pop" [.direct],
     entry "movx" [.a, .atDptr], entry "movx" [.atDptr, .a]]
  | 1 => (List.replicate 8 [entry "ajmp" [.page], entry "acall" [.page]]).flatten
  | 2 =>
    [entry "ljmp" [.long], entry "lcall" [.long], entry "ret" [], entry "reti" [],
     entry "orl" [.direct, .a], entry "anl" [.direct, .a], entry "xrl" [.direct, .a],
     entry "orl" [.c, .bit], entry "anl" [.c, .bit], entry "mov" [.bit, .c],
     entry "mov" [.c, .bit], entry "cpl" [.bit], entry "clr" [.bit], entry "setb" [.bit],
     entry "movx" [.a, .pointer], entry "movx" [.pointer, .a]]
  | 3 =>
    [entry "rr" [.a], entry "rrc" [.a], entry "rl" [.a], entry "rlc" [.a],
     entry "orl" [.direct, .immediate], entry "anl" [.direct, .immediate],
     entry "xrl" [.direct, .immediate], entry "jmp" [.atADptr], entry "movc" [.a, .atAPc],
     entry "movc" [.a, .atADptr], entry "inc" [.dptr], entry "cpl" [.c], entry "clr" [.c],
     entry "setb" [.c], entry "movx" [.a, .pointer], entry "movx" [.pointer, .a]]
  | 4 =>
    [entry "inc" [.a], entry "dec" [.a], entry "add" [.a, .immediate],
     entry "addc" [.a, .immediate], entry "orl" [.a, .immediate], entry "anl" [.a, .immediate],
     entry "xrl" [.a, .immediate], entry "mov" [.a, .immediate], entry "div" [.ab],
     entry "subb" [.a, .immediate], entry "mul" [.ab], entry "cjne" [.a, .immediate, .relative],
     entry "swap" [.a], entry "da" [.a], entry "clr" [.a], entry "cpl" [.a]]
  | 5 =>
    operandColumn .direct (entry "mov" [.direct, .immediate])
      (some ⟨"mov", [.direct, .direct], true⟩) none (entry "cjne" [.a, .direct, .relative])
      (entry "djnz" [.direct, .relative])
  | 6 | 7 =>
    operandColumn .pointer (entry "mov" [.pointer, .immediate]) (entry "mov" [.direct, .pointer])
      (entry "mov" [.pointer, .direct]) (entry "cjne" [.pointer, .immediate, .relative])
      (entry "xchd" [.a, .pointer])
  | _ =>
    operandColumn .register (entry "mov" [.register, .immediate])
      (entry "mov" [.direct, .register]) (entry "mov" [.register, .direct])
      (entry "cjne" [.register, .immediate, .relative]) (entry "djnz" [.register, .relative])

/-- The entry of an opcode. -/
def shape? (opcode : UInt8) : Option Shape :=
  (column (opcode.toNat % 16))[opcode.toNat / 16]?.join

/-- The only opcode without an instruction is `0xa5`. -/
theorem shape?_isSome_iff (opcode : UInt8) : (shape? opcode).isSome ↔ opcode ≠ 0xa5 := by
  have hall : ∀ n < 256, (shape? (UInt8.ofNat n)).isSome ↔ UInt8.ofNat n ≠ 0xa5 := by
    decide +kernel
  have h := hall opcode.toNat opcode.toNat_lt
  rwa [UInt8.ofNat_toNat] at h

/-- What holds of all entries of the map holds of the entry of an opcode. -/
theorem of_shape? {P : Shape → Prop} (hall : ∀ k < 256, ∀ shape ∈ shape? (UInt8.ofNat k), P shape)
    {opcode : UInt8} {shape : Shape} (h : shape? opcode = some shape) : P shape :=
  hall opcode.toNat opcode.toNat_lt shape (by rw [UInt8.ofNat_toNat]; exact h)

/-! ## Decoding -/

/-- An operand of a decoded instruction. -/
inductive Value where
  | a
  | c
  | ab
  | dptr
  | register (n : Nat)
  | pointer (n : Nat)
  | atDptr
  | atADptr
  | atAPc
  | direct (address : UInt8)
  | bit (address : UInt8)
  | negatedBit (address : UInt8)
  | immediate (byte : UInt8)
  | immediateWord (word : Nat)
  | relative (distance : UInt8)
  | page (offset : Nat)
  | long (address : Nat)
  deriving Repr, DecidableEq

/-- The value of an operand, and the bytes after it. -/
def Slot.read (opcode : UInt8) : Slot → List UInt8 → Option (Value × List UInt8)
  | .a, bytes => some (.a, bytes)
  | .c, bytes => some (.c, bytes)
  | .ab, bytes => some (.ab, bytes)
  | .dptr, bytes => some (.dptr, bytes)
  | .register, bytes => some (.register (opcode.toNat % 8), bytes)
  | .pointer, bytes => some (.pointer (opcode.toNat % 2), bytes)
  | .atDptr, bytes => some (.atDptr, bytes)
  | .atADptr, bytes => some (.atADptr, bytes)
  | .atAPc, bytes => some (.atAPc, bytes)
  | .direct, b :: bytes => some (.direct b, bytes)
  | .bit, b :: bytes => some (.bit b, bytes)
  | .negatedBit, b :: bytes => some (.negatedBit b, bytes)
  | .immediate, b :: bytes => some (.immediate b, bytes)
  | .immediateWord, high :: low :: bytes =>
    some (.immediateWord (high.toNat * 256 + low.toNat), bytes)
  | .relative, b :: bytes => some (.relative b, bytes)
  | .page, b :: bytes => some (.page (opcode.toNat / 32 * 256 + b.toNat), bytes)
  | .long, high :: low :: bytes => some (.long (high.toNat * 256 + low.toNat), bytes)
  | _, _ => none

/-- The values of operands that take up all the bytes. -/
def readSlots (opcode : UInt8) : List Slot → List UInt8 → Option (List Value)
  | [], [] => some []
  | [], _ :: _ => none
  | slot :: slots, bytes => do
    let (value, rest) ← slot.read opcode bytes
    let values ← readSlots opcode slots rest
    return value :: values

/-- An instruction as the processor reads it. -/
structure Decoded where
  name : String
  operands : List Value
  deriving Repr, DecidableEq

/-- The instruction that consists of the given bytes. -/
def decode : List UInt8 → Option Decoded
  | [] => none
  | opcode :: bytes => do
    let shape ← shape? opcode
    let values ← readSlots opcode shape.slots bytes
    return ⟨shape.name, if shape.swapped then values.reverse else values⟩

theorem decode_cons {opcode : UInt8} {bytes : List UInt8} {shape : Shape} {values : List Value}
    (hshape : shape? opcode = some shape)
    (hread : readSlots opcode shape.slots bytes = some values) :
    decode (opcode :: bytes) =
      some ⟨shape.name, if shape.swapped then values.reverse else values⟩ := by
  simp only [decode, hshape, hread, Option.bind_eq_bind, Option.bind_some, Option.pure_def]

/-! ## Lengths -/

theorem Slot.length_of_read {opcode : UInt8} {slot : Slot} {bytes rest : List UInt8}
    {value : Value} (h : slot.read opcode bytes = some (value, rest)) :
    bytes.length = slot.size + rest.length := by
  unfold Slot.read at h
  split at h <;> cases h <;> simp only [Slot.size, List.length_cons] <;> omega

theorem length_of_readSlots {opcode : UInt8} :
    ∀ {slots : List Slot} {bytes : List UInt8} {values : List Value},
      readSlots opcode slots bytes = some values → bytes.length = slotsSize slots
  | [], [], _, _ => rfl
  | slot :: slots, bytes, values, h => by
    simp only [readSlots, Option.bind_eq_bind, Option.bind_eq_some_iff] at h
    obtain ⟨⟨value, rest⟩, hread, rest', hrest, _⟩ := h
    rw [Slot.length_of_read hread, length_of_readSlots hrest, slotsSize]

/-- **An instruction has the number of bytes that its opcode says.** -/
theorem length_of_decode {code : List UInt8} {m : Decoded} (h : decode code = some m) :
    ∃ opcode shape, code.head? = some opcode ∧ shape? opcode = some shape ∧
      shape.name = m.name ∧ code.length = shape.length := by
  cases code with
  | nil => cases h
  | cons opcode bytes =>
    simp only [decode, Option.bind_eq_bind, Option.bind_eq_some_iff] at h
    obtain ⟨shape, hshape, values, hread, hm⟩ := h
    cases hm
    refine ⟨opcode, shape, rfl, hshape, rfl, ?_⟩
    rw [List.length_cons, length_of_readSlots hread, Shape.length]
    omega

/-! ## Bytes of operands -/

/-- The bytes hold operands of the given kinds with the given values. -/
inductive Reads (opcode : UInt8) : List Slot → List UInt8 → List Value → Prop
  | nil : Reads opcode [] [] []
  | a {slots bytes values} : Reads opcode slots bytes values →
    Reads opcode (.a :: slots) bytes (.a :: values)
  | c {slots bytes values} : Reads opcode slots bytes values →
    Reads opcode (.c :: slots) bytes (.c :: values)
  | ab {slots bytes values} : Reads opcode slots bytes values →
    Reads opcode (.ab :: slots) bytes (.ab :: values)
  | dptr {slots bytes values} : Reads opcode slots bytes values →
    Reads opcode (.dptr :: slots) bytes (.dptr :: values)
  | register {slots bytes values} : Reads opcode slots bytes values →
    Reads opcode (.register :: slots) bytes (.register (opcode.toNat % 8) :: values)
  | pointer {slots bytes values} : Reads opcode slots bytes values →
    Reads opcode (.pointer :: slots) bytes (.pointer (opcode.toNat % 2) :: values)
  | atDptr {slots bytes values} : Reads opcode slots bytes values →
    Reads opcode (.atDptr :: slots) bytes (.atDptr :: values)
  | atADptr {slots bytes values} : Reads opcode slots bytes values →
    Reads opcode (.atADptr :: slots) bytes (.atADptr :: values)
  | atAPc {slots bytes values} : Reads opcode slots bytes values →
    Reads opcode (.atAPc :: slots) bytes (.atAPc :: values)
  | direct {slots bytes values} (b : UInt8) : Reads opcode slots bytes values →
    Reads opcode (.direct :: slots) (b :: bytes) (.direct b :: values)
  | bit {slots bytes values} (b : UInt8) : Reads opcode slots bytes values →
    Reads opcode (.bit :: slots) (b :: bytes) (.bit b :: values)
  | negatedBit {slots bytes values} (b : UInt8) : Reads opcode slots bytes values →
    Reads opcode (.negatedBit :: slots) (b :: bytes) (.negatedBit b :: values)
  | immediate {slots bytes values} (b : UInt8) : Reads opcode slots bytes values →
    Reads opcode (.immediate :: slots) (b :: bytes) (.immediate b :: values)
  | immediateWord {slots bytes values} (high low : UInt8) : Reads opcode slots bytes values →
    Reads opcode (.immediateWord :: slots) (high :: low :: bytes)
      (.immediateWord (high.toNat * 256 + low.toNat) :: values)
  | relative {slots bytes values} (b : UInt8) : Reads opcode slots bytes values →
    Reads opcode (.relative :: slots) (b :: bytes) (.relative b :: values)
  | page {slots bytes values} (b : UInt8) : Reads opcode slots bytes values →
    Reads opcode (.page :: slots) (b :: bytes)
      (.page (opcode.toNat / 32 * 256 + b.toNat) :: values)
  | long {slots bytes values} (high low : UInt8) : Reads opcode slots bytes values →
    Reads opcode (.long :: slots) (high :: low :: bytes)
      (.long (high.toNat * 256 + low.toNat) :: values)

theorem Reads.of_readSlots {opcode : UInt8} :
    ∀ {slots : List Slot} {bytes : List UInt8} {values : List Value},
      readSlots opcode slots bytes = some values → Reads opcode slots bytes values
  | [], [], _, h => Option.some.inj h ▸ .nil
  | slot :: slots, bytes, values, h => by
    simp only [readSlots, Option.bind_eq_bind, Option.bind_eq_some_iff] at h
    obtain ⟨⟨value, rest⟩, hread, tail, htail, hvalues⟩ := h
    cases hvalues
    have hrest := of_readSlots htail
    unfold Slot.read at hread
    split at hread <;> cases hread <;> constructor <;> exact hrest

/-- The bytes of an instruction suffice to read its operands. -/
theorem exists_readSlots (opcode : UInt8) :
    ∀ {slots : List Slot} {bytes : List UInt8}, bytes.length = slotsSize slots →
      ∃ values, readSlots opcode slots bytes = some values
  | [], [], _ => ⟨[], rfl⟩
  | slot :: slots, bytes, h => by
    have hread : ∃ value rest, slot.read opcode bytes = some (value, rest) := by
      cases slot
      case direct | bit | negatedBit | immediate | relative | page =>
        rcases bytes with _ | ⟨b, bytes⟩
        · simp only [slotsSize, Slot.size, List.length_nil] at h
          omega
        · exact ⟨_, _, rfl⟩
      case immediateWord | long =>
        rcases bytes with _ | ⟨b, _ | ⟨c, bytes⟩⟩
        · simp only [slotsSize, Slot.size, List.length_nil] at h
          omega
        · simp only [slotsSize, Slot.size, List.length_cons, List.length_nil] at h
          omega
        · exact ⟨_, _, rfl⟩
      all_goals exact ⟨_, _, rfl⟩
    obtain ⟨value, rest, hread⟩ := hread
    have hlength := Slot.length_of_read hread
    rw [h, slotsSize] at hlength
    obtain ⟨values, hvalues⟩ := @exists_readSlots opcode slots rest (by omega)
    refine ⟨value :: values, ?_⟩
    simp only [readSlots, hread, hvalues, Option.bind_eq_bind, Option.bind_some, Option.pure_def]

theorem Reads.length_eq {opcode : UInt8} {slots : List Slot} {bytes : List UInt8}
    {values : List Value} (h : Reads opcode slots bytes values) :
    values.length = slots.length := by
  induction h with
  | nil => rfl
  | _ => simp only [List.length_cons, *]

/-! ## Code addresses -/

/-- A byte as a signed number. -/
def signed (b : UInt8) : Int := if b.toNat < 128 then b.toNat else (b.toNat : Int) - 256

/-- The code address that an operand leads to, where `next` is the address of the next
instruction. Code addresses have 16 bits, a page 11. -/
def Value.target? (next : Nat) : Value → Option Nat
  | .relative distance => some ((next + signed distance) % 65536).toNat
  | .page offset => some (next % 65536 / 2048 * 2048 + offset)
  | .long address => some address
  | _ => none

/-- The distance leads to a code address from the address of the next instruction. -/
def LeadsToCode (next : Nat) (distance : UInt8) : Prop :=
  0 ≤ next + signed distance ∧ next + signed distance ≤ 0xffff

/-- The distances in an instruction lead to code addresses. -/
def Decoded.InReach (machine : Decoded) (next : Nat) : Prop :=
  ∀ d, .relative d ∈ machine.operands → LeadsToCode next d

end Mcs51.Machine
