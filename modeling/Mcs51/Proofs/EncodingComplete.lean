import Mcs51.Proofs.EncodingSound
import Mcs51.Proofs.WrittenOperands

/-!
# Completeness of the encoding

Every instruction of the opcode map can be written. Its operands are written down one by one, in the
order of the map, and the instruction of its name encodes them to the bytes it was read from,
without a finding. Which opcode a family takes depends on the kinds of the operands only, so the
opcodes of all families are compared with the map once.

* `Family.opcode?` — the opcode of a family for operands of given kinds
* `Family.encode_written` — a family gives written operands their bytes
* `Instruction.exists_opcode` — every opcode of the map belongs to an instruction
* `Instruction.exists_encode` — every machine instruction can be written
-/

namespace Mcs51

open Machine (Value Slot shape? decode readSlots)

/-! ## The opcodes of a family -/

namespace Family

/-- The opcode for a byte in memory or a register, with the number that `like` has in its low
bits. -/
def locationOpcode? (directOp pointerOp registerOp like : UInt8) : Slot → Option UInt8
  | .direct => some directOp
  | .pointer => some (withLow pointerOp (like.toNat % 2).toUInt8)
  | .register => some (withLow registerOp (like.toNat % 8).toUInt8)
  | _ => none

/-- The opcode for a source of `A`. -/
def sourceOpcode? (immediateOp directOp pointerOp registerOp like : UInt8) : Slot → Option UInt8
  | .immediate => some immediateOp
  | slot => locationOpcode? directOp pointerOp registerOp like slot

/-- The opcode for a source of `A` in the order that most instructions share. -/
def sourceOfOpcode? (base like : UInt8) (slot : Slot) : Option UInt8 :=
  sourceOpcode? (base ||| 0x04) (base ||| 0x05) (base ||| 0x06) (base ||| 0x08) like slot

/-- The opcode for a source of a register or of a byte it points to. -/
def moveToRegisterOpcode? (accumulatorOp directOp immediateOp low : UInt8) : Slot → Option UInt8
  | .a => some (withLow accumulatorOp low)
  | .direct => some (withLow directOp low)
  | .immediate => some (withLow immediateOp low)
  | _ => none

def logicalOpcode? (base : UInt8) (carry : Option (UInt8 × UInt8)) (like : UInt8) :
    List Slot → Option UInt8
  | [.a, slot] => sourceOfOpcode? base like slot
  | [.c, .bit] => carry.map Prod.fst
  | [.c, .negatedBit] => carry.map Prod.snd
  | [.direct, .a] => some (base ||| 0x02)
  | [.direct, .immediate] => some (base ||| 0x03)
  | _ => none

def bitwiseOpcode? (acc : Option UInt8) (carry bitOp : UInt8) : List Slot → Option UInt8
  | [.a] => acc
  | [.c] => some carry
  | [.bit] => some bitOp
  | _ => none

def countingOpcode? (base : UInt8) (dptr : Option UInt8) (like : UInt8) :
    List Slot → Option UInt8
  | [.a] => some (base ||| 0x04)
  | [.dptr] => dptr
  | [slot] => locationOpcode? (base ||| 0x05) (base ||| 0x06) (base ||| 0x08) like slot
  | _ => none

def comparisonOpcode? (like : UInt8) : List Slot → Option UInt8
  | [.a, .immediate, .relative] => some 0xb4
  | [.a, .direct, .relative] => some 0xb5
  | [.pointer, .immediate, .relative] => some (withLow 0xb6 (like.toNat % 2).toUInt8)
  | [.register, .immediate, .relative] => some (withLow 0xb8 (like.toNat % 8).toUInt8)
  | _ => none

def counterOpcode? (like : UInt8) : List Slot → Option UInt8
  | [.register, .relative] => some (withLow 0xd8 (like.toNat % 8).toUInt8)
  | [.direct, .relative] => some 0xd5
  | _ => none

/-- The opcode of a move. The move from one byte to another, whose operands are not in the order of
their bytes, is left out. -/
def moveOpcode? (like : UInt8) : List Slot → Option UInt8
  | [.a, slot] => sourceOpcode? 0x74 0xe5 0xe6 0xe8 like slot
  | [.c, .bit] => some 0xa2
  | [.dptr, .immediateWord] => some 0x90
  | [.register, slot] => moveToRegisterOpcode? 0xf8 0xa8 0x78 (like.toNat % 8).toUInt8 slot
  | [.pointer, slot] => moveToRegisterOpcode? 0xf6 0xa6 0x76 (like.toNat % 2).toUInt8 slot
  | [.bit, .c] => some 0x92
  | [.direct, .a] => some 0xf5
  | [.direct, .immediate] => some 0x75
  | [.direct, .pointer] => some (withLow 0x86 (like.toNat % 2).toUInt8)
  | [.direct, .register] => some (withLow 0x88 (like.toNat % 8).toUInt8)
  | _ => none

def moveExternalOpcode? (like : UInt8) : List Slot → Option UInt8
  | [.a, .atDptr] => some 0xe0
  | [.a, .pointer] => some (withLow 0xe2 (like.toNat % 2).toUInt8)
  | [.atDptr, .a] => some 0xf0
  | [.pointer, .a] => some (withLow 0xf2 (like.toNat % 2).toUInt8)
  | _ => none

/-- The opcode of a family for operands of the given kinds. The numbers and page bits that are part
of the opcode are those of `like`. -/
def opcode? (like : UInt8) (slots : List Slot) : Family → Option UInt8
  | .fixed opcode => if slots = [] then some opcode else none
  | .arithmetic base => match slots with
    | [.a, slot] => sourceOfOpcode? base like slot
    | _ => none
  | .multiplicative opcode => if slots = [.ab] then some opcode else none
  | .logical base carry => logicalOpcode? base carry like slots
  | .bitwise acc carry bitOp => bitwiseOpcode? acc carry bitOp slots
  | .counting base dptr => countingOpcode? base dptr like slots
  | .accumulator opcode => if slots = [.a] then some opcode else none
  | .stack opcode => if slots = [.direct] then some opcode else none
  | .pageJump opcode =>
    if slots = [.page] then some ((like.toNat / 32 * 32).toUInt8 ||| opcode) else none
  | .longJump opcode => if slots = [.long] then some opcode else none
  | .shortJump opcode => if slots = [.relative] then some opcode else none
  | .anyJump => if slots = [.atADptr] then some 0x73 else none
  | .anyCall => none
  | .bitJump opcode => if slots = [.bit, .relative] then some opcode else none
  | .compareJump => comparisonOpcode? like slots
  | .countJump => counterOpcode? like slots
  | .move => moveOpcode? like slots
  | .moveCode => match slots with
    | [.a, .atADptr] => some 0x93
    | [.a, .atAPc] => some 0x83
    | _ => none
  | .moveExternal => moveExternalOpcode? like slots
  | .exchange => match slots with
    | [.a, slot] => locationOpcode? 0xc5 0xc6 0xc8 like slot
    | _ => none
  | .exchangeDigit =>
    if slots = [.a, .pointer] then some (withLow 0xd6 (like.toNat % 2).toUInt8) else none

end Family

/-- **Every opcode of the map belongs to an instruction**: the one of its name has it for operands
of the same kinds. The exception is the move from one byte to another. -/
theorem Instruction.exists_opcode {opcode : UInt8} {shape : Machine.Shape}
    (h : shape? opcode = some shape) :
    (opcode = 0x85 ∧ shape = ⟨"mov", [.direct, .direct], true⟩) ∨ shape.swapped = false ∧
      ∃ i ∈ find? (Text.ofString shape.name),
        i.fewest ≤ shape.slots.length ∧ shape.slots.length ≤ i.most ∧
        i.family.opcode? opcode shape.slots = some opcode := by
  have hall : ∀ k < 256, ∀ shape ∈ shape? (UInt8.ofNat k),
      (UInt8.ofNat k = 0x85 ∧ shape = ⟨"mov", [.direct, .direct], true⟩) ∨
        shape.swapped = false ∧
        ∃ i ∈ find? (Text.ofString shape.name),
          i.fewest ≤ shape.slots.length ∧ shape.slots.length ≤ i.most ∧
          i.family.opcode? (UInt8.ofNat k) shape.slots = some (UInt8.ofNat k) := by
    -- the two tables are compared opcode by opcode
    decide +kernel
  have hopcode := hall opcode.toNat opcode.toNat_lt shape (by rw [UInt8.ofNat_toNat]; exact h)
  rwa [UInt8.ofNat_toNat] at hopcode

/-! ## Encoding written operands -/

namespace Family

open Machine (Reads LeadsToCode signed)
open Operand

section Written

variable {site : Site} {like opcode : UInt8} {slot : Slot} {slots : List Slot} {bytes : Code}
  {values : List Value} {next : Nat} {pos : Position}

/-- A register whose number is in an opcode. -/
theorem register_ofOpcode (like : UInt8) :
    ((Value.register (like.toNat % 8)).operand next pos).register
      = .done (like.toNat % 8).toUInt8 :=
  register_written (Nat.mod_lt _ (by decide))

theorem pointer_ofOpcode (like : UInt8) :
    ((Value.pointer (like.toNat % 2)).operand next pos).pointer
      = .done (like.toNat % 2).toUInt8 :=
  pointer_written (Nat.mod_lt _ (by decide))

theorem location_written {directOp pointerOp registerOp : UInt8}
    (h : locationOpcode? directOp pointerOp registerOp like slot = some opcode)
    (hread : Reads like [slot] bytes values) :
    ∃ value, values = [value] ∧ ∀ next pos,
      location directOp pointerOp registerOp (value.operand next pos)
        = .done (opcode :: bytes) := by
  unfold locationOpcode? at h
  split at h <;> cases h
  · cases hread with | direct b hread =>
    cases hread
    refine ⟨_, rfl, fun next pos => ?_⟩
    rw [location, direct_written]
    rfl
  · cases hread with | pointer hread =>
    cases hread
    refine ⟨_, rfl, fun next pos => ?_⟩
    rw [location, pointer_ofOpcode]
    rfl
  · cases hread with | register hread =>
    cases hread
    refine ⟨_, rfl, fun next pos => ?_⟩
    rw [location, register_ofOpcode]
    rfl

theorem source_written {immediateOp directOp pointerOp registerOp : UInt8}
    (h : sourceOpcode? immediateOp directOp pointerOp registerOp like slot = some opcode)
    (hread : Reads like [slot] bytes values) :
    ∃ value, values = [value] ∧ ∀ next pos,
      source immediateOp directOp pointerOp registerOp (value.operand next pos)
        = .done (opcode :: bytes) := by
  cases slot
  case immediate =>
    cases h
    cases hread with | immediate b hread =>
    cases hread
    refine ⟨_, rfl, fun next pos => ?_⟩
    rw [source, immediate_written]
    rfl
  case direct | pointer | register =>
    simp only [sourceOpcode?] at h
    obtain ⟨value, rfl, hlocation⟩ := location_written h hread
    refine ⟨value, rfl, fun next pos => ?_⟩
    have himmediate : (value.operand next pos).immediate = .mismatch := by
      cases hread
      rfl
    rw [source, himmediate, hlocation]
    rfl
  all_goals cases h

theorem accumulatorSource_written {base : UInt8}
    (h : sourceOfOpcode? base like slot = some opcode)
    (hread : Reads like [.a, slot] bytes values) :
    accumulatorSource site base (values.map (Value.operand next pos))
      = .done (opcode :: bytes) := by
  cases hread with | a hread =>
  obtain ⟨value, rfl, hsource⟩ := source_written h hread
  exact hsource next pos

theorem encodeLogical_written {base : UInt8} {carry : Option (UInt8 × UInt8)}
    (h : logicalOpcode? base carry like slots = some opcode)
    (hread : Reads like slots bytes values) :
    encodeLogical site base carry (values.map (Value.operand next pos))
      = .done (opcode :: bytes) := by
  unfold logicalOpcode? at h
  split at h
  · cases hread with | a hread =>
    obtain ⟨value, rfl, hsource⟩ := source_written h hread
    exact hsource next pos
  · obtain ⟨pair, rfl, rfl⟩ := Option.map_eq_some_iff.mp h
    cases hread with | c hread =>
    cases hread with | bit b hread =>
    cases hread
    simp only [List.map_cons, List.map_nil, encodeLogical, bit_written]
    rfl
  · obtain ⟨pair, rfl, rfl⟩ := Option.map_eq_some_iff.mp h
    cases hread with | c hread =>
    cases hread with | negatedBit b hread =>
    cases hread
    simp only [List.map_cons, List.map_nil, encodeLogical, negatedBit_written]
    rfl
  · cases h
    cases hread with | direct b hread =>
    cases hread with | a hread =>
    cases hread
    simp only [List.map_cons, List.map_nil, encodeLogical, direct_written]
    rfl
  · cases h
    cases hread with | direct b hread =>
    cases hread with | immediate d hread =>
    cases hread
    simp only [List.map_cons, List.map_nil, encodeLogical, direct_written, immediate_written]
    rfl
  · cases h

theorem encodeBitwise_written {acc : Option UInt8} {carry bitOp : UInt8}
    (h : bitwiseOpcode? acc carry bitOp slots = some opcode)
    (hread : Reads like slots bytes values) :
    encodeBitwise acc carry bitOp (values.map (Value.operand next pos))
      = .done (opcode :: bytes) := by
  unfold bitwiseOpcode? at h
  split at h
  · cases hread with | a hread =>
    cases hread
    rw [h]
    rfl
  · cases h
    cases hread with | c hread =>
    cases hread
    rfl
  · cases h
    cases hread with | bit b hread =>
    cases hread
    simp only [List.map_cons, List.map_nil, encodeBitwise, bit_written]
    rfl
  · cases h

theorem encodeCounting_written {base : UInt8} {dptr : Option UInt8}
    (h : countingOpcode? base dptr like slots = some opcode)
    (hread : Reads like slots bytes values) :
    encodeCounting base dptr (values.map (Value.operand next pos)) = .done (opcode :: bytes) := by
  unfold countingOpcode? at h
  split at h
  · cases h
    cases hread with | a hread =>
    cases hread
    rfl
  · cases hread with | dptr hread =>
    cases hread
    rw [h]
    rfl
  · next slot _ _ =>
    -- no location is taken for the accumulator or the data pointer, which are tried first
    obtain ⟨value, rfl, hlocation⟩ := location_written h hread
    cases slot <;> cases h <;> cases hread <;> exact hlocation next pos
  · cases h

/-! ### Jumps -/

/-- A distance that leads to a code address is given back. -/
theorem withDistance_written {code : Code} {d : UInt8} (hpoint : site.point.toNat < 0x10000)
    (hlength : code.length ≤ 2) (hnext : next = site.point.toNat + (code.length + 1))
    (hreach : LeadsToCode next d) :
    withDistance site code ((Value.relative d).operand next pos) = .done (code ++ [d]) := by
  obtain ⟨h0, hmax⟩ := hreach
  obtain ⟨t, ht⟩ := Int.eq_ofNat_of_zero_le h0
  have htarget : (Value.relative d).target? next = some t := by
    rw [Value.target?, ht, Option.some.injEq]
    omega
  have hdistance : distance (site.point + (code.length + 1).toUInt32) t.toUInt32 = signed d := by
    rw [distance, UInt32.toNat_add, Nat.toUInt32_eq, Nat.toUInt32_eq, UInt32.toNat_ofNat',
      UInt32.toNat_ofNat']
    omega
  have hd := d.toNat_lt
  have hshort : isShort (signed d) = true := by
    rw [isShort_iff, signed]
    split <;> omega
  have hlow : lowByte (signed d) = d := by
    rw [signed]
    split
    · exact lowByte_toNat d
    · have hwrap : lowByte (d.toNat - 256) = lowByte d.toNat := by
        unfold lowByte
        congr 2
        omega
      rw [hwrap, lowByte_toNat]
  simp only [withDistance, target_written htarget (by rw [wordLimit]; omega)]
  show (relative _ _ _ >>= _) = _
  simp only [relative, hdistance, hshort, hlow, if_pos]
  rfl

/-- The page bits of an address in the page of the next instruction are those of the opcode. -/
theorem encodePageJump_written {b opcode : UInt8} (hpoint : site.point.toNat < 0x10000)
    (hnext : next = site.point.toNat + 2) :
    encodePageJump site opcode
      ((Value.page (like.toNat / 32 * 256 + b.toNat)).operand next pos)
      = .done [(like.toNat / 32 * 32).toUInt8 ||| opcode, b] := by
  have hlike := like.toNat_lt
  have hb := b.toNat_lt
  obtain ⟨t, ht⟩ : ∃ t, t = next % 65536 / 2048 * 2048 + (like.toNat / 32 * 256 + b.toNat) :=
    ⟨_, rfl⟩
  have htarget : (Value.page (like.toNat / 32 * 256 + b.toNat)).target? next = some t := by
    rw [Value.target?, ht]
  have htoNat : t.toUInt32.toNat = t := by
    rw [Nat.toUInt32_eq, UInt32.toNat_ofNat']
    omega
  have hpage : samePage site.point t.toUInt32 = true := by
    rw [samePage, beq_iff_eq, ← UInt32.toNat_inj, toNat_pageOf, toNat_pageOf, UInt32.toNat_add,
      htoNat]
    simp only [UInt32.reduceToNat]
    omega
  have hcode : pageCode opcode t.toUInt32 = [(like.toNat / 32 * 32).toUInt8 ||| opcode, b] := by
    have hbits : t / 256 % 8 * 32 = like.toNat / 32 * 32 := by omega
    have hlow : t.toUInt32.toUInt8 = b := by
      apply UInt8.toNat_inj.mp
      rw [UInt32.toNat_toUInt8, htoNat]
      omega
    rw [pageCode, pageBits_eq, htoNat, hbits, hlow]
  simp only [encodePageJump, target_written htarget (by rw [wordLimit]; omega)]
  show (if samePage _ _ then _ else _) = _
  rw [hpage, if_pos rfl, hcode]
  rfl

theorem encodeLongJump_written {high low opcode : UInt8} :
    encodeLongJump site opcode
      ((Value.long (high.toNat * 256 + low.toNat)).operand next pos)
      = .done [opcode, high, low] := by
  have hhigh := high.toNat_lt
  have hlow := low.toNat_lt
  have htarget : (Value.long (high.toNat * 256 + low.toNat)).target? next
      = some (high.toNat * 256 + low.toNat) := rfl
  have hcode : longCode opcode (high.toNat * 256 + low.toNat).toUInt32 = [opcode, high, low] := by
    have htoNat : (high.toNat * 256 + low.toNat).toUInt32.toNat = high.toNat * 256 + low.toNat := by
      rw [Nat.toUInt32_eq, UInt32.toNat_ofNat']
      omega
    have h₁ : ((high.toNat * 256 + low.toNat).toUInt32 >>> 8).toUInt8 = high := by
      apply UInt8.toNat_inj.mp
      rw [UInt32.toNat_toUInt8, UInt32.toNat_shiftRight, htoNat, Nat.shiftRight_eq_div_pow]
      simp only [UInt32.reduceToNat, Nat.reduceMod]
      omega
    have h₂ : (high.toNat * 256 + low.toNat).toUInt32.toUInt8 = low := by
      apply UInt8.toNat_inj.mp
      rw [UInt32.toNat_toUInt8, htoNat]
      omega
    rw [longCode, h₁, h₂]
  simp only [encodeLongJump, target_written htarget (by rw [wordLimit]; omega)]
  show Attempt.done (longCode _ _) = _
  rw [hcode]

/-- What comes before the distance of a comparison. -/
theorem comparison_written
    (h : comparisonOpcode? like slots = some opcode) (hread : Reads like slots bytes values) :
    ∃ left right d data, values = [left, right, .relative d] ∧ bytes = [data, d] ∧
      ∀ next pos, comparison (left.operand next pos) (right.operand next pos)
        = .done [opcode, data] := by
  unfold comparisonOpcode? at h
  split at h <;> cases h
  · cases hread with | a hread =>
    cases hread with | immediate data hread =>
    cases hread with | relative d hread =>
    cases hread
    refine ⟨_, _, _, _, rfl, rfl, fun next pos => ?_⟩
    simp only [comparison, immediate_written]
    rfl
  · cases hread with | a hread =>
    cases hread with | direct data hread =>
    cases hread with | relative d hread =>
    cases hread
    refine ⟨_, _, _, _, rfl, rfl, fun next pos => ?_⟩
    simp only [comparison, direct_written]
    rfl
  · cases hread with | pointer hread =>
    cases hread with | immediate data hread =>
    cases hread with | relative d hread =>
    cases hread
    refine ⟨_, _, _, _, rfl, rfl, fun next pos => ?_⟩
    simp only [comparison, immediate_written, pointer_ofOpcode]
    rfl
  · cases hread with | register hread =>
    cases hread with | immediate data hread =>
    cases hread with | relative d hread =>
    cases hread
    refine ⟨_, _, _, _, rfl, rfl, fun next pos => ?_⟩
    simp only [comparison, immediate_written, register_ofOpcode]
    rfl

/-- What comes before the distance of a counting loop. -/
theorem counter_written
    (h : counterOpcode? like slots = some opcode) (hread : Reads like slots bytes values) :
    ∃ value d rest, values = [value, .relative d] ∧ bytes = rest ++ [d] ∧ rest.length ≤ 1 ∧
      ∀ next pos, counter (value.operand next pos) = .done (opcode :: rest) := by
  unfold counterOpcode? at h
  split at h <;> cases h
  · cases hread with | register hread =>
    cases hread with | relative d hread =>
    cases hread
    refine ⟨_, _, [], rfl, rfl, by decide, fun next pos => ?_⟩
    simp only [counter, register_ofOpcode]
    rfl
  · cases hread with | direct b hread =>
    cases hread with | relative d hread =>
    cases hread
    refine ⟨_, _, [b], rfl, rfl, by simp, fun next pos => ?_⟩
    simp only [counter, direct_written]
    rfl

/-! ### Moves -/

theorem moveToRegister_written {accumulatorOp directOp immediateOp low : UInt8}
    (h : moveToRegisterOpcode? accumulatorOp directOp immediateOp low slot = some opcode)
    (hread : Reads like [slot] bytes values) :
    ∃ value, values = [value] ∧ ∀ next pos,
      moveToRegister (withLow accumulatorOp low) (withLow directOp low) (withLow immediateOp low)
        (value.operand next pos) = .done (opcode :: bytes) := by
  unfold moveToRegisterOpcode? at h
  split at h <;> cases h
  · cases hread with | a hread =>
    cases hread
    exact ⟨_, rfl, fun next pos => rfl⟩
  · cases hread with | direct b hread =>
    cases hread
    refine ⟨_, rfl, fun next pos => ?_⟩
    simp only [moveToRegister, direct_written]
    rfl
  · cases hread with | immediate b hread =>
    cases hread
    refine ⟨_, rfl, fun next pos => ?_⟩
    simp only [moveToRegister, immediate_written]
    rfl

theorem encodeMove_written (h : moveOpcode? like slots = some opcode)
    (hread : Reads like slots bytes values) :
    ∃ dst src, values = [dst, src] ∧ ∀ next pos,
      encodeMove (dst.operand next pos) (src.operand next pos) = .done (opcode :: bytes) := by
  unfold moveOpcode? at h
  split at h
  · cases hread with | a hread =>
    obtain ⟨value, rfl, hsource⟩ := source_written h hread
    exact ⟨_, _, rfl, hsource⟩
  · cases h
    cases hread with | c hread =>
    cases hread with | bit b hread =>
    cases hread
    refine ⟨_, _, rfl, fun next pos => ?_⟩
    simp only [encodeMove, bit_written]
    rfl
  · cases h
    cases hread with | dptr hread =>
    cases hread with | immediateWord high low hread =>
    cases hread
    refine ⟨_, _, rfl, fun next pos => ?_⟩
    simp only [encodeMove, immediateWord_written]
    rfl
  · cases hread with | register hread =>
    obtain ⟨value, rfl, hmove⟩ := moveToRegister_written h hread
    refine ⟨_, _, rfl, fun next pos => ?_⟩
    rw [← hmove next pos]
    simp only [encodeMove, register_ofOpcode]
    rfl
  · cases hread with | pointer hread =>
    obtain ⟨value, rfl, hmove⟩ := moveToRegister_written h hread
    refine ⟨_, _, rfl, fun next pos => ?_⟩
    rw [← hmove next pos]
    simp only [encodeMove, pointer_ofOpcode]
    rfl
  · cases h
    cases hread with | bit b hread =>
    cases hread with | c hread =>
    cases hread
    refine ⟨_, _, rfl, fun next pos => ?_⟩
    simp only [encodeMove, bit_written]
    rfl
  · cases h
    cases hread with | direct b hread =>
    cases hread with | a hread =>
    cases hread
    refine ⟨_, _, rfl, fun next pos => ?_⟩
    simp only [encodeMove, moveToDirect, direct_written]
    rfl
  · cases h
    cases hread with | direct b hread =>
    cases hread with | immediate d hread =>
    cases hread
    refine ⟨_, _, rfl, fun next pos => ?_⟩
    simp only [encodeMove, moveToDirect, direct_written, immediate_written]
    rfl
  · cases h
    cases hread with | direct b hread =>
    cases hread with | pointer hread =>
    cases hread
    refine ⟨_, _, rfl, fun next pos => ?_⟩
    simp only [encodeMove, moveToDirect, direct_written, pointer_ofOpcode]
    rfl
  · cases h
    cases hread with | direct b hread =>
    cases hread with | register hread =>
    cases hread
    refine ⟨_, _, rfl, fun next pos => ?_⟩
    simp only [encodeMove, moveToDirect, direct_written, register_ofOpcode]
    rfl
  · cases h

/-- A move from one byte to another has the source first. -/
theorem encodeMove_directs (dst src : UInt8) :
    encodeMove ((Value.direct dst).operand next pos) ((Value.direct src).operand next pos)
      = .done [0x85, src, dst] := by
  simp only [encodeMove, moveToDirect, direct_written]
  rfl

theorem encodeMoveExternal_written (h : moveExternalOpcode? like slots = some opcode)
    (hread : Reads like slots bytes values) :
    ∃ dst src, values = [dst, src] ∧ ∀ next pos,
      encodeMoveExternal (dst.operand next pos) (src.operand next pos)
        = .done (opcode :: bytes) := by
  unfold moveExternalOpcode? at h
  split at h <;> cases h
  · cases hread with | a hread =>
    cases hread with | atDptr hread =>
    cases hread
    exact ⟨_, _, rfl, fun next pos => rfl⟩
  · cases hread with | a hread =>
    cases hread with | pointer hread =>
    cases hread
    refine ⟨_, _, rfl, fun next pos => ?_⟩
    simp only [encodeMoveExternal, pointer_ofOpcode]
    rfl
  · cases hread with | atDptr hread =>
    cases hread with | a hread =>
    cases hread
    exact ⟨_, _, rfl, fun next pos => rfl⟩
  · cases hread with | pointer hread =>
    cases hread with | a hread =>
    cases hread
    refine ⟨_, _, rfl, fun next pos => ?_⟩
    simp only [encodeMoveExternal, pointer_ofOpcode]
    rfl

/-! ### All families -/

/-- **A family gives written operands their bytes**, without a finding, where distances lead to
code addresses. -/
theorem encode_written {f : Family} (h : f.opcode? like slots = some opcode)
    (hread : Reads like slots bytes values) (hpoint : site.point.toNat < 0x10000)
    (hnext : next = site.point.toNat + (bytes.length + 1))
    (hreach : ∀ d, Value.relative d ∈ values → LeadsToCode next d) :
    f.encode site (values.map (Value.operand next pos)) = .done (opcode :: bytes) := by
  cases f with
  | fixed op =>
    obtain ⟨rfl, ⟨⟩⟩ := Option.ite_none_right_eq_some.mp h
    cases hread
    rfl
  | arithmetic base =>
    simp only [opcode?] at h
    split at h
    · exact accumulatorSource_written h hread
    · cases h
  | multiplicative op =>
    obtain ⟨rfl, ⟨⟩⟩ := Option.ite_none_right_eq_some.mp h
    cases hread with | ab hread =>
    cases hread
    rfl
  | logical base carry => exact encodeLogical_written h hread
  | bitwise acc carry bitOp => exact encodeBitwise_written h hread
  | counting base dptr => exact encodeCounting_written h hread
  | accumulator op =>
    obtain ⟨rfl, ⟨⟩⟩ := Option.ite_none_right_eq_some.mp h
    cases hread with | a hread =>
    cases hread
    rfl
  | stack op =>
    obtain ⟨rfl, ⟨⟩⟩ := Option.ite_none_right_eq_some.mp h
    cases hread with | direct b hread =>
    cases hread
    simp only [List.map_cons, List.map_nil, encode, direct_written]
    rfl
  | pageJump op =>
    obtain ⟨rfl, ⟨⟩⟩ := Option.ite_none_right_eq_some.mp h
    cases hread with | page b hread =>
    cases hread
    exact encodePageJump_written hpoint hnext
  | longJump op =>
    obtain ⟨rfl, ⟨⟩⟩ := Option.ite_none_right_eq_some.mp h
    cases hread with | long high low hread =>
    cases hread
    exact encodeLongJump_written
  | shortJump op =>
    obtain ⟨rfl, ⟨⟩⟩ := Option.ite_none_right_eq_some.mp h
    cases hread with | relative d hread =>
    cases hread
    exact withDistance_written hpoint (by simp) hnext (hreach d (by simp))
  | anyJump =>
    obtain ⟨rfl, ⟨⟩⟩ := Option.ite_none_right_eq_some.mp h
    cases hread with | atADptr hread =>
    cases hread
    rfl
  | anyCall => cases h
  | bitJump op =>
    obtain ⟨rfl, ⟨⟩⟩ := Option.ite_none_right_eq_some.mp h
    cases hread with | bit b hread =>
    cases hread with | relative d hread =>
    cases hread
    simp only [List.map_cons, List.map_nil, encode, bit_written]
    exact withDistance_written hpoint (by simp) hnext (hreach d (by simp))
  | compareJump =>
    obtain ⟨left, right, d, data, rfl, rfl, hcompare⟩ := comparison_written h hread
    simp only [List.map_cons, List.map_nil, encode, hcompare]
    exact withDistance_written hpoint (by simp) hnext (hreach d (by simp))
  | countJump =>
    obtain ⟨value, d, rest, rfl, rfl, hrest, hcounter⟩ := counter_written h hread
    simp only [List.map_cons, List.map_nil, encode, hcounter]
    rw [List.length_append] at hnext
    exact withDistance_written hpoint (by simpa using hrest) hnext (hreach d (by simp))
  | move =>
    obtain ⟨dst, src, rfl, hmove⟩ := encodeMove_written h hread
    exact hmove next pos
  | moveCode =>
    simp only [opcode?] at h
    split at h <;> cases h
    · cases hread with | a hread =>
      cases hread with | atADptr hread =>
      cases hread
      rfl
    · cases hread with | a hread =>
      cases hread with | atAPc hread =>
      cases hread
      rfl
  | moveExternal =>
    obtain ⟨dst, src, rfl, hmove⟩ := encodeMoveExternal_written h hread
    exact hmove next pos
  | exchange =>
    simp only [opcode?] at h
    split at h
    · cases hread with | a hread =>
      obtain ⟨value, rfl, hlocation⟩ := location_written h hread
      exact hlocation next pos
    · cases h
  | exchangeDigit =>
    obtain ⟨rfl, ⟨⟩⟩ := Option.ite_none_right_eq_some.mp h
    cases hread with | a hread =>
    cases hread with | pointer hread =>
    cases hread
    simp only [List.map_cons, List.map_nil, encode, pointer_ofOpcode]
    rfl

end Written

end Family

/-! ## Instructions -/

namespace Instruction

variable {i : Instruction} {site : Site} {ops : List Operand} {code : Code}

/-- Operands that can be encoded as they are written are encoded so. -/
theorem encodeReadings_of_succeeds (h : (i.family.encode site ops).succeeds = true) :
    i.encodeReadings site ops = i.family.encode site ops := by
  obtain ⟨rest, hrest⟩ := head_readings site.settings ops
  rw [encodeReadings, hrest, List.find?_cons, h]

/-- An instruction with as many operands as it takes leaves them to its family. -/
theorem encode_of_family (hresolved : ∀ op ∈ ops, op.isResolved = true)
    (hfewest : i.fewest ≤ ops.length) (hmost : ops.length ≤ i.most)
    (h : i.family.encode site ops = .done code) : i.encode site ops = .done code := by
  have hfind : (ops.find? fun op => !op.isResolved) = none := by
    refine List.find?_eq_none.mpr fun op hop => ?_
    rw [hresolved op hop]
    decide
  have hreading : i.encodeReadings site ops = .done code := by
    rw [encodeReadings_of_succeeds (by rw [h]; rfl), h]
  simp only [encode, hfind, if_neg (Nat.not_lt.mpr hfewest), List.getElem?_eq_none hmost, hreading]

/-- Written operands need no symbol. -/
theorem isResolved_written (next : Nat) (pos : Position) (values : List Value) :
    ∀ op ∈ values.map (Value.operand next pos), op.isResolved = true := by
  intro op hop
  obtain ⟨value, _, rfl⟩ := List.mem_map.mp hop
  cases value <;> rfl

/-- An instruction of the map is encoded from its operands. -/
theorem exists_encode_operands {point : UInt32} (hpoint : point.toNat < 0x10000) {opcode : UInt8}
    {shape : Machine.Shape} (hshape : shape? opcode = some shape) {bytes : List UInt8}
    {values : List Value} (hread : Machine.Reads opcode shape.slots bytes values) {next : Nat}
    (hnext : next = point.toNat + (bytes.length + 1)) {arranged : List Value}
    (harranged : arranged = if shape.swapped then values.reverse else values)
    (hreach : ∀ d, Value.relative d ∈ arranged → Machine.LeadsToCode next d)
    (settings : Settings) (name : Mnemonic) (pos : Position) :
    ∃ i, find? (Text.ofString shape.name) = some i ∧
      i.encode ⟨settings, point, name⟩ (arranged.map (Value.operand next pos))
        = .done (opcode :: bytes) := by
  rcases exists_opcode hshape with ⟨rfl, rfl⟩ | ⟨hswapped, i, hfind, hfewest, hmost, hopcode⟩
  · cases hread with | direct src hread =>
    cases hread with | direct dst hread =>
    cases hread
    subst harranged
    exact ⟨⟨"mov", 2, 2, .move⟩, by decide, encode_of_family (isResolved_written _ _ _)
      (Nat.le_refl 2) (Nat.le_refl 2) (Family.encodeMove_directs dst src)⟩
  · rw [hswapped, if_neg (by decide)] at harranged
    subst harranged
    rw [← hread.length_eq] at hfewest hmost
    refine ⟨i, hfind, encode_of_family (isResolved_written _ _ _) ?_ ?_
      (Family.encode_written hopcode hread hpoint hnext hreach)⟩
    · rwa [List.length_map]
    · rwa [List.length_map]

/-- **Every machine instruction can be written.** An opcode of the map and any bytes of operands
after it are a machine instruction. At any address it is the encoding, under the standard settings
and without a finding, of an instruction of its name with operands that are read from texts; a
distance has to lead to a code address. -/
theorem exists_encode {point : UInt32} (hpoint : point.toNat < 0x10000) {opcode : UInt8}
    {shape : Machine.Shape} (hshape : shape? opcode = some shape) {bytes : List UInt8}
    (hlength : (opcode :: bytes).length = shape.length) (pos : Position) :
    ∃ machine, decode (opcode :: bytes) = some machine ∧
      (machine.InReach (point.toNat + (opcode :: bytes).length) →
        ∃ i ops, find? (Text.ofString machine.name) = some i ∧
          (∀ op ∈ ops, ∃ text, Operand.read text pos = .ok op) ∧
          i.encode ⟨Settings.standard, point, ⟨Text.ofString machine.name, pos, false⟩⟩ ops
            = .done (opcode :: bytes)) := by
  rw [Machine.Shape.length, List.length_cons, Nat.add_comm] at hlength
  obtain ⟨values, hvalues⟩ := Machine.exists_readSlots opcode (Nat.add_left_cancel hlength)
  have hread := Machine.Reads.of_readSlots hvalues
  refine ⟨_, Machine.decode_cons hshape hvalues, fun hreach => ?_⟩
  obtain ⟨i, hfind, hencode⟩ := exists_encode_operands hpoint hshape hread rfl rfl hreach
    Settings.standard ⟨Text.ofString shape.name, pos, false⟩ pos
  refine ⟨i, _, hfind, fun op hop => ?_, hencode⟩
  obtain ⟨value, hvalue, rfl⟩ := List.mem_map.mp hop
  have hmem : value ∈ values := by
    split at hvalue
    · exact List.mem_reverse.mp hvalue
    · exact hvalue
  exact ⟨_, Machine.read_text (hread.sound _ value hmem) pos⟩

/-- `cjne @r1, #5` at the end of code memory, back as far as a distance goes. -/
theorem exists_encode_backward :
    let code : Code := [0xb7, 0x05, 0x80]
    let site : Site := ⟨Settings.standard, 0xfffd, ⟨Text.ofString "cjne", {}, false⟩⟩
    ∃ i ops, find? (Text.ofString "cjne") = some i ∧
      (∀ op ∈ ops, ∃ text, Operand.read text {} = .ok op) ∧ i.encode site ops = .done code := by
  obtain ⟨machine, hmachine, h⟩ := @exists_encode 0xfffd (by decide) 0xb7
    ⟨"cjne", [.pointer, .immediate, .relative], false⟩ (by decide) [0x05, 0x80] rfl {}
  have hdecode : decode [0xb7, 0x05, 0x80]
      = some ⟨"cjne", [.pointer 1, .immediate 5, .relative 0x80]⟩ := by decide
  cases hdecode.symm.trans hmachine
  refine h fun d hd => ?_
  have hd : d = 0x80 := by simpa using hd
  subst hd
  exact ⟨by decide, by decide⟩

end Instruction

end Mcs51
