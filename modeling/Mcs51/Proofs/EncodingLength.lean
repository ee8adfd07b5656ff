import Mcs51.Proofs.EncodingSound

/-!
# Lengths of encodings

How long the encoding of an instruction is can be read off the forms of its operands: each adds a
byte to the opcode, except for registers, `A` and the carry, which opcodes stand for. Values and
addresses do not matter. Only the generic jump and call choose their length by the distance.

* `Family.length` — the table of lengths
* `Family.length_encode` — operands that are encoded have the length of the table
-/

namespace Mcs51

/-! ## The table -/

/-- The number of bytes that an operand adds to an opcode: a register is part of the opcode. -/
def Form.width : Form → Nat
  | .reserved (.r _) | .indirect (.r _) => 0
  | _ => 1

/-- The operand is `A` or the carry, which opcodes of their own stand for. -/
def Form.inOpcode : Form → Bool
  | .reserved .a | .reserved .c => true
  | _ => false

theorem Form.width_of_inOpcode {form : Form} (h : form.inOpcode = true) : form.width = 1 := by
  unfold inOpcode at h
  split at h
  · rfl
  · rfl
  · cases h

/-- The length of an instruction with a destination and a source. `A` and the carry are part of the
opcode, in the destination or else in the source. So is `DPTR`, but the word that is moved to it has
two bytes, which comes to the same number. -/
def pairLength (dst src : Form) : Nat :=
  if dst.inOpcode then 1 + src.width
  else if src.inOpcode then 1 + dst.width
  else 1 + dst.width + src.width

/-- The length of an instruction of the family, by the forms of its operands. The generic jump and
call have none. -/
def Family.length (f : Family) (forms : List Form) : Nat :=
  match f with
  | .arithmetic _ | .logical _ _ | .move | .exchange =>
    match forms with
    | [src] => 1 + src.width
    | [dst, src] => pairLength dst src
    | _ => 1
  | .bitwise _ _ _ =>
    match forms with
    | [op] => if op.inOpcode then 1 else 1 + op.width
    | _ => 1
  | .counting _ _ =>
    match forms with
    | [op] => if op.inOpcode || op == .reserved .dptr then 1 else 1 + op.width
    | _ => 1
  | .stack _ | .pageJump _ | .shortJump _ => 2
  | .longJump _ | .bitJump _ | .compareJump => 3
  | .countJump =>
    match forms with
    | op :: _ => 2 + op.width
    | [] => 2
  | .fixed _ | .multiplicative _ | .accumulator _ | .anyJump | .anyCall | .moveCode | .moveExternal
  | .exchangeDigit => 1

/-- The family has one length for operands of given forms. -/
def Family.isFixed : Family → Bool
  | .anyJump | .anyCall => false
  | _ => true

/-! ## Widths of fields -/

namespace Operand

variable {op : Operand}

/-- The operand is a byte or bit address, or a symbol for one. -/
theorem width_of_address? {entry : Space × Int} (h : op.address? = some entry) :
    op.form.width = 1 ∧ op.form.inOpcode = false := by
  obtain ⟨space, v⟩ := entry
  obtain hform | ⟨_, hform⟩ := form_of_address? h <;> rw [hform] <;> exact ⟨rfl, rfl⟩

theorem width_of_direct {d : UInt8} (h : op.direct.result = some d) :
    op.form.width = 1 ∧ op.form.inOpcode = false := by
  unfold direct at h
  split at h
  · next haddress => exact width_of_address? haddress
  · cases h

theorem width_of_bit {d : UInt8} (h : op.bit.result = some d) :
    op.form.width = 1 ∧ op.form.inOpcode = false := by
  unfold bit at h
  split at h
  · next haddress => exact width_of_address? haddress
  · cases h

theorem width_of_negatedBit {d : UInt8} (h : op.negatedBit.result = some d) :
    op.form.width = 1 := by
  unfold negatedBit at h
  split at h
  · next hform =>
    rw [hform]
    rfl
  · cases h

theorem width_of_constant? {v : Int} (h : op.constant? = some v) :
    op.form.width = 1 ∧ op.form.inOpcode = false := by
  obtain hform | ⟨_, _, hform, _⟩ := form_of_constant? h <;> rw [hform] <;> exact ⟨rfl, rfl⟩

theorem width_of_immediate {d : UInt8} (h : op.immediate.result = some d) :
    op.form.width = 1 ∧ op.form.inOpcode = false := by
  unfold immediate at h
  split at h
  · next hconstant => exact width_of_constant? hconstant
  · cases h

/-- The word of an operand has two bytes. -/
theorem width_of_immediateWord {bytes : Code} (h : op.immediateWord.result = some bytes) :
    bytes.length = 2 ∧ op.form.width = 1 ∧ op.form.inOpcode = false := by
  obtain ⟨high, low, rfl, _⟩ := denotes_immediateWord h
  unfold immediateWord at h
  split at h
  · next hconstant => exact ⟨rfl, width_of_constant? hconstant⟩
  · cases h

theorem width_of_register {b : UInt8} (h : op.register.result = some b) :
    op.form.width = 0 ∧ op.form.inOpcode = false := by
  obtain ⟨n, _, hform, _⟩ := register_result h
  rw [hform]
  exact ⟨rfl, rfl⟩

theorem width_of_pointer {b : UInt8} (h : op.pointer.result = some b) :
    op.form.width = 0 ∧ op.form.inOpcode = false := by
  obtain ⟨n, _, hform, _⟩ := pointer_result h
  rw [hform]
  exact ⟨rfl, rfl⟩

theorem inOpcode_of_isReservedAs {r : Reserved} (h : op.isReservedAs r = true)
    (hr : r = .a ∨ r = .c) : op.form.inOpcode = true := by
  rw [form_of_isReservedAs h]
  rcases hr with rfl | rfl <;> rfl

theorem isReservedAs_of_not_inOpcode (h : op.form.inOpcode = false) {r : Reserved}
    (hr : r = .a ∨ r = .c) : op.isReservedAs r = false := by
  cases hop : op.isReservedAs r with
  | false => rfl
  | true =>
    rw [inOpcode_of_isReservedAs hop hr] at h
    cases h

end Operand

/-! ## Lengths of readings -/

namespace Family

open Operand

variable {site : Site} {src dst op : Operand} {code : Code}

/-- Neither `A` nor the carry is a location. -/
theorem length_location {directOp pointerOp registerOp : UInt8}
    (h : (location directOp pointerOp registerOp src).result = some code) :
    code.length = 1 + src.form.width ∧ src.form.inOpcode = false := by
  simp only [location, Attempt.result_orElse_eq_some, Attempt.result_return_eq_some] at h
  obtain ⟨d, hd, rfl⟩ | ⟨-, ⟨b, hb, rfl⟩ | ⟨-, b, hb, rfl⟩⟩ := h
  · obtain ⟨hwidth, hout⟩ := width_of_direct hd
    exact ⟨by rw [hwidth]; rfl, hout⟩
  · obtain ⟨hwidth, hout⟩ := width_of_pointer hb
    exact ⟨by rw [hwidth]; rfl, hout⟩
  · obtain ⟨hwidth, hout⟩ := width_of_register hb
    exact ⟨by rw [hwidth]; rfl, hout⟩

theorem length_source {immediateOp directOp pointerOp registerOp : UInt8}
    (h : (source immediateOp directOp pointerOp registerOp src).result = some code) :
    code.length = 1 + src.form.width := by
  simp only [source, Attempt.result_orElse_eq_some, Attempt.result_return_eq_some] at h
  obtain ⟨d, hd, rfl⟩ | ⟨-, h⟩ := h
  · rw [(width_of_immediate hd).1]
    rfl
  · exact (length_location h).1

theorem length_accumulatorSource {base : UInt8} {ops : List Operand}
    (h : (accumulatorSource site base ops).result = some code) :
    code.length = (Family.arithmetic base).length (ops.map Operand.form) := by
  unfold accumulatorSource at h
  split at h
  · obtain ⟨_, _, h⟩ := Attempt.result_bind_eq_some.mp h
    exact length_source h
  · split at h
    · next dst src ha =>
      show code.length = pairLength dst.form src.form
      rw [length_source h, pairLength, if_pos (inOpcode_of_isReservedAs ha (.inl rfl))]
    · cases h
  · cases h

theorem length_encodeLogical {base : UInt8} {carry : Option (UInt8 × UInt8)} {ops : List Operand}
    (h : (encodeLogical site base carry ops).result = some code) :
    code.length = (Family.logical base carry).length (ops.map Operand.form) := by
  unfold encodeLogical at h
  split at h
  · next src => exact length_accumulatorSource h
  · next dst src =>
    show code.length = pairLength dst.form src.form
    rw [pairLength]
    split at h
    · next ha => rw [length_source h, if_pos (inOpcode_of_isReservedAs ha (.inl rfl))]
    · next ha =>
      split at h
      · next hc =>
        rw [if_pos (inOpcode_of_isReservedAs hc (.inr rfl))]
        split at h
        · cases h
        · simp only [Attempt.result_orElse_eq_some, Attempt.result_return_eq_some] at h
          obtain ⟨d, hd, rfl⟩ | ⟨-, d, hd, rfl⟩ := h
          · rw [width_of_negatedBit hd]
            rfl
          · rw [(width_of_bit hd).1]
            rfl
      · obtain ⟨address, haddress, h⟩ := Attempt.result_bind_eq_some.mp h
        obtain ⟨hwidth, hout⟩ := width_of_direct haddress
        rw [hout, if_neg Bool.false_ne_true, hwidth]
        split at h
        · next hsrc =>
          cases h
          rw [if_pos (inOpcode_of_isReservedAs hsrc (.inl rfl))]
          rfl
        · obtain ⟨d, hd, rfl⟩ := Attempt.result_return_eq_some.mp h
          obtain ⟨hsrc, hsrcOut⟩ := width_of_immediate hd
          rw [hsrcOut, if_neg Bool.false_ne_true, hsrc]
          rfl
  · cases h

theorem length_encodeBitwise {accumulator : Option UInt8} {carry bitOp : UInt8}
    {ops : List Operand} (h : (encodeBitwise accumulator carry bitOp ops).result = some code) :
    code.length = (Family.bitwise accumulator carry bitOp).length (ops.map Operand.form) := by
  unfold encodeBitwise at h
  split at h
  · next op =>
    show code.length = if op.form.inOpcode then 1 else 1 + op.form.width
    split at h
    · next ha =>
      split at h <;> cases h
      rw [if_pos (inOpcode_of_isReservedAs ha (.inl rfl))]
      rfl
    · split at h
      · next hc =>
        cases h
        rw [if_pos (inOpcode_of_isReservedAs hc (.inr rfl))]
        rfl
      · obtain ⟨d, hd, rfl⟩ := Attempt.result_return_eq_some.mp h
        obtain ⟨hwidth, hout⟩ := width_of_bit hd
        rw [hout, if_neg Bool.false_ne_true, hwidth]
        rfl
  · cases h

theorem length_encodeCounting {base : UInt8} {dptr : Option UInt8} {ops : List Operand}
    (h : (encodeCounting base dptr ops).result = some code) :
    code.length = (Family.counting base dptr).length (ops.map Operand.form) := by
  unfold encodeCounting at h
  split at h
  · next op =>
    show code.length
      = if op.form.inOpcode || op.form == .reserved .dptr then 1 else 1 + op.form.width
    split at h
    · next ha =>
      cases h
      rw [inOpcode_of_isReservedAs ha (.inl rfl)]
      rfl
    · split at h
      · next hdptr =>
        split at h <;> cases h
        rw [form_of_isReservedAs hdptr]
        rfl
      · next ha hdptr =>
        obtain ⟨hlength, hout⟩ := length_location h
        have hother : (op.form == Form.reserved .dptr) = false := by
          simpa [isReservedAs] using hdptr
        rw [hout, hother]
        exact hlength
  · cases h

theorem length_encodeImplied {implied : Reserved} {name : String} {opcode : UInt8}
    {ops : List Operand} (h : (encodeImplied site implied name opcode ops).result = some code) :
    code.length = 1 := by
  unfold encodeImplied at h
  split at h
  · obtain ⟨_, _, hcode⟩ := Attempt.result_bind_eq_some.mp h
    cases hcode
    rfl
  · split at h <;> cases h
    rfl

theorem length_withDistance {bytes : Code} (h : (withDistance site bytes op).result = some code) :
    code.length = bytes.length + 1 := by
  obtain ⟨target, _, h⟩ := Attempt.result_bind_eq_some.mp h
  obtain ⟨rel, _, rfl⟩ := Attempt.result_return_eq_some.mp h
  exact List.length_append

theorem length_comparison {left right : Operand} (h : (comparison left right).result = some code) :
    code.length = 2 := by
  unfold comparison at h
  split at h
  · simp only [Attempt.result_orElse_eq_some, Attempt.result_return_eq_some] at h
    obtain ⟨d, _, rfl⟩ | ⟨-, d, _, rfl⟩ := h <;> rfl
  · obtain ⟨data, _, h⟩ := Attempt.result_bind_eq_some.mp h
    simp only [Attempt.result_orElse_eq_some, Attempt.result_return_eq_some] at h
    obtain ⟨b, _, rfl⟩ | ⟨-, b, _, rfl⟩ := h <;> rfl

theorem length_counter (h : (counter op).result = some code) :
    code.length = 1 + op.form.width := by
  simp only [counter, Attempt.result_orElse_eq_some, Attempt.result_return_eq_some] at h
  obtain ⟨b, hb, rfl⟩ | ⟨-, d, hd, rfl⟩ := h
  · rw [(width_of_register hb).1]
    rfl
  · rw [(width_of_direct hd).1]
    rfl

theorem length_moveToRegister {accumulatorOp directOp immediateOp : UInt8}
    (hdst : dst.form.width = 0 ∧ dst.form.inOpcode = false)
    (h : (moveToRegister accumulatorOp directOp immediateOp src).result = some code) :
    code.length = pairLength dst.form src.form := by
  rw [pairLength, hdst.2, if_neg Bool.false_ne_true, hdst.1]
  unfold moveToRegister at h
  split at h
  · next ha =>
    cases h
    rw [if_pos (inOpcode_of_isReservedAs ha (.inl rfl))]
    rfl
  · simp only [Attempt.result_orElse_eq_some, Attempt.result_return_eq_some] at h
    obtain ⟨d, hd, rfl⟩ | ⟨-, d, hd, rfl⟩ := h
    · obtain ⟨hsrc, hout⟩ := width_of_direct hd
      rw [hout, if_neg Bool.false_ne_true, hsrc]
      rfl
    · obtain ⟨hsrc, hout⟩ := width_of_immediate hd
      rw [hout, if_neg Bool.false_ne_true, hsrc]
      rfl

theorem length_moveToDirect {address : UInt8} (hdst : dst.direct.result = some address)
    (h : (moveToDirect address src).result = some code) :
    code.length = pairLength dst.form src.form := by
  obtain ⟨hwidth, hout⟩ := width_of_direct hdst
  rw [pairLength, hout, if_neg Bool.false_ne_true, hwidth]
  unfold moveToDirect at h
  split at h
  · next ha =>
    cases h
    rw [if_pos (inOpcode_of_isReservedAs ha (.inl rfl))]
    rfl
  · simp only [Attempt.result_orElse_eq_some, Attempt.result_return_eq_some] at h
    have hsized : ∀ {n : Nat}, src.form.width = n ∧ src.form.inOpcode = false →
        (if src.form.inOpcode = true then 1 + 1 else 1 + 1 + src.form.width) = 2 + n := by
      rintro n ⟨hsrc, hsrcOut⟩
      rw [hsrcOut, if_neg Bool.false_ne_true, hsrc]
    obtain ⟨d, hd, rfl⟩ | ⟨-, ⟨d, hd, rfl⟩ | ⟨-, ⟨b, hb, rfl⟩ | ⟨-, b, hb, rfl⟩⟩⟩ := h
    · exact (hsized (width_of_immediate hd)).symm
    · exact (hsized (width_of_direct hd)).symm
    · exact (hsized (width_of_pointer hb)).symm
    · exact (hsized (width_of_register hb)).symm

theorem length_encodeMove (h : (encodeMove dst src).result = some code) :
    code.length = pairLength dst.form src.form := by
  unfold encodeMove at h
  split at h
  · next ha =>
    rw [length_source h, pairLength, if_pos (inOpcode_of_isReservedAs ha (.inl rfl))]
  · split at h
    · next hc =>
      obtain ⟨d, hd, rfl⟩ := Attempt.result_return_eq_some.mp h
      rw [pairLength, if_pos (inOpcode_of_isReservedAs hc (.inr rfl)), (width_of_bit hd).1]
      rfl
    · split at h
      · next hdptr =>
        obtain ⟨bytes, hbytes, rfl⟩ := Attempt.result_return_eq_some.mp h
        obtain ⟨hword, hsrc, hout⟩ := width_of_immediateWord hbytes
        rw [form_of_isReservedAs hdptr, pairLength, hout, hsrc, List.length_cons, hword]
        rfl
      · rw [Attempt.result_cases] at h
        split at h
        · next hregister => exact length_moveToRegister (width_of_register hregister) h
        · rw [Attempt.result_cases] at h
          split at h
          · next hpointer => exact length_moveToRegister (width_of_pointer hpointer) h
          · split at h
            · next hc =>
              obtain ⟨d, hd, rfl⟩ := Attempt.result_return_eq_some.mp h
              obtain ⟨hwidth, hout⟩ := width_of_bit hd
              rw [pairLength, hout, if_neg Bool.false_ne_true,
                if_pos (inOpcode_of_isReservedAs hc (.inr rfl)), hwidth]
              rfl
            · obtain ⟨address, haddress, h⟩ := Attempt.result_bind_eq_some.mp h
              exact length_moveToDirect haddress h

theorem length_encodeMoveCode (h : (encodeMoveCode dst src).result = some code) :
    code.length = 1 := by
  unfold encodeMoveCode at h
  split at h
  · cases h
  · split at h
    · cases h
      rfl
    · split at h <;> cases h
      rfl

theorem length_encodeMoveExternal (h : (encodeMoveExternal dst src).result = some code) :
    code.length = 1 := by
  unfold encodeMoveExternal at h
  split at h
  · split at h
    · cases h
      rfl
    · obtain ⟨b, _, rfl⟩ := Attempt.result_return_eq_some.mp h
      rfl
  · split at h
    · cases h
    · split at h
      · cases h
        rfl
      · obtain ⟨b, _, rfl⟩ := Attempt.result_return_eq_some.mp h
        rfl

/-- **A reading that is encoded has the length of its forms.** -/
theorem length_encode {f : Family} (hfixed : f.isFixed = true) {ops : List Operand}
    (h : (f.encode site ops).result = some code) :
    code.length = f.length (ops.map Operand.form) := by
  cases f with
  | fixed opcode =>
    cases h
    rfl
  | arithmetic base => exact length_accumulatorSource h
  | multiplicative opcode => exact length_encodeImplied h
  | logical base carry => exact length_encodeLogical h
  | bitwise accumulator carry bitOp => exact length_encodeBitwise h
  | counting base dptr => exact length_encodeCounting h
  | accumulator opcode => exact length_encodeImplied h
  | stack opcode =>
    simp only [encode] at h
    split at h
    · obtain ⟨d, _, rfl⟩ := Attempt.result_return_eq_some.mp h
      rfl
    · cases h
  | pageJump opcode =>
    simp only [encode] at h
    split at h
    · obtain ⟨target, _, h⟩ := Attempt.result_bind_eq_some.mp h
      split at h <;> cases h
      rfl
    · cases h
  | longJump opcode =>
    simp only [encode] at h
    split at h
    · obtain ⟨target, _, rfl⟩ := Attempt.result_return_eq_some.mp h
      rfl
    · cases h
  | shortJump opcode =>
    simp only [encode] at h
    split at h
    · exact length_withDistance h
    · cases h
  | anyJump => cases hfixed
  | anyCall => cases hfixed
  | bitJump opcode =>
    simp only [encode] at h
    split at h
    · obtain ⟨d, _, h⟩ := Attempt.result_bind_eq_some.mp h
      exact length_withDistance h
    · cases h
  | compareJump =>
    simp only [encode] at h
    split at h
    · obtain ⟨bytes, hbytes, h⟩ := Attempt.result_bind_eq_some.mp h
      rw [length_withDistance h, length_comparison hbytes]
      rfl
    · cases h
  | countJump =>
    simp only [encode] at h
    split at h
    · obtain ⟨bytes, hbytes, h⟩ := Attempt.result_bind_eq_some.mp h
      have hcounter := length_counter hbytes
      rw [length_withDistance h, hcounter]
      exact Nat.add_right_comm _ _ _
    · cases h
  | move =>
    simp only [encode] at h
    split at h
    · exact length_encodeMove h
    · cases h
  | moveCode =>
    simp only [encode] at h
    split at h
    · exact length_encodeMoveCode h
    · cases h
  | moveExternal =>
    simp only [encode] at h
    split at h
    · exact length_encodeMoveExternal h
    · cases h
  | exchange =>
    simp only [encode] at h
    split at h
    · split at h
      · next dst src ha =>
        show code.length = pairLength dst.form src.form
        rw [(length_location h).1, pairLength, if_pos (inOpcode_of_isReservedAs ha (.inl rfl))]
      · cases h
    · cases h
  | exchangeDigit =>
    simp only [encode] at h
    split at h
    · split at h
      · obtain ⟨b, _, rfl⟩ := Attempt.result_return_eq_some.mp h
        rfl
      · cases h
    · cases h

end Family

end Mcs51
