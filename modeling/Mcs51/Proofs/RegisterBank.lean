import Mcs51.Proofs.EncodingComplete
import Mcs51.Proofs.EncodingWarnings
import Mcs51.Proofs.FixedLengths
import Mcs51.Proofs.RelevantSettings

/-!
# Selecting a register bank

In a selected bank a register is also a byte, so the operands of an instruction have more readings.
Some of them come before readings that replace `A` or the carry, and could be taken in their place.
They are not: an instruction that has a register among its operands, and can be encoded without a
bank, can be encoded as it is written. Then nothing is replaced, with a bank or without. Without a
register among the operands a bank adds no reading.

* `Family.succeeds_written`: with a register, a reading without a bank is not needed.
* `Instruction.readings_bank`: without a register, a bank adds no reading.
* `Instruction.encode_bank`: what encodes without a bank is encoded in the same way with one.
-/

namespace Mcs51

/-! ## Registers -/

namespace Operand

/-- The operand is a register, one of the eight or one that does not exist. -/
def IsRegister (op : Operand) : Prop := ∃ n, op.form = .reserved (.r n)

variable {α : Type} {op : Operand}

/-- A register is no field of another class. -/
theorem Field.result_of_register {classes : List OperandClass} {x : Attempt α}
    (h : op.Field classes x) (hop : op.IsRegister) (hclass : OperandClass.name ∉ classes) :
    x.result = none := by
  obtain ⟨n, hform⟩ := hop
  have hname : op.operandClass = .name := by rw [operandClass, hform]
  rw [h.only (hname ▸ hclass)]
  rfl

theorem IsRegister.isReservedAs (hop : op.IsRegister) {r : Reserved} (hr : ∀ n, r ≠ .r n) :
    op.isReservedAs r = false := by
  obtain ⟨n, hform⟩ := hop
  simp [Operand.isReservedAs, hform, (hr n).symm]

/-- A register is no code address. -/
theorem IsRegister.target (hop : op.IsRegister) (settings : Settings) (point : UInt32) :
    (op.target settings point).result = none := by
  obtain ⟨n, hform⟩ := hop
  simp [Operand.target, address?, hform]

theorem IsRegister.inOpcode (hop : op.IsRegister) : op.form.inOpcode = false := by
  obtain ⟨n, hform⟩ := hop
  rw [hform]
  rfl

end Operand

open Operand

/-! ## Readings without a bank -/

section NoBank

variable {settings : Settings} {op x : Operand} (hbank : settings.bank = none)
  (h : ReadsAs settings op x)

include hbank h

/-- Without a bank a register is read as it is written. -/
theorem ReadsAs.eq_of_register (hop : op.IsRegister) : x = op := by
  obtain ⟨n, hn⟩ := hop
  rcases h.of_noBank hbank with h | ⟨hform, _⟩ | ⟨hform, _⟩
  · exact h
  · rw [hn] at hform
    cases hform
  · rw [hn] at hform
    cases hform

/-- A reading that is a code address is the operand as it is written, and is no register. -/
theorem ReadsAs.eq_of_target {point t : UInt32}
    (hx : (x.target settings point).result = some t) : x = op ∧ ¬op.IsRegister := by
  have hsame : x = op := by
    rcases h.of_noBank hbank with h | ⟨_, hform⟩ | ⟨_, hform⟩
    · exact h
    · simp [Operand.target, address?, hform] at hx
    · simp [Operand.target, address?, hform] at hx
  refine ⟨hsame, fun hop => ?_⟩
  rw [hsame, hop.target] at hx
  cases hx

/-- A reading that is a reserved name is no register, if the name is none. -/
theorem ReadsAs.not_register {r : Reserved} (hx : x.isReservedAs r = true)
    (hr : ∀ n, r ≠ .r n) : ¬op.IsRegister := by
  intro hop
  rw [h.eq_of_reserved hbank hx, hop.isReservedAs hr] at hx
  cases hx

end NoBank

/-! ## Families -/

/-- What is encoded under a condition only has it fulfilled. -/
theorem Attempt.condition_of_result {α : Type} {condition : Bool} {x : Attempt α} {a : α}
    (h : (if condition then x else .mismatch).result = some a) : condition = true := by
  cases condition with
  | true => rfl
  | false => cases h

namespace Family

open Attempt (condition_of_result)

variable {site : Site} {dst src x y : Operand} {code : Code}

/-- A name that has to be there is there as it is written. -/
theorem succeeds_named {r : Reserved} {made : Code} (hbank : site.settings.bank = none)
    (hx : ReadsAs site.settings dst x)
    (h : (if x.isReservedAs r then Attempt.done made else .mismatch).result = some code) :
    (if dst.isReservedAs r then Attempt.done made else .mismatch).succeeds = true := by
  have hname := condition_of_result h
  rw [hx.eq_of_reserved hbank hname] at hname
  rw [if_pos hname]
  rfl

section Pairs

variable (hbank : site.settings.bank = none) (hx : ReadsAs site.settings dst x)
  (hy : ReadsAs site.settings src y) (hregister : dst.IsRegister ∨ src.IsRegister)

include hbank hx hy hregister

/-- Beside a name that is no register, the register is the other operand. -/
theorem eq_of_named {r : Reserved} (hr : ∀ n, r ≠ .r n) (hname : x.isReservedAs r = true) :
    x = dst ∧ y = src :=
  ⟨hx.eq_of_reserved hbank hname,
    hy.eq_of_register hbank (hregister.resolve_left (hx.not_register hbank hname hr))⟩

/-- A register is moved to and from, and if the other operand is `A`, no byte is needed for it. -/
theorem succeeds_move (h : (encodeMove x y).result = some code) :
    (encodeMove dst src).succeeds = true := by
  rcases hregister with hdst | hsrc
  · obtain rfl := hx.eq_of_register hbank hdst
    rcases hy.of_noBank hbank with rfl | ⟨hsrcForm, hyForm⟩ | ⟨_, hyForm⟩
    · exact Attempt.succeeds_of_result h
    · exact succeeds_encodeMove_a hdst.inOpcode hsrcForm hyForm h
    · rw [encodeMove_bitAddress hdst.inOpcode hyForm] at h
      cases h
  · obtain rfl := hy.eq_of_register hbank hsrc
    have hcarry : y.isReservedAs .c = false := hsrc.isReservedAs (by simp)
    rcases hx.of_noBank hbank with rfl | ⟨hdstForm, hxForm⟩ | ⟨_, hxForm⟩
    · exact Attempt.succeeds_of_result h
    · rw [encodeMove_address hxForm, hcarry, if_neg Bool.false_ne_true] at h
      obtain ⟨address, _, h⟩ := Attempt.result_bind_eq_some.mp h
      have ha : dst.isReservedAs .a = true := by simp [isReservedAs, hdstForm]
      rw [encodeMove, if_pos ha]
      exact succeeds_source hsrc.inOpcode h
    · rw [encodeMove_address hxForm, hcarry, if_neg Bool.false_ne_true] at h
      simp [direct_of_bitAddress hxForm] at h

/-- The logical instructions have a register beside `A` only. -/
theorem eq_of_logical {base : UInt8} {carry : Option (UInt8 × UInt8)}
    (h : (encodeLogical site base carry [x, y]).result = some code) : x = dst ∧ y = src := by
  simp only [encodeLogical] at h
  split at h
  · next ha => exact eq_of_named hbank hx hy hregister (by simp) ha
  · split at h
    · next hc => exact eq_of_named hbank hx hy hregister (by simp) hc
    · obtain ⟨address, haddress, h⟩ := Attempt.result_bind_eq_some.mp h
      exfalso
      rcases hregister with hdst | hsrc
      · rw [hx.eq_of_register hbank hdst,
          (field_direct dst).result_of_register hdst (by decide)] at haddress
        cases haddress
      · rw [hy.eq_of_register hbank hsrc, hsrc.isReservedAs (by simp),
          if_neg Bool.false_ne_true] at h
        obtain ⟨d, hd, _⟩ := Attempt.result_return_eq_some.mp h
        rw [(field_immediate src).result_of_register hsrc (by decide)] at hd
        cases hd

theorem eq_of_moveCode (h : (encodeMoveCode x y).result = some code) : x = dst ∧ y = src := by
  simp only [encodeMoveCode] at h
  split at h
  · cases h
  · next ha => exact eq_of_named (r := .a) hbank hx hy hregister (by simp) (by simpa using ha)

theorem eq_of_moveExternal (h : (encodeMoveExternal x y).result = some code) :
    x = dst ∧ y = src := by
  simp only [encodeMoveExternal] at h
  split at h
  · next ha => exact eq_of_named hbank hx hy hregister (by simp) ha
  · split at h
    · cases h
    · next ha =>
      exact (eq_of_named (r := .a) hbank hy hx hregister.symm (by simp) (by simpa using ha)).symm

/-- Of a counter and a target only the counter can be a register. -/
theorem eq_of_countJump (h : (countJump.encode site [x, y]).result = some code) :
    x = dst ∧ y = src := by
  obtain ⟨bytes, _, h⟩ := Attempt.result_bind_eq_some.mp h
  obtain ⟨t, ht, _⟩ := Attempt.result_bind_eq_some.mp h
  obtain ⟨hsame, hsrc⟩ := hy.eq_of_target hbank ht
  exact ⟨hx.eq_of_register hbank (hregister.resolve_right hsrc), hsame⟩

/-- Neither a bit nor a target is a register. -/
theorem not_bitJump {opcode : UInt8} :
    ((bitJump opcode).encode site [x, y]).result ≠ some code := by
  intro h
  obtain ⟨d, hd, h⟩ := Attempt.result_bind_eq_some.mp h
  obtain ⟨t, ht, _⟩ := Attempt.result_bind_eq_some.mp h
  have hdst := hregister.resolve_right (hy.eq_of_target hbank ht).2
  rw [hx.eq_of_register hbank hdst, (field_bit dst).result_of_register hdst (by decide)] at hd
  cases hd

/-- A register is compared with an immediate byte only. -/
theorem eq_of_comparison (h : (comparison x y).result = some code) : x = dst ∧ y = src := by
  simp only [comparison] at h
  split at h
  · next ha => exact eq_of_named hbank hx hy hregister (by simp) ha
  · obtain ⟨d, hd, _⟩ := Attempt.result_bind_eq_some.mp h
    have hsame := hy.eq_of_immediate hbank hd
    refine ⟨hx.eq_of_register hbank (hregister.resolve_right fun hsrc => ?_), hsame⟩
    rw [hsame, (field_immediate src).result_of_register hsrc (by decide)] at hd
    cases hd

/-- **Two operands, one of which is a register, can be encoded as they are written**, if they can
be encoded at all. -/
theorem succeeds_pair (f : Family) (h : (f.encode site [x, y]).result = some code) :
    (f.encode site [dst, src]).succeeds = true := by
  have hkept : x = dst ∧ y = src → (f.encode site [dst, src]).succeeds = true := by
    rintro ⟨rfl, rfl⟩
    exact Attempt.succeeds_of_result h
  cases f with
  | fixed opcode => rfl
  | move => exact succeeds_move hbank hx hy hregister h
  | logical base carry => exact hkept (eq_of_logical hbank hx hy hregister h)
  | moveExternal => exact hkept (eq_of_moveExternal hbank hx hy hregister h)
  | countJump => exact hkept (eq_of_countJump hbank hx hy hregister h)
  | bitJump opcode => exact absurd h (not_bitJump hbank hx hy hregister)
  | moveCode => exact hkept (eq_of_moveCode hbank hx hy hregister h)
  | multiplicative opcode | accumulator opcode => exact succeeds_named hbank hx h
  | arithmetic base | exchange | exchangeDigit =>
    exact hkept (eq_of_named hbank hx hy hregister (by simp) (condition_of_result h))
  | _ => cases h

end Pairs

/-- A target is no register, so one of the values that are compared is. -/
theorem succeeds_compareJump {left right op z : Operand} (hbank : site.settings.bank = none)
    (hx : ReadsAs site.settings left x) (hy : ReadsAs site.settings right y)
    (hz : ReadsAs site.settings op z)
    (hregister : left.IsRegister ∨ right.IsRegister ∨ op.IsRegister)
    (h : (compareJump.encode site [x, y, z]).result = some code) :
    (compareJump.encode site [left, right, op]).succeeds = true := by
  obtain ⟨bytes, hbytes, hdistance⟩ := Attempt.result_bind_eq_some.mp h
  obtain ⟨t, ht, _⟩ := Attempt.result_bind_eq_some.mp hdistance
  obtain ⟨rfl, hop⟩ := hz.eq_of_target hbank ht
  have hvalues : left.IsRegister ∨ right.IsRegister := by tauto
  obtain ⟨rfl, rfl⟩ := eq_of_comparison hbank hx hy hvalues hbytes
  exact Attempt.succeeds_of_result h

/-- **Operands with a register among them can be encoded as they are written**, if some reading of
them without a bank can be encoded. -/
theorem succeeds_written (f : Family) (hbank : site.settings.bank = none)
    {ops reading : List Operand} (hreads : List.Forall₂ (ReadsAs site.settings) ops reading)
    (hregister : ∃ op ∈ ops, op.IsRegister) (h : (f.encode site reading).result = some code) :
    (f.encode site ops).succeeds = true := by
  cases hreads with
  | nil => simp at hregister
  | cons hx hrest =>
    cases hrest with
    | nil =>
      rw [hx.eq_of_register hbank (by simpa using hregister)] at h
      exact Attempt.succeeds_of_result h
    | cons hy hrest =>
      cases hrest with
      | nil => exact succeeds_pair hbank hx hy (by simpa using hregister) f h
      | cons hz hrest =>
        cases f with
        | fixed opcode => rfl
        | multiplicative opcode | accumulator opcode => exact succeeds_named hbank hx h
        | compareJump =>
          cases hrest with
          | nil => exact succeeds_compareJump hbank hx hy hz (by simpa using hregister) h
          | cons _ _ => cases h
        | _ => cases h

end Family

/-! ## Instructions -/

namespace Instruction

variable {settings : Settings} {i : Instruction} {point : UInt32} {name : Mnemonic}
  {ops : List Operand} {code : Code}

/-- An operand that is no register has the same second reading in every bank and in none. -/
theorem second_bank {op : Operand} (h : ¬op.IsRegister) (bank : Option Int) :
    second { settings with bank } op = second settings op := by
  unfold second
  split
  · rfl
  · rfl
  · next n hform => exact absurd ⟨n, hform⟩ h
  · rfl

/-- **Without a register among the operands a bank adds no reading.** -/
theorem readings_bank (bank : Option Int) : ∀ {ops : List Operand}, (∀ op ∈ ops, ¬op.IsRegister) →
    readings { settings with bank } ops = readings settings ops
  | [], _ => rfl
  | op :: ops, h => by
    have ih := readings_bank bank fun other hother => h other (List.mem_cons_of_mem op hother)
    simp only [readings, second_bank (h op List.mem_cons_self), ih]

/-- The reading that is taken without a bank is the one that is taken with a bank. -/
theorem encodeReadings_bank (hbank : settings.bank = none)
    (h : (i.encodeReadings ⟨settings, point, name⟩ ops).result = some code) (bank : Option Int) :
    i.encodeReadings ⟨{ settings with bank }, point, name⟩ ops
      = i.encodeReadings ⟨settings, point, name⟩ ops := by
  have hfamily : ∀ reading, i.family.encode ⟨{ settings with bank }, point, name⟩ reading
      = i.family.encode ⟨settings, point, name⟩ reading :=
    fun reading => Family.encode_of_policy rfl i.family point name reading
  by_cases hregister : ∃ op ∈ ops, op.IsRegister
  · -- then the operands are encoded as they are written
    obtain ⟨reading, hmem, hcode⟩ := encodeReadings_result h
    have hwritten := i.family.succeeds_written hbank (readsAs_of_mem_readings hmem) hregister hcode
    rw [encodeReadings_of_succeeds hwritten,
      encodeReadings_of_succeeds (by rw [hfamily]; exact hwritten), hfamily]
  · have hreadings : readings { settings with bank } ops = readings settings ops :=
      readings_bank bank fun op hop hreg => hregister ⟨op, hop, hreg⟩
    unfold encodeReadings at h ⊢
    simp only [hreadings, hfamily] at h ⊢
    split at h
    · next reading hfind => rfl
    · cases h

/-- **Selecting a register bank is conservative.** An instruction that can be encoded without a
register bank is encoded in every bank with the same bytes and the same findings. -/
theorem encode_bank (i : Instruction) (settings : Settings) (hbank : settings.bank = none)
    (point : UInt32) (name : Mnemonic) (ops : List Operand) (code : Code)
    (h : (i.encode ⟨settings, point, name⟩ ops).result = some code) (bank : Int) :
    i.encode ⟨{ settings with bank := some bank }, point, name⟩ ops
      = i.encode ⟨settings, point, name⟩ ops := by
  have hsame := encodeReadings_bank hbank (encode_result h) (some bank)
  unfold encode
  split
  · rfl
  · split
    · rfl
    · split
      · next hextra =>
        rw [List.take_of_length_le (List.getElem?_eq_none_iff.mp hextra)] at hsame
        exact hsame
      · rw [hsame]
        rfl

/-- `cjne a, a, +4, r3`: the second `a` is read as a byte, the offset is warned of, and so is the
register, which is left out. -/
theorem encode_bank_comparison :
    let i : Instruction := ⟨"cjne", 3, 3, .compareJump⟩
    let name : Mnemonic := ⟨Text.ofString "cjne", {}, false⟩
    let ops := [Operand.ofName (Text.ofString "a") {}, Operand.ofName (Text.ofString "a") {},
      ⟨Text.ofString "+4", {}, .offset 4⟩, Operand.ofName (Text.ofString "r3") {}]
    let attempt := i.encode ⟨Settings.standard, 0x100, name⟩ ops
    i ∈ all ∧ attempt.result = some [0xb5, 0xe0, 0x01] ∧ attempt.findings.length = 2 ∧
      i.encode ⟨{ Settings.standard with bank := some 2 }, 0x100, name⟩ ops = attempt := by
  refine ⟨by decide, by decide +kernel, by decide +kernel, ?_⟩
  exact encode_bank _ _ rfl _ _ _ [0xb5, 0xe0, 0x01] (by decide +kernel) 2

end Instruction
end Mcs51
