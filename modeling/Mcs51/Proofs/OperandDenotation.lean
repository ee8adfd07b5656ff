import Mcs51.Instruction.Family
import Mcs51.Proofs.Attempts
import Mcs51.Proofs.OpcodeMap

/-!
# What operands denote

When an operand of a machine instruction is a reading of an operand in the source, and that the
fields which encoding makes of an operand are such readings.

* `Machine.Denotes` — what the operands of a source line mean to the processor
* `Operand.denotes_direct`, `Operand.denotes_bit` and the like — each field denotes its operand
* `Operand.target_result`, `Operand.target?_relative` — a distance leads to the operand's address
-/

namespace Mcs51

open Machine (Value)

/-! ## What operands denote -/

/-- The machine operand is a reading of the form, for an instruction at `point` that is followed by
one at `next`. `A` is also the byte `0xe0`, `C` the bit `0xd7`, and a register a byte of the
selected bank. -/
inductive Machine.Denotes (settings : Settings) (point : UInt32) (next : Nat) : Value → Form → Prop
  | a : Denotes settings point next .a (.reserved .a)
  | c : Denotes settings point next .c (.reserved .c)
  | ab : Denotes settings point next .ab (.reserved .ab)
  | dptr : Denotes settings point next .dptr (.reserved .dptr)
  | register (n : Nat) : Denotes settings point next (.register n) (.reserved (.r n))
  | pointer (n : Nat) : Denotes settings point next (.pointer n) (.indirect (.r n))
  | atDptr : Denotes settings point next .atDptr (.indirect .dptr)
  | atADptr : Denotes settings point next .atADptr (.indirect .aDptr)
  | atAPc : Denotes settings point next .atAPc (.indirect .aPc)
  /-- A byte address is no bit. -/
  | direct {space : Space} (d : UInt8) (hspace : space ≠ .bit) :
    Denotes settings point next (.direct d) (.address space d.toNat)
  | directSymbol (d : UInt8) : Denotes settings point next (.direct d) (.symbol (some d.toNat))
  | directA : Denotes settings point next (.direct 0xe0) (.reserved .a)
  /-- Addresses are counted in words of 64 bits; for a bank from 0 to 3 the address is
  `bank * 8 + n` itself. -/
  | directRegister {bank : Int} {n : Nat} {d : UInt8} (hn : n ≤ 7)
    (hbank : settings.bank = some bank) (hd : (bank * 8 + n).bmod 18446744073709551616 = d.toNat) :
    Denotes settings point next (.direct d) (.reserved (.r n))
  /-- A bit address is no byte. -/
  | bit {space : Space} (d : UInt8) (hspace : space ≠ .byte) :
    Denotes settings point next (.bit d) (.address space d.toNat)
  | bitSymbol (d : UInt8) : Denotes settings point next (.bit d) (.symbol (some d.toNat))
  | bitC : Denotes settings point next (.bit 0xd7) (.reserved .c)
  | negatedBit (d : UInt8) : Denotes settings point next (.negatedBit d) (.negated d.toNat)
  | immediate (d : UInt8) : Denotes settings point next (.immediate d) (.constant d.toNat)
  | immediateSymbol {symbol : Text} {value : Option Int} {d : UInt8}
    (hd : value.getD 0 = d.toNat) :
    Denotes settings point next (.immediate d) (.symbolConstant symbol value)
  | immediateWord (w : Nat) : Denotes settings point next (.immediateWord w) (.constant w)
  | immediateWordSymbol {symbol : Text} {value : Option Int} {w : Nat} (hw : value.getD 0 = w) :
    Denotes settings point next (.immediateWord w) (.symbolConstant symbol value)
  /-- A code address is a plain number. -/
  | code {value : Value} {t : Nat} (ht : value.target? next = some t) :
    Denotes settings point next value (.address .any t)
  | codeSymbol {value : Value} {t : Nat} (ht : value.target? next = some t) :
    Denotes settings point next value (.symbol (some t))
  /-- An offset counts from the instruction itself. -/
  | codeOffset {value : Value} {t : Nat} {offset : Int} (ht : value.target? next = some t)
    (hoffset : point.toNat + offset = t) :
    Denotes settings point next value (.offset offset)

open Machine (Denotes)

/-! ## Fields -/

section Fields

variable {settings : Settings} {point : UInt32} {next : Nat} {op : Operand}

namespace Operand

theorem toNat_lowByte {v : Int} (h0 : 0 ≤ v) (h : v ≤ 0xff) : ((lowByte v).toNat : Int) = v := by
  unfold lowByte
  rw [Nat.toUInt8_eq, UInt8.toNat_ofNat']
  omega

theorem toNat_bytes {v : Int} (h0 : 0 ≤ v) (h : v ≤ 0xffff) :
    v = ((lowByte (v / 256)).toNat * 256 + (lowByte v).toNat : Nat) := by
  unfold lowByte
  rw [Nat.toUInt8_eq, Nat.toUInt8_eq, UInt8.toNat_ofNat', UInt8.toNat_ofNat']
  omega

theorem within_result {limit v w : Int} {complaint : Complaint}
    (h : (op.within limit complaint v).result = some w) : w = v ∧ 0 ≤ v ∧ v ≤ limit := by
  unfold within at h
  split at h
  · next hv =>
    cases h
    simpa using hv
  · cases h

theorem within_of_le (op : Operand) {limit v : Int} (complaint : Complaint) (h0 : 0 ≤ v)
    (h : v ≤ limit) : op.within limit complaint v = .done v := by
  rw [within, decide_eq_true h0, decide_eq_true h]
  rfl

theorem lowByte_toNat (b : UInt8) : lowByte b.toNat = b := by
  have hb := b.toNat_lt
  have hlow := toNat_lowByte (v := b.toNat) (by omega) (by omega)
  exact UInt8.toNat_inj.mp (by omega)

/-- A byte is a value that a field of one byte holds. -/
theorem byte_of_toNat (op : Operand) (complaint : Complaint) (b : UInt8) :
    lowByte <$> op.within 0xff complaint b.toNat = .done b := by
  have hb := b.toNat_lt
  rw [within_of_le op complaint (by omega) (by omega)]
  show Attempt.done (lowByte b.toNat) = _
  rw [lowByte_toNat]

/-- A field of one byte holds the value that it is given. -/
theorem byte_result {v : Int} {complaint : Complaint} {b : UInt8}
    (h : (lowByte <$> op.within 0xff complaint v).result = some b) : v = b.toNat := by
  rw [Attempt.result_map, Option.map_eq_some_iff] at h
  obtain ⟨w, hw, rfl⟩ := h
  obtain ⟨rfl, h0, hle⟩ := within_result hw
  exact (toNat_lowByte h0 hle).symm

theorem form_of_address? {space : Space} {v : Int} (h : op.address? = some (space, v)) :
    op.form = .address space v ∨ space = .any ∧ op.form = .symbol (some v) := by
  unfold address? at h
  split at h <;> cases h
  · next hform => exact Or.inl hform
  · next hform => exact Or.inr ⟨rfl, hform⟩

theorem form_of_constant? {v : Int} (h : op.constant? = some v) :
    op.form = .constant v ∨
      ∃ symbol value, op.form = .symbolConstant symbol value ∧ value.getD 0 = v := by
  unfold constant? at h
  split at h <;> cases h
  · next hform => exact Or.inl hform
  · next symbol value hform => exact Or.inr ⟨symbol, value, hform, rfl⟩

theorem denotes_direct {d : UInt8} (h : op.direct.result = some d) :
    Denotes settings point next (.direct d) op.form := by
  unfold direct at h
  split at h
  · next space v haddress =>
    split at h
    · cases h
    · next hspace =>
      cases byte_result h
      obtain hform | ⟨_, hform⟩ := form_of_address? haddress <;> rw [hform]
      · exact .direct d hspace
      · exact .directSymbol d
  · cases h

theorem denotes_bit {d : UInt8} (h : op.bit.result = some d) :
    Denotes settings point next (.bit d) op.form := by
  unfold bit at h
  split at h
  · next space v haddress =>
    split at h
    · cases h
    · next hspace =>
      cases byte_result h
      obtain hform | ⟨_, hform⟩ := form_of_address? haddress <;> rw [hform]
      · exact .bit d hspace
      · exact .bitSymbol d
  · cases h

theorem denotes_negatedBit {d : UInt8} (h : op.negatedBit.result = some d) :
    Denotes settings point next (.negatedBit d) op.form := by
  unfold negatedBit at h
  split at h
  · next hform =>
    rw [hform, byte_result h]
    exact .negatedBit d
  · cases h

theorem denotes_immediate {d : UInt8} (h : op.immediate.result = some d) :
    Denotes settings point next (.immediate d) op.form := by
  unfold immediate at h
  split at h
  · next v hconstant =>
    cases byte_result h
    obtain hform | ⟨symbol, value, hform, hvalue⟩ := form_of_constant? hconstant <;> rw [hform]
    · exact .immediate d
    · exact .immediateSymbol hvalue
  · cases h

/-- A word is given by its two bytes, the high one first. -/
theorem denotes_immediateWord {bytes : Code} (h : op.immediateWord.result = some bytes) :
    ∃ high low : UInt8, bytes = [high, low] ∧ ∀ settings point next,
      Denotes settings point next (.immediateWord (high.toNat * 256 + low.toNat)) op.form := by
  unfold immediateWord at h
  split at h
  · next v hconstant =>
    rw [Attempt.result_map, Option.map_eq_some_iff] at h
    obtain ⟨w, hw, rfl⟩ := h
    obtain ⟨rfl, h0, hle⟩ := within_result hw
    refine ⟨_, _, rfl, fun settings point next => ?_⟩
    have hword := toNat_bytes h0 hle
    generalize (lowByte (w / 256)).toNat * 256 + (lowByte w).toNat = n at hword ⊢
    subst hword
    obtain hform | ⟨symbol, value, hform, hvalue⟩ := form_of_constant? hconstant <;> rw [hform]
    · exact .immediateWord n
    · exact .immediateWordSymbol hvalue
  · cases h

/-- A register is one of eight, and its number is that of the field. -/
theorem register_result {b : UInt8} (h : op.register.result = some b) :
    ∃ n < 8, op.form = .reserved (.r n) ∧ b = n.toUInt8 := by
  unfold register register? at h
  cases hform : op.form with
  | reserved r =>
    cases r with
    | r n =>
      simp only [hform] at h
      split at h
      · next hn =>
        cases h
        exact ⟨n, by omega, rfl, rfl⟩
      · cases h
    | _ => simp [hform] at h
  | _ => simp [hform] at h

/-- A pointer is one of two, and its number is that of the field. -/
theorem pointer_result {b : UInt8} (h : op.pointer.result = some b) :
    ∃ n < 2, op.form = .indirect (.r n) ∧ b = n.toUInt8 := by
  unfold pointer indirectRegister? at h
  cases hform : op.form with
  | indirect p =>
    cases p with
    | r n =>
      simp only [hform] at h
      split at h
      · next hn =>
        cases h
        exact ⟨n, by omega, rfl, rfl⟩
      · cases h
    | _ => simp [hform] at h
  | _ => simp [hform] at h

theorem form_of_isReservedAs {r : Reserved} (h : op.isReservedAs r = true) :
    op.form = .reserved r := by
  simpa [isReservedAs] using h

theorem form_of_pointsTo {p : Pointer} (h : op.pointsTo p = true) : op.form = .indirect p := by
  simpa [pointsTo] using h

/-- The target of a jump has 16 bits and is what the operand stands for. -/
theorem target_result {t : UInt32} (h : (op.target settings point).result = some t) :
    t.toNat < 65536 ∧ ∀ (next : Nat) (value : Value), value.target? next = some t.toNat →
      Denotes settings point next value op.form := by
  unfold target at h
  split at h
  · next offset hform =>
    simp only [Attempt.result_bind, Attempt.result_pure, Option.bind_eq_some_iff] at h
    obtain ⟨_, _, v, hv, ht⟩ := h
    obtain ⟨rfl, h0, hle⟩ := within_result hv
    cases ht
    rw [hform]
    rw [Nat.toUInt32_eq, UInt32.toNat_ofNat']
    refine ⟨by omega, fun next value hvalue => .codeOffset hvalue (by omega)⟩
  · split at h
    · next v haddress =>
      simp only [Attempt.result_bind, Attempt.result_pure, Option.bind_eq_some_iff] at h
      obtain ⟨v', hv, ht⟩ := h
      obtain ⟨rfl, h0, hle⟩ := within_result hv
      cases ht
      rw [Nat.toUInt32_eq, UInt32.toNat_ofNat']
      -- A value of 16 bits is kept by a word.
      have hmod : (v'.toNat % 2 ^ 32 : Nat) = v' := by omega
      refine ⟨by omega, fun next value hvalue => ?_⟩
      obtain hform | ⟨_, hform⟩ := form_of_address? haddress <;> rw [hform, ← hmod]
      · exact .code hvalue
      · exact .codeSymbol hvalue
    · cases h

theorem isShort_iff {d : Int} : isShort d = true ↔ -128 ≤ d ∧ d ≤ 127 := by simp [isShort]

theorem signed_lowByte {d : Int} (h : isShort d = true) : Machine.signed (lowByte d) = d := by
  obtain ⟨hmin, hmax⟩ := isShort_iff.mp h
  unfold Machine.signed lowByte
  rw [Nat.toUInt8_eq, UInt8.toNat_ofNat']
  split <;> omega

/-- A short distance from the next instruction leads to the target. -/
theorem target?_relative {t : UInt32} (length : Nat) (ht : t.toNat < 65536)
    (hshort : isShort (distance (point + length.toUInt32) t) = true) :
    Value.target? (point.toNat + length)
      (.relative (lowByte (distance (point + length.toUInt32) t))) = some t.toNat := by
  -- The next address wraps at 32 bits, which does not show in 16.
  rw [Value.target?, signed_lowByte hshort, distance, UInt32.toNat_add, Nat.toUInt32_eq,
    UInt32.toNat_ofNat', Option.some.injEq]
  omega

theorem relative_result {t next : UInt32} {b : UInt8}
    (h : (op.relative next t).result = some b) :
    isShort (distance next t) = true ∧ b = lowByte (distance next t) := by
  unfold relative at h
  simp only at h
  split at h
  · next hshort =>
    cases h
    exact ⟨hshort, rfl⟩
  · cases h

end Operand
end Fields

end Mcs51
