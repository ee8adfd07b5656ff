import Mcs51.CodeUnit

/-!
# The settings that an encoding looks at

Encoding a reading of the operands asks the policy and nothing else. Which readings there are is a
matter of the register bank. So an instruction, and the unit it is in, is compiled alike under any
two settings with the same policy and the same bank.

* `Family.encode_of_policy`: the bytes and the findings of a reading depend on the policy.
* `Instruction.readings_of_bank`: the readings depend on the bank.
* `CodeUnit.compile_of_settings`: a compiled unit depends on both, and on nothing else.
-/

namespace Mcs51

variable {s t : Settings}

theorem Family.encode_of_policy (hpolicy : s.policy = t.policy) (f : Family) (point : UInt32)
    (name : Mnemonic) (ops : List Operand) :
    f.encode ⟨s, point, name⟩ ops = f.encode ⟨t, point, name⟩ ops := by
  obtain ⟨policy, bank, maxPasses, recordSize, language⟩ := s
  obtain ⟨policy', bank', maxPasses', recordSize', language'⟩ := t
  cases hpolicy
  cases f <;> rfl

namespace Instruction

theorem second_of_bank (hbank : s.bank = t.bank) (op : Operand) : second s op = second t op := by
  unfold second
  rw [hbank]

theorem readings_of_bank (hbank : s.bank = t.bank) :
    ∀ ops, readings s ops = readings t ops
  | [] => rfl
  | op :: ops => by
    simp only [readings, second_of_bank hbank op, readings_of_bank hbank ops]

theorem encodeReadings_of_settings (hpolicy : s.policy = t.policy) (hbank : s.bank = t.bank)
    (i : Instruction) (point : UInt32) (name : Mnemonic) (ops : List Operand) :
    i.encodeReadings ⟨s, point, name⟩ ops = i.encodeReadings ⟨t, point, name⟩ ops := by
  simp only [encodeReadings, refusal, Family.encode_of_policy hpolicy, readings_of_bank hbank,
    second_of_bank hbank]

/-- **An instruction is encoded alike under the same policy and the same bank.** -/
theorem encode_of_settings (hpolicy : s.policy = t.policy) (hbank : s.bank = t.bank)
    (i : Instruction) (point : UInt32) (name : Mnemonic) (ops : List Operand) :
    i.encode ⟨s, point, name⟩ ops = i.encode ⟨t, point, name⟩ ops := by
  simp only [encode, encodeReadings_of_settings hpolicy hbank, Settings.take, hpolicy]

end Instruction

/-- **So is a unit compiled.** -/
theorem CodeUnit.compile_of_settings (hpolicy : s.policy = t.policy) (hbank : s.bank = t.bank) :
    CodeUnit.compile s = CodeUnit.compile t := by
  funext u
  simp only [compile, recompile, Instruction.encode_of_settings hpolicy hbank]

end Mcs51
