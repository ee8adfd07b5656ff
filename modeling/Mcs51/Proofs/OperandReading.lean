import Mcs51.Operand.Reader
import Mcs51.Proofs.Attempts

/-!
# Reading operands

Reading an operand gives it no value that only a layout can know (`Operand.bare_classify`). There is
an operand and nothing is found, or there is none and one error is found at the given place
(`Operand.decides_classify`).
-/

namespace Mcs51

/-! ## No values of symbols -/

/-- The form without the value that resolution gives. -/
def Form.bare : Form → Form
  | .symbolConstant s _ => .symbolConstant s none
  | .symbol _ => .symbol none
  | form => form

/-- The operand without the value that resolution gives. -/
def Operand.bare (op : Operand) : Operand := { op with form := op.form.bare }

namespace Operand

variable {text inner : Text} {pos : Position} {form : Form}

theorem bare_readConstant (h : (readConstant text inner pos).result = some form) :
    form.bare = form := by
  unfold readConstant at h
  split at h
  · obtain ⟨value, _, hv⟩ := Attempt.result_bind_eq_some.mp h
    cases hv
    rfl
  · split at h
    · split at h <;> (cases h; rfl)
    · cases h

theorem bare_readNegated (h : (readNegated text inner pos).result = some form) :
    form.bare = form := by
  unfold readNegated at h
  split at h
  · obtain ⟨value, _, hv⟩ := Attempt.result_bind_eq_some.mp h
    cases hv
    rfl
  · split at h
    · obtain ⟨value, _, hv⟩ := Attempt.result_bind_eq_some.mp h
      cases hv
      rfl
    · split at h <;> cases h
      rfl

theorem bare_readSymbol (text : Text) : (readSymbol text).bare = readSymbol text := by
  unfold readSymbol
  split
  · rfl
  · split
    · rfl
    · split <;> rfl

theorem bare_readIndirect (h : (readIndirect text inner pos).result = some form) :
    form.bare = form := by
  unfold readIndirect at h
  split at h <;> cases h
  rfl

theorem bare_readShape {shape : Shape} (h : (readShape text pos shape).result = some form) :
    form.bare = form := by
  cases shape with
  | constant => exact bare_readConstant h
  | bitAddress =>
    obtain ⟨value, _, hv⟩ := Attempt.result_bind_eq_some.mp h
    cases hv
    rfl
  | address =>
    obtain ⟨value, _, hv⟩ := Attempt.result_bind_eq_some.mp h
    cases hv
    rfl
  | negated => exact bare_readNegated h
  | offset =>
    obtain ⟨value, _, hv⟩ := Attempt.result_bind_eq_some.mp h
    cases hv
    rfl
  | symbol =>
    cases h
    exact bare_readSymbol text
  | indirect => exact bare_readIndirect h

/-- An operand that is read has no value that only a layout can know. -/
theorem bare_classify {op : Operand} (h : (classify text pos).result = some op) : op.bare = op := by
  unfold classify at h
  split at h
  · obtain ⟨form, hf, hop⟩ := Attempt.result_bind_eq_some.mp h
    cases hop
    simp only [bare, bare_readShape hf]
  · cases h

/-! ## Findings -/

open Attempt (decides_error)

theorem decides_readNumber (text : Text) (limit : Nat) (pos : Position) :
    (readNumber text limit pos).Decides pos := by
  unfold readNumber
  split
  · exact decides_error _ _ _
  · split
    · exact .done _
    · exact decides_error _ _ _

theorem decides_readBitByte (text byte : Text) (pos : Position) :
    (readBitByte text byte pos).Decides pos := by
  unfold readBitByte
  split
  · exact decides_readNumber _ _ _
  · split
    · exact .done _
    · exact decides_error _ _ _

theorem decides_readBitNumber (text bit : Text) (pos : Position) :
    (readBitNumber text bit pos).Decides pos := by
  unfold readBitNumber
  split
  · exact decides_error _ _ _
  · split
    · exact decides_error _ _ _
    · split
      · exact .done _
      · exact decides_error _ _ _

theorem decides_readBit (text byte bit : Text) (pos : Position) :
    (readBit text byte bit pos).Decides pos := by
  refine (decides_readBitByte text byte pos).bind fun address => ?_
  refine (decides_readBitNumber text bit pos).bind fun number => ?_
  split
  · exact .done _
  · exact decides_error _ _ _

theorem decides_readConstant (text inner : Text) (pos : Position) :
    (readConstant text inner pos).Decides pos := by
  unfold readConstant
  split
  · exact (decides_readNumber _ _ _).return _
  · split
    · split <;> exact .done _
    · exact decides_error _ _ _

theorem decides_readNegated (text inner : Text) (pos : Position) :
    (readNegated text inner pos).Decides pos := by
  unfold readNegated
  split
  · exact (decides_readBit _ _ _ _).return _
  · split
    · exact (decides_readNumber _ _ _).return _
    · split
      · exact .done _
      · exact decides_error _ _ _

theorem decides_readIndirect (text inner : Text) (pos : Position) :
    (readIndirect text inner pos).Decides pos := by
  unfold readIndirect
  split
  · exact .done _
  · exact decides_error _ _ _

theorem decides_readShape (text : Text) (pos : Position) (shape : Shape) :
    (readShape text pos shape).Decides pos := by
  cases shape with
  | constant => exact decides_readConstant _ _ _
  | bitAddress => exact (decides_readBit _ _ _ _).return _
  | address => exact (decides_readNumber _ _ _).return _
  | negated => exact decides_readNegated _ _ _
  | offset => exact (decides_readNumber _ _ _).return _
  | symbol => exact .done _
  | indirect => exact decides_readIndirect _ _ _

/-- **A text is taken for an operand, or reported as one error where it stands.** -/
theorem decides_classify (text : Text) (pos : Position) : (classify text pos).Decides pos := by
  unfold classify
  split
  · exact (decides_readShape _ _ _).return _
  · exact decides_error _ _ _

theorem read_eq_ok_iff {op : Operand} :
    read text pos = .ok op ↔ (classify text pos).result = some op := by
  unfold read Attempt.toExcept
  cases (classify text pos).result <;> simp

end Operand
end Mcs51
