import Mcs51.Proofs.DecimalNumerals
import Mcs51.Proofs.OperandDenotation

/-!
# Writing operands down

Each operand of a machine instruction has a text in the source: a name, or a decimal number after
its sign. A code address is written as the number it leads to. Reading the text gives an operand of
the form that the machine operand asks for (`Machine.read_text`), and encoding that operand gives
the field back, without a finding (`Operand.direct_written`, `Operand.target_written` and the like).
-/

namespace Mcs51

/-! ## Texts -/

namespace Machine

/-- The text of an operand, for an instruction that is followed by one at `next`. -/
def Value.text (next : Nat) : Value → Text
  | .a => Text.ofString "a"
  | .c => Text.ofString "c"
  | .ab => Text.ofString "ab"
  | .dptr => Text.ofString "dptr"
  | .register n => 'r'.toUInt8 :: Text.ofNat n
  | .pointer n => '@'.toUInt8 :: 'r'.toUInt8 :: Text.ofNat n
  | .atDptr => Text.ofString "@dptr"
  | .atADptr => Text.ofString "@a+dptr"
  | .atAPc => Text.ofString "@a+pc"
  | .direct address | .bit address => Text.ofNat address.toNat
  | .negatedBit address => '/'.toUInt8 :: Text.ofNat address.toNat
  | .immediate byte => '#'.toUInt8 :: Text.ofNat byte.toNat
  | .immediateWord word => '#'.toUInt8 :: Text.ofNat word
  | value => Text.ofNat ((value.target? next).getD 0)

/-- What the text of an operand means. -/
def Value.form (next : Nat) : Value → Form
  | .a => .reserved .a
  | .c => .reserved .c
  | .ab => .reserved .ab
  | .dptr => .reserved .dptr
  | .register n => .reserved (.r n)
  | .pointer n => .indirect (.r n)
  | .atDptr => .indirect .dptr
  | .atADptr => .indirect .aDptr
  | .atAPc => .indirect .aPc
  | .direct address | .bit address => .address .any address.toNat
  | .negatedBit address => .negated address.toNat
  | .immediate byte => .constant byte.toNat
  | .immediateWord word => .constant word
  | value => .address .any ((value.target? next).getD 0 : Nat)

/-- The operand has a value that its place in an instruction can hold. -/
def Value.Sound (next : Nat) : Value → Prop
  | .register n => n < 8
  | .pointer n => n < 2
  | .immediateWord word => word ≤ wordLimit
  | value => ∀ t ∈ value.target? next, t ≤ wordLimit

/-- The operand that is written for a machine operand. -/
def Value.operand (next : Nat) (pos : Position) (value : Value) : Operand :=
  ⟨value.text next, pos, value.form next⟩

/-- An operand that was read has a value that its place can hold. -/
theorem Reads.sound {opcode : UInt8} {slots : List Slot} {bytes : List UInt8}
    {values : List Value} (h : Reads opcode slots bytes values) (next : Nat) :
    ∀ value ∈ values, value.Sound next := by
  have hopcode := opcode.toNat_lt
  induction h with
  | nil => exact fun _ h => absurd h List.not_mem_nil
  | register h ih => exact List.forall_mem_cons.mpr ⟨Nat.mod_lt _ (by decide), ih⟩
  | pointer h ih => exact List.forall_mem_cons.mpr ⟨Nat.mod_lt _ (by decide), ih⟩
  | immediateWord high low h ih =>
    have hhigh := high.toNat_lt
    have hlow := low.toNat_lt
    refine List.forall_mem_cons.mpr ⟨?_, ih⟩
    show _ ≤ 0xffff
    omega
  | relative b h ih =>
    refine List.forall_mem_cons.mpr ⟨fun t ht => ?_, ih⟩
    cases ht
    show _ ≤ 0xffff
    omega
  | page b h ih =>
    have hb := b.toNat_lt
    refine List.forall_mem_cons.mpr ⟨fun t ht => ?_, ih⟩
    cases ht
    show _ ≤ 0xffff
    omega
  | long high low h ih =>
    have hhigh := high.toNat_lt
    have hlow := low.toNat_lt
    refine List.forall_mem_cons.mpr ⟨fun t ht => ?_, ih⟩
    cases ht
    show _ ≤ 0xffff
    omega
  | _ =>
    refine List.forall_mem_cons.mpr ⟨fun t ht => ?_, by assumption⟩
    cases ht

end Machine

/-! ## Reading texts -/

namespace Shape

variable {n : Nat}

/-- The decimal form of a number is a literal. -/
theorem of?_ofNat (n : Nat) : of? (Text.ofNat n) = some .address := by
  have hbytes : ∀ b ∈ Text.ofNat n, Text.isLiteralByte b = true := fun b hb => by
    rw [Text.isLiteralByte, (Text.digits_ofNat n).2 b hb, Bool.or_true]
  exact of?_eq_some_iff.mpr (isLiteral_iff.mpr ⟨Numeral.looksNumeric_ofNat n, hbytes⟩)

/-- What follows a tag has no line feed if it is a number. -/
theorem tagged?_ofNat (tag : UInt8) (n : Nat) :
    tagged? tag (tag :: Text.ofNat n) = some (Text.ofNat n) := by
  obtain ⟨hne, hdigits⟩ := Text.digits_ofNat n
  have hline : Text.lineFeed ∉ Text.ofNat n := fun hmem => absurd (hdigits _ hmem) (by decide)
  exact tagged?_eq_some_iff.mpr ⟨rfl, hne, hline⟩

theorem of?_constant (n : Nat) : of? ('#'.toUInt8 :: Text.ofNat n) = some .constant :=
  of?_eq_some_iff.mpr (Option.isSome_iff_exists.mpr ⟨_, tagged?_ofNat '#'.toUInt8 n⟩)

theorem of?_negated (n : Nat) : of? ('/'.toUInt8 :: Text.ofNat n) = some .negated :=
  of?_eq_some_iff.mpr (Option.isSome_iff_exists.mpr ⟨_, tagged?_ofNat '/'.toUInt8 n⟩)

end Shape

namespace Operand

variable {n : Nat} (pos : Position)

theorem read_number (h : n ≤ wordLimit) :
    read (Text.ofNat n) pos = .ok ⟨Text.ofNat n, pos, .address .any n⟩ := by
  simp only [read, classify, Shape.of?_ofNat, readShape, readNumber_ofNat h (by decide)]
  rfl

theorem read_constant (h : n ≤ wordLimit) :
    read ('#'.toUInt8 :: Text.ofNat n) pos
      = .ok ⟨'#'.toUInt8 :: Text.ofNat n, pos, .constant n⟩ := by
  simp only [read, classify, Shape.of?_constant, readShape, readConstant, List.drop_succ_cons,
    List.drop_zero, Numeral.looksNumeric_ofNat, readNumber_ofNat h (by decide)]
  rfl

theorem read_negated (h : n ≤ byteLimit) :
    read ('/'.toUInt8 :: Text.ofNat n) pos
      = .ok ⟨'/'.toUInt8 :: Text.ofNat n, pos, .negated n⟩ := by
  have hcut : Text.cut? '.'.toUInt8 (Text.ofNat n) = none :=
    Text.cut?_digits (by decide) (Text.digits_ofNat n).2
  simp only [read, classify, Shape.of?_negated, readShape, readNegated, List.drop_succ_cons,
    List.drop_zero, hcut, Numeral.looksNumeric_ofNat, readNumber_ofNat h (by decide)]
  rfl

theorem read_register (h : n < 8) :
    read ('r'.toUInt8 :: Text.ofNat n) pos
      = .ok ⟨'r'.toUInt8 :: Text.ofNat n, pos, .reserved (.r n)⟩ := by
  rw [Text.ofNat_of_lt (by omega)]
  rcases n with _ | _ | _ | _ | _ | _ | _ | _ | n
  any_goals rfl
  omega

theorem read_pointer (h : n < 2) :
    read ('@'.toUInt8 :: 'r'.toUInt8 :: Text.ofNat n) pos
      = .ok ⟨'@'.toUInt8 :: 'r'.toUInt8 :: Text.ofNat n, pos, .indirect (.r n)⟩ := by
  rw [Text.ofNat_of_lt (by omega)]
  rcases n with _ | _ | n
  any_goals rfl
  omega

end Operand

theorem toNat_le_byteLimit (b : UInt8) : b.toNat ≤ byteLimit := Nat.le_of_lt_succ b.toNat_lt

theorem toNat_le_wordLimit (b : UInt8) : b.toNat ≤ wordLimit :=
  Nat.le_trans (toNat_le_byteLimit b) (by decide)

/-- **The text of an operand is read as the operand that is meant.** -/
theorem Machine.read_text {next : Nat} {value : Value} (h : value.Sound next) (pos : Position) :
    Operand.read (value.text next) pos = .ok (value.operand next pos) := by
  cases value with
  | register n => exact Operand.read_register pos h
  | pointer n => exact Operand.read_pointer pos h
  | direct address => exact Operand.read_number pos (toNat_le_wordLimit address)
  | bit address => exact Operand.read_number pos (toNat_le_wordLimit address)
  | negatedBit address => exact Operand.read_negated pos (toNat_le_byteLimit address)
  | immediate byte => exact Operand.read_constant pos (toNat_le_wordLimit byte)
  | immediateWord word => exact Operand.read_constant pos h
  | relative distance => exact Operand.read_number pos (h _ rfl)
  | page offset => exact Operand.read_number pos (h _ rfl)
  | long address => exact Operand.read_number pos (h _ rfl)
  | _ => rfl

/-! ## Fields of written operands -/

namespace Operand

open Machine (Value)

variable {next n : Nat} {pos : Position}

theorem direct_written (b : UInt8) : ((Value.direct b).operand next pos).direct = .done b :=
  byte_of_toNat _ _ b

theorem bit_written (b : UInt8) : ((Value.bit b).operand next pos).bit = .done b :=
  byte_of_toNat _ _ b

theorem negatedBit_written (b : UInt8) :
    ((Value.negatedBit b).operand next pos).negatedBit = .done b :=
  byte_of_toNat _ _ b

theorem immediate_written (b : UInt8) :
    ((Value.immediate b).operand next pos).immediate = .done b :=
  byte_of_toNat _ _ b

theorem immediateWord_written (high low : UInt8) :
    ((Value.immediateWord (high.toNat * 256 + low.toNat)).operand next pos).immediateWord
      = .done [high, low] := by
  have hhigh := high.toNat_lt
  have hlow := low.toNat_lt
  show (fun v => [lowByte (v / 256), lowByte v]) <$> within _ 0xffff .constantTooBig _ = _
  rw [within_of_le _ _ (by omega) (by omega)]
  show Attempt.done [lowByte _, lowByte _] = _
  have hdiv : ((high.toNat * 256 + low.toNat : Nat) : Int) / 256 = high.toNat := by omega
  have hmod : lowByte (high.toNat * 256 + low.toNat : Nat) = lowByte low.toNat := by
    unfold lowByte
    congr 2
    omega
  rw [hdiv, hmod, lowByte_toNat, lowByte_toNat]

theorem register_written (h : n < 8) :
    ((Value.register n).operand next pos).register = .done n.toUInt8 := by
  show (if n ≤ 7 then _ else _) = _
  rw [if_pos (by omega)]

theorem pointer_written (h : n < 2) :
    ((Value.pointer n).operand next pos).pointer = .done n.toUInt8 := by
  show (if n ≤ 1 then _ else _) = _
  rw [if_pos (by omega)]

/-- A code address is written as the number that it leads to. -/
theorem target_written {value : Value} {t : Nat} (hvalue : value.target? next = some t)
    (ht : t ≤ wordLimit) (settings : Settings) (point : UInt32) :
    (value.operand next pos).target settings point = .done t.toUInt32 := by
  have hform : value.form next = .address .any t := by
    cases value <;> cases hvalue <;> rfl
  rw [wordLimit] at ht
  simp only [target, address?, Value.operand, hform]
  rw [within_of_le _ _ (by omega) (by omega)]
  rfl

end Operand

end Mcs51
