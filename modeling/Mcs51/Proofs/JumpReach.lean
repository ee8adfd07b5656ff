import Mcs51.Proofs.EncodingErrors
import Mcs51.Proofs.JumpTargets

/-!
# How far jumps reach

A jump with valid operands is encoded exactly if its target is within its reach: near the next
instruction, in the page of the next instruction, or anywhere. The next instruction after a near
jump is two or three bytes away, which the operands before the distance decide.

* `NearJump` — operands with which a near jump exists on the machine
* `NearJump.length_eq` — they decide how long it is
* `NearJump.exists_lead`, `nearJump_of_lead` — they are the operands that encoding accepts
* `Instruction.encode_jump` — jumps lead to their targets, and are encoded where they reach them
-/

namespace Mcs51

open Machine (Value Slot shape? decode Denotes)

/-! ## Near jumps of the machine -/

/-- The bytes, with any distance after them, are the named instruction, and its operands before the
distance denote the given forms. -/
def NearJump (settings : Settings) (name : String) (forms : List Form) (bytes : Code) : Prop :=
  ∃ values, (∀ rel, decode (bytes ++ [rel]) = some ⟨name, values ++ [.relative rel]⟩) ∧
    ∀ point next, List.Forall₂ (Denotes settings point next) values forms

/-- The operands of the near jumps of a family before the distance, and the lengths of the
instructions. -/
inductive Family.BeforeDistance : Family → List Value → Nat → Prop
  | nothing (opcode : UInt8) : BeforeDistance (.shortJump opcode) [] 2
  | bit (opcode d : UInt8) : BeforeDistance (.bitJump opcode) [.bit d] 3
  | immediate (d : UInt8) : BeforeDistance .compareJump [.a, .immediate d] 3
  | direct (d : UInt8) : BeforeDistance .compareJump [.a, .direct d] 3
  | pointer {n : Nat} (hn : n < 2) (d : UInt8) :
    BeforeDistance .compareJump [.pointer n, .immediate d] 3
  | register {n : Nat} (hn : n < 8) (d : UInt8) :
    BeforeDistance .compareJump [.register n, .immediate d] 3
  | countRegister {n : Nat} (hn : n < 8) : BeforeDistance .countJump [.register n] 2
  | countDirect (d : UInt8) : BeforeDistance .countJump [.direct d] 3

namespace Machine

/-- The near jumps of the opcode map. -/
def nearShapes : List Shape :=
  [⟨"sjmp", [.relative], false⟩, ⟨"jc", [.relative], false⟩, ⟨"jnc", [.relative], false⟩,
   ⟨"jz", [.relative], false⟩, ⟨"jnz", [.relative], false⟩, ⟨"jb", [.bit, .relative], false⟩,
   ⟨"jnb", [.bit, .relative], false⟩, ⟨"jbc", [.bit, .relative], false⟩,
   ⟨"cjne", [.a, .immediate, .relative], false⟩, ⟨"cjne", [.a, .direct, .relative], false⟩,
   ⟨"cjne", [.pointer, .immediate, .relative], false⟩,
   ⟨"cjne", [.register, .immediate, .relative], false⟩, ⟨"djnz", [.register, .relative], false⟩,
   ⟨"djnz", [.direct, .relative], false⟩]

theorem mem_nearShapes {opcode : UInt8} {shape : Shape} (hshape : shape? opcode = some shape)
    (hnear : shape.name ∈ nearJumps) : shape ∈ nearShapes := by
  have hall : ∀ k < 256, ∀ shape ∈ shape? (UInt8.ofNat k), shape.name ∈ nearJumps →
      shape ∈ nearShapes := by
    decide +kernel
  exact of_shape? hall hshape hnear

theorem slotsSize_append : ∀ slots slots' : List Slot,
    slotsSize (slots ++ slots') = slotsSize slots + slotsSize slots'
  | [], _ => (Nat.zero_add _).symm
  | slot :: slots, slots' => by
    rw [List.cons_append, slotsSize, slotsSize, slotsSize_append slots slots', Nat.add_assoc]

section Holds

variable {opcode : UInt8} {value : Value}

theorem Slot.Holds.register (h : Slot.Holds opcode .register value) :
    ∃ n < 8, value = .register n := by
  obtain ⟨bytes, rest, hread⟩ := h
  cases hread
  exact ⟨_, Nat.mod_lt _ (by decide), rfl⟩

theorem Slot.Holds.pointer (h : Slot.Holds opcode .pointer value) :
    ∃ n < 2, value = .pointer n := by
  obtain ⟨bytes, rest, hread⟩ := h
  cases hread
  exact ⟨_, Nat.mod_lt _ (by decide), rfl⟩

theorem Slot.Holds.a (h : Slot.Holds opcode .a value) : value = .a := by
  obtain ⟨bytes, rest, hread⟩ := h
  cases hread
  rfl

theorem Slot.Holds.bit (h : Slot.Holds opcode .bit value) : ∃ d, value = .bit d := by
  obtain ⟨bytes, rest, hread⟩ := h
  cases bytes <;> cases hread
  exact ⟨_, rfl⟩

theorem Slot.Holds.direct (h : Slot.Holds opcode .direct value) : ∃ d, value = .direct d := by
  obtain ⟨bytes, rest, hread⟩ := h
  cases bytes <;> cases hread
  exact ⟨_, rfl⟩

theorem Slot.Holds.immediate (h : Slot.Holds opcode .immediate value) :
    ∃ d, value = .immediate d := by
  obtain ⟨bytes, rest, hread⟩ := h
  cases bytes <;> cases hread
  exact ⟨_, rfl⟩

end Holds

end Machine

open Machine (nearShapes)

/-- The slots of the near jumps of a family before the distance. -/
def Family.nearSlots : Family → List (List Slot)
  | .shortJump _ => [[]]
  | .bitJump _ => [[.bit]]
  | .compareJump =>
    [[.a, .immediate], [.a, .direct], [.pointer, .immediate], [.register, .immediate]]
  | .countJump => [[.register], [.direct]]
  | _ => []

/-- The opcode map has the slots of the family. -/
theorem Family.mem_nearSlots {f : Family} {shape : Machine.Shape} (hmem : shape ∈ nearShapes)
    (hjump : shape.name ∈ f.jumps) : shape.slots.dropLast ∈ f.nearSlots := by
  cases f with
  | shortJump opcode =>
    have hall : ∀ shape ∈ nearShapes, shape.name ∈ ["sjmp", "jc", "jnc", "jz", "jnz"] →
        shape.slots.dropLast ∈ [[]] := by decide
    exact hall shape hmem hjump
  | bitJump opcode =>
    have hall : ∀ shape ∈ nearShapes, shape.name ∈ ["jb", "jnb", "jbc"] →
        shape.slots.dropLast ∈ [[.bit]] := by decide
    exact hall shape hmem hjump
  | compareJump =>
    have hall : ∀ shape ∈ nearShapes, shape.name ∈ compareJump.jumps →
        shape.slots.dropLast ∈ compareJump.nearSlots := by decide
    exact hall shape hmem hjump
  | countJump =>
    have hall : ∀ shape ∈ nearShapes, shape.name ∈ countJump.jumps →
        shape.slots.dropLast ∈ countJump.nearSlots := by decide
    exact hall shape hmem hjump
  | pageJump opcode =>
    have hall : ∀ shape ∈ nearShapes, shape.name ∉ pageJumps := by decide
    exact absurd hjump (hall shape hmem)
  | longJump opcode =>
    have hall : ∀ shape ∈ nearShapes, shape.name ∉ ["ljmp", "lcall"] := by decide
    exact absurd hjump (hall shape hmem)
  | anyJump =>
    have hall : ∀ shape ∈ nearShapes, shape.name ∉ anyJump.jumps := by decide
    exact absurd hjump (hall shape hmem)
  | anyCall =>
    have hall : ∀ shape ∈ nearShapes, shape.name ∉ anyCall.jumps := by decide
    exact absurd hjump (hall shape hmem)
  | _ => cases hjump

theorem Family.beforeDistance_of_holds {f : Family} {opcode : UInt8} {slots : List Slot}
    (hslots : slots ∈ f.nearSlots) {values : List Value}
    (h : List.Forall₂ (Slot.Holds opcode) slots values) :
    f.BeforeDistance values (Machine.slotsSize slots + 2) := by
  cases f with
  | shortJump opcode =>
    cases List.mem_singleton.mp hslots
    cases h
    exact .nothing opcode
  | bitJump opcode =>
    cases List.mem_singleton.mp hslots
    obtain _ | ⟨hbit, _ | _⟩ := h
    obtain ⟨d, rfl⟩ := hbit.bit
    exact .bit opcode d
  | compareJump =>
    have hslots : slots ∈ [[.a, .immediate], [.a, .direct], [.pointer, .immediate],
      [.register, .immediate]] := hslots
    simp only [List.mem_cons, List.not_mem_nil, or_false] at hslots
    rcases hslots with rfl | rfl | rfl | rfl <;> obtain _ | ⟨hleft, _ | ⟨hright, _ | _⟩⟩ := h
    · obtain ⟨d, rfl⟩ := hright.immediate
      rw [hleft.a]
      exact .immediate d
    · obtain ⟨d, rfl⟩ := hright.direct
      rw [hleft.a]
      exact .direct d
    · obtain ⟨d, rfl⟩ := hright.immediate
      obtain ⟨n, hn, rfl⟩ := hleft.pointer
      exact .pointer hn d
    · obtain ⟨d, rfl⟩ := hright.immediate
      obtain ⟨n, hn, rfl⟩ := hleft.register
      exact .register hn d
  | countJump =>
    have hslots : slots ∈ [[.register], [.direct]] := hslots
    simp only [List.mem_cons, List.not_mem_nil, or_false] at hslots
    rcases hslots with rfl | rfl <;> obtain _ | ⟨hcounter, _ | _⟩ := h
    · obtain ⟨n, hn, rfl⟩ := hcounter.register
      exact .countRegister hn
    · obtain ⟨d, rfl⟩ := hcounter.direct
      exact .countDirect d
  | _ => cases hslots

/-- **What a near jump of a family is on the machine.** -/
theorem NearJump.beforeDistance {settings : Settings} {name : String} {f : Family}
    (hnear : name ∈ nearJumps) (hjump : name ∈ f.jumps) {forms : List Form} {bytes : Code}
    (h : NearJump settings name forms bytes) :
    ∃ values, f.BeforeDistance values (bytes.length + 1) ∧
      ∀ point next, List.Forall₂ (Denotes settings point next) values forms := by
  obtain ⟨values, hdecode, hden⟩ := h
  refine ⟨values, ?_, hden⟩
  obtain ⟨opcode, shape, hshape, rfl, hlength, hholds⟩ := Machine.holds_of_decode (hdecode 0)
  have hmem := Machine.mem_nearShapes hshape hnear
  obtain ⟨hswapped, hlast⟩ : shape.swapped = false ∧ shape.slots.getLast? = some .relative := by
    have hall : ∀ shape ∈ nearShapes,
        shape.swapped = false ∧ shape.slots.getLast? = some .relative := by decide
    exact hall shape hmem
  rw [hswapped, if_neg Bool.false_ne_true] at hholds
  -- the distance is in the last slot, and the slots before it are those of the family
  obtain ⟨slots, slot, hslots, hvalues, _⟩ := forall₂_concat hholds
  have hfamily := f.mem_nearSlots hmem hjump
  rw [hslots, List.dropLast_concat] at hfamily
  rw [hslots, List.getLast?_concat] at hlast
  cases hlast
  have hsize : bytes.length + 1 = Machine.slotsSize slots + 2 := by
    rw [List.length_append, List.length_singleton, Machine.Shape.length, hslots,
      Machine.slotsSize_append] at hlength
    simp only [Machine.slotsSize, Slot.size] at hlength
    omega
  rw [hsize]
  exact Family.beforeDistance_of_holds hfamily hvalues

/-! ## The length of a near jump -/

/-- The operand is a register. -/
def Form.isRegister : Form → Bool
  | .reserved (.r _) => true
  | _ => false

/-- The number of bytes of a near jump with operands of the given forms before the distance. A
register is in the opcode, another operand in a byte of its own; of two operands one is in the
opcode. -/
def nearLength : List Form → Nat
  | [] => 2
  | [form] => if form.isRegister then 2 else 3
  | _ :: _ :: _ => 3

section Denotes

variable {settings : Settings} {point : UInt32} {next : Nat} {form : Form}

theorem Machine.Denotes.register_form {n : Nat}
    (h : Denotes settings point next (.register n) form) : form = .reserved (.r n) := by
  cases h with
  | register => rfl
  | code ht | codeSymbol ht | codeOffset ht _ => cases ht

theorem Machine.Denotes.pointer_form {n : Nat} (h : Denotes settings point next (.pointer n) form) :
    form = .indirect (.r n) := by
  cases h with
  | pointer => rfl
  | code ht | codeSymbol ht | codeOffset ht _ => cases ht

theorem Machine.Denotes.a_form (h : Denotes settings point next .a form) :
    form = .reserved .a := by
  cases h with
  | a => rfl
  | code ht | codeSymbol ht | codeOffset ht _ => cases ht

theorem Machine.Denotes.bit_form {d : UInt8} (h : Denotes settings point next (.bit d) form) :
    form.isRegister = false := by
  cases h <;> rfl

/-- Without a bank a register has no address. -/
theorem Machine.Denotes.direct_form (hbank : settings.bank = none) {d : UInt8}
    (h : Denotes settings point next (.direct d) form) : form.isRegister = false := by
  cases h with
  | directRegister _ hsome =>
    rw [hbank] at hsome
    cases hsome
  | _ => rfl

theorem byte_of_toNat_result (op : Operand) (complaint : Complaint) (d : UInt8) :
    (Operand.lowByte <$> op.within 0xff complaint (d.toNat : Int)).result = some d :=
  congrArg Attempt.result (op.byte_of_toNat complaint d)

/-- An immediate byte is the value of the operand that it denotes. -/
theorem immediate_of_denotes {op : Operand} {d : UInt8}
    (h : Denotes settings point next (.immediate d) op.form) : op.immediate.result = some d := by
  unfold Operand.immediate Operand.constant?
  generalize op.form = form at h
  cases h with
  | immediate => exact byte_of_toNat_result _ _ d
  | immediateSymbol hd =>
    simp only [hd]
    exact byte_of_toNat_result _ _ d
  | code ht | codeSymbol ht | codeOffset ht _ => cases ht

theorem register_of_form {op : Operand} {n : Nat} (hn : n < 8) (h : op.form = .reserved (.r n)) :
    op.register.result = some n.toUInt8 := by
  simp only [Operand.register, Operand.register?, h, if_pos (Nat.le_of_lt_succ hn)]
  rfl

theorem pointer_of_form {op : Operand} {n : Nat} (hn : n < 2) (h : op.form = .indirect (.r n)) :
    op.pointer.result = some n.toUInt8 := by
  simp only [Operand.pointer, Operand.indirectRegister?, h, if_pos (Nat.le_of_lt_succ hn)]
  rfl

theorem direct_of_address {op : Operand} (space : Space) {d : UInt8} (hspace : space ≠ .bit)
    (h : op.address? = some (space, (d.toNat : Int))) : op.direct.result = some d := by
  simp only [Operand.direct, h, if_neg hspace]
  exact byte_of_toNat_result _ _ d

theorem bit_of_address {op : Operand} (space : Space) {d : UInt8} (hspace : space ≠ .byte)
    (h : op.address? = some (space, (d.toNat : Int))) : op.bit.result = some d := by
  simp only [Operand.bit, h, if_neg hspace]
  exact byte_of_toNat_result _ _ d

/-- `reading` is one of the readings of an operand. -/
def ReadsAs (settings : Settings) (op reading : Operand) : Prop :=
  reading = op ∨ Instruction.second settings op = .direct reading

/-- A byte address is the value of some reading of the operand that it denotes. -/
theorem direct_of_denotes (hbank : settings.bank = none) {op : Operand} {d : UInt8}
    (h : Denotes settings point next (.direct d) op.form) :
    ∃ reading, ReadsAs settings op reading ∧ reading.direct.result = some d := by
  generalize hform : op.form = form at h
  cases h with
  | direct _ hspace =>
    exact ⟨op, .inl rfl, direct_of_address _ hspace (by rw [Operand.address?, hform])⟩
  | directSymbol =>
    exact ⟨op, .inl rfl, direct_of_address .any (by decide) (by rw [Operand.address?, hform])⟩
  | directA =>
    refine ⟨op.withAddress SpecialRegister.accumulator .byte, .inr ?_, ?_⟩
    · rw [Instruction.second, hform]
    · exact direct_of_address .byte (by decide) rfl
  | directRegister _ hsome =>
    rw [hbank] at hsome
    cases hsome
  -- a byte address is no code address
  | code ht | codeSymbol ht | codeOffset ht _ => cases ht

theorem bit_of_denotes {op : Operand} {d : UInt8}
    (h : Denotes settings point next (.bit d) op.form) :
    ∃ reading, ReadsAs settings op reading ∧ reading.bit.result = some d := by
  generalize hform : op.form = form at h
  cases h with
  | bit _ hspace =>
    exact ⟨op, .inl rfl, bit_of_address _ hspace (by rw [Operand.address?, hform])⟩
  | bitSymbol =>
    exact ⟨op, .inl rfl, bit_of_address .any (by decide) (by rw [Operand.address?, hform])⟩
  | bitC =>
    refine ⟨op.withAddress SpecialRegister.carry .bit, .inr ?_, ?_⟩
    · rw [Instruction.second, hform]
    · exact bit_of_address .bit (by decide) rfl
  | code ht | codeSymbol ht | codeOffset ht _ => cases ht

end Denotes

/-- **The operands of a near jump decide how long it is.** -/
theorem NearJump.length_eq {settings : Settings} (hbank : settings.bank = none) {name : String}
    {f : Family} (hnear : name ∈ nearJumps) (hjump : name ∈ f.jumps) {forms : List Form}
    {bytes : Code} (h : NearJump settings name forms bytes) :
    bytes.length + 1 = nearLength forms := by
  obtain ⟨values, hbefore, hden⟩ := h.beforeDistance hnear hjump
  have hden := hden 0 0
  generalize bytes.length + 1 = length at hbefore
  cases hbefore with
  | nothing _ =>
    cases hden
    rfl
  | bit _ d =>
    obtain _ | ⟨hd, _ | _⟩ := hden
    rw [nearLength, hd.bit_form]
    rfl
  | immediate d | direct d | pointer _ d | register _ d =>
    obtain _ | ⟨_, _ | ⟨_, _ | _⟩⟩ := hden
    rfl
  | countRegister _ =>
    obtain _ | ⟨hn, _ | _⟩ := hden
    rw [hn.register_form]
    rfl
  | countDirect d =>
    obtain _ | ⟨hd, _ | _⟩ := hden
    rw [nearLength, hd.direct_form hbank]
    rfl

/-! ## Operands before the distance -/

/-- The bytes of a near jump before the distance. -/
def Family.leadCode : Family → List Operand → Attempt Code
  | .shortJump opcode, [] => .done [opcode]
  | .bitJump opcode, [bitOp] => do return [opcode, ← bitOp.bit]
  | .compareJump, [left, right] => comparison left right
  | .countJump, [counterOp] => counter counterOp
  | _, _ => .mismatch

theorem mem_readings {settings : Settings} : ∀ {ops reading : List Operand},
    List.Forall₂ (ReadsAs settings) ops reading → reading ∈ Instruction.readings settings ops
  | [], _, .nil => List.mem_singleton_self _
  | op :: ops, r :: reading, .cons hop hops => by
    have ih := mem_readings hops
    unfold Instruction.readings
    split
    · next other hsecond =>
      refine List.mem_flatMap.mpr ⟨reading, ih, ?_⟩
      rcases hop with rfl | hother
      · exact List.mem_cons_self
      · rw [hsecond] at hother
        cases hother
        exact List.mem_cons_of_mem _ (List.mem_singleton_self _)
    · next hnone =>
      rcases hop with rfl | hother
      · exact List.mem_map_of_mem ih
      · exact absurd hother (hnone r)

section Succeeds

variable {α β : Type} {x y : Attempt α}

theorem Attempt.succeeds_of_result {a : α} (h : x.result = some a) : x.succeeds = true := by
  rw [succeeds, h, Option.isSome_some]

theorem Attempt.succeeds_return (g : α → β) :
    (do return g (← x) : Attempt β).succeeds = x.succeeds := by
  simp only [succeeds, result_bind, result_pure]
  cases x.result <;> rfl

theorem Attempt.succeeds_bind {a : α} (h : x.result = some a) (g : α → Attempt β) :
    (x >>= g).succeeds = (g a).succeeds := by
  rw [succeeds, result_bind, h, Option.bind_some, succeeds]

theorem Attempt.succeeds_orElse : (x <|> y).succeeds = (x.succeeds || y.succeeds) := by
  rw [succeeds, result_orElse, Option.isSome_or]
  rfl

end Succeeds

namespace Family

theorem succeeds_comparison_a {left right : Operand} (ha : left.form = .reserved .a) :
    (comparison left right).succeeds = (right.immediate.succeeds || right.direct.succeeds) := by
  have hleft : left.isReservedAs .a = true := by simp [Operand.isReservedAs, ha]
  rw [comparison, if_pos hleft, Attempt.succeeds_orElse, Attempt.succeeds_return,
    Attempt.succeeds_return]

theorem succeeds_comparison {left right : Operand} (hleft : left.isReservedAs .a = false)
    {d : UInt8} (hright : right.immediate.result = some d) :
    (comparison left right).succeeds = (left.pointer.succeeds || left.register.succeeds) := by
  rw [comparison, hleft, if_neg Bool.false_ne_true, Attempt.succeeds_bind hright,
    Attempt.succeeds_orElse, Attempt.succeeds_return, Attempt.succeeds_return]

theorem succeeds_counter (op : Operand) :
    (counter op).succeeds = (op.register.succeeds || op.direct.succeeds) := by
  rw [counter, Attempt.succeeds_orElse, Attempt.succeeds_return, Attempt.succeeds_return]

end Family

/-- **Encoding accepts the operands of near jumps**, each in one of its readings. -/
theorem NearJump.exists_lead {settings : Settings} (hbank : settings.bank = none) {name : String}
    {f : Family} (hnear : name ∈ nearJumps) (hjump : name ∈ f.jumps) {lead : List Operand}
    {bytes : Code} (h : NearJump settings name (lead.map Operand.form) bytes) :
    ∃ reading ∈ Instruction.readings settings lead, (f.leadCode reading).succeeds = true := by
  obtain ⟨values, hbefore, hden⟩ := h.beforeDistance hnear hjump
  -- nothing before the distance depends on the place of the jump
  have hden := hden 0 0
  rw [List.forall₂_map_right_iff] at hden
  generalize bytes.length + 1 = length at hbefore
  cases hbefore with
  | nothing opcode =>
    cases hden
    exact ⟨[], mem_readings .nil, rfl⟩
  | bit opcode d =>
    obtain _ | ⟨hd, _ | _⟩ := hden
    obtain ⟨reading, hreads, hresult⟩ := bit_of_denotes hd
    refine ⟨[reading], mem_readings (.cons hreads .nil), ?_⟩
    rw [Family.leadCode, Attempt.succeeds_return, Attempt.succeeds_of_result hresult]
  | immediate d =>
    obtain _ | ⟨ha, _ | ⟨hd, _ | _⟩⟩ := hden
    refine ⟨_, mem_readings (.cons (.inl rfl) (.cons (.inl rfl) .nil)), ?_⟩
    rw [Family.leadCode, Family.succeeds_comparison_a ha.a_form,
      Attempt.succeeds_of_result (immediate_of_denotes hd), Bool.true_or]
  | direct d =>
    obtain _ | ⟨ha, _ | ⟨hd, _ | _⟩⟩ := hden
    obtain ⟨reading, hreads, hresult⟩ := direct_of_denotes hbank hd
    refine ⟨_, mem_readings (.cons (.inl rfl) (.cons hreads .nil)), ?_⟩
    rw [Family.leadCode, Family.succeeds_comparison_a ha.a_form,
      Attempt.succeeds_of_result hresult, Bool.or_true]
  | pointer hn d =>
    obtain _ | ⟨hpointer, _ | ⟨hd, _ | _⟩⟩ := hden
    have hform := hpointer.pointer_form
    refine ⟨_, mem_readings (.cons (.inl rfl) (.cons (.inl rfl) .nil)), ?_⟩
    rw [Family.leadCode, Family.succeeds_comparison (by simp [Operand.isReservedAs, hform])
      (immediate_of_denotes hd), Attempt.succeeds_of_result (pointer_of_form hn hform),
      Bool.true_or]
  | register hn d =>
    obtain _ | ⟨hregister, _ | ⟨hd, _ | _⟩⟩ := hden
    have hform := hregister.register_form
    refine ⟨_, mem_readings (.cons (.inl rfl) (.cons (.inl rfl) .nil)), ?_⟩
    rw [Family.leadCode, Family.succeeds_comparison (by simp [Operand.isReservedAs, hform])
      (immediate_of_denotes hd), Attempt.succeeds_of_result (register_of_form hn hform),
      Bool.or_true]
  | countRegister hn =>
    obtain _ | ⟨hregister, _ | _⟩ := hden
    refine ⟨_, mem_readings (.cons (.inl rfl) .nil), ?_⟩
    rw [Family.leadCode, Family.succeeds_counter,
      Attempt.succeeds_of_result (register_of_form hn hregister.register_form), Bool.true_or]
  | countDirect d =>
    obtain _ | ⟨hd, _ | _⟩ := hden
    obtain ⟨reading, hreads, hresult⟩ := direct_of_denotes hbank hd
    refine ⟨[reading], mem_readings (.cons hreads .nil), ?_⟩
    rw [Family.leadCode, Family.succeeds_counter, Attempt.succeeds_of_result hresult, Bool.or_true]

theorem StartsJump.nearJump {name : String} {forms : List Form} {bytes : Code}
    (h : StartsJump name forms bytes) (settings : Settings) :
    NearJump settings name forms bytes := by
  obtain ⟨values, hdecode, hden⟩ := h
  exact ⟨values, hdecode, hden settings⟩

/-- **What encoding puts before the distance is a near jump.** -/
theorem nearJump_of_lead {f : Family} {name : String} {most : Nat} (hmapped : f.Mapped name most)
    {settings : Settings} {lead reading : List Operand}
    (hreading : reading ∈ Instruction.readings settings lead) {bytes : Code}
    (h : (f.leadCode reading).result = some bytes) :
    NearJump settings name (lead.map Operand.form) bytes := by
  have hstart : StartsJump name (reading.map Operand.form) bytes := by
    unfold Family.leadCode at h
    split at h
    · next opcode =>
      cases h
      have hmap : Maps opcode name ([] ++ [.relative]) := hmapped
      exact hmap.startsJump [] (fun _ => rfl) fun _ _ _ => .nil
    · next opcode bitOp =>
      obtain ⟨d, hd, rfl⟩ := Attempt.result_return_eq_some.mp h
      have hmap : Maps opcode name ([.bit] ++ [.relative]) := hmapped
      exact hmap.startsJump [.bit d] (fun _ => rfl) fun _ _ _ =>
        .cons (Operand.denotes_bit hd) .nil
    · cases hmapped
      exact startsJump_comparison h
    · cases hmapped
      exact startsJump_counter h
    · cases h
  obtain ⟨values, hdecode, hden⟩ := hstart.nearJump settings
  exact ⟨values, hdecode, fun point next =>
    denotes_of_covers (hden point next) (Instruction.covers_of_mem_readings hreading)⟩

/-! ## Encoding near jumps -/

/-- A near jump is the bytes before the distance, and the distance. -/
theorem Family.encode_near {f : Family} (hnear : f.nearSlots ≠ []) (site : Site)
    (reading : List Operand) (op : Operand) :
    (f.encode site (reading ++ [op])).result
      = (f.leadCode reading).result.bind fun bytes => (withDistance site bytes op).result := by
  cases f with
  | shortJump opcode =>
    obtain _ | ⟨_, _ | _⟩ := reading <;> rfl
  | bitJump opcode =>
    obtain _ | ⟨bitOp, _ | ⟨_, _ | _⟩⟩ := reading
    case cons.nil =>
      simp only [List.cons_append, List.nil_append, encode, leadCode, Attempt.result_bind,
        Attempt.result_pure, Option.bind_assoc, Option.bind_some]
    all_goals rfl
  | compareJump =>
    obtain _ | ⟨left, _ | ⟨right, _ | ⟨_, _ | _⟩⟩⟩ := reading
    case cons.cons.nil => exact Attempt.result_bind _ _
    all_goals rfl
  | countJump =>
    obtain _ | ⟨counterOp, _ | ⟨_, _ | _⟩⟩ := reading
    case cons.nil => exact Attempt.result_bind _ _
    all_goals rfl
  | _ => exact absurd rfl hnear

/-- The address is at most a signed byte away from the instruction after one of `length` bytes. -/
def Near (point : UInt32) (length t : Nat) : Prop :=
  -128 ≤ (t : Int) - (point + length.toUInt32).toNat ∧
    (t : Int) - (point + length.toUInt32).toNat ≤ 127

/-- The address is in the page of the instruction after one of two bytes: bits 11 to 15 agree. -/
def SamePage (point : UInt32) (t : Nat) : Prop := t / 2048 % 32 = (point + 2).toNat / 2048 % 32

section Succeeds

variable {site : Site} {op : Operand} {t : Nat} (h : Targets site.settings site.point op.form t)

include h

theorem succeeds_withDistance (bytes : Code) :
    (Family.withDistance site bytes op).succeeds = true ↔
      Near site.point (bytes.length + 1) t := by
  rw [Near, ← Operand.isShort_iff, Family.withDistance, Attempt.succeeds_bind h.result,
    Attempt.succeeds_return, Operand.relative, Operand.distance, h.toNat]
  split
  · next hyes => exact iff_of_true rfl hyes
  · next hno => exact iff_of_false Bool.false_ne_true hno

theorem succeeds_encodePageJump (opcode : UInt8) :
    (Family.encodePageJump site opcode op).succeeds = true ↔ SamePage site.point t := by
  have hpage : Family.samePage site.point t.toUInt32 = true ↔ SamePage site.point t := by
    rw [Family.samePage, beq_iff_eq, ← UInt32.toNat_inj, toNat_pageOf, toNat_pageOf, h.toNat,
      SamePage]
  rw [← hpage, Family.encodePageJump, Attempt.succeeds_bind h.result]
  split
  · next hyes => exact iff_of_true rfl hyes
  · next hno => exact iff_of_false Bool.false_ne_true hno

theorem succeeds_encodeLongJump (opcode : UInt8) :
    (Family.encodeLongJump site opcode op).succeeds = true := by
  rw [Family.encodeLongJump, Attempt.succeeds_bind h.result]
  rfl

theorem succeeds_encodeAnyJump : (Family.encodeAnyJump site op).succeeds = true := by
  have hplain : op.pointsTo .aDptr = false := by
    unfold Operand.pointsTo
    generalize op.form = form at h
    cases h <;> rfl
  rw [Family.encodeAnyJump, hplain, if_neg Bool.false_ne_true, Attempt.succeeds_bind h.result]
  simp only
  repeat' split
  all_goals rfl

theorem succeeds_encodeAnyCall : (Family.encodeAnyCall site op).succeeds = true := by
  rw [Family.encodeAnyCall, Attempt.succeeds_bind h.result]
  split <;> rfl

end Succeeds

/-! ## All jumps -/

namespace Instruction

theorem succeeds_encodeReadings {i : Instruction} {site : Site} {ops : List Operand} :
    (i.encodeReadings site ops).succeeds = true ↔
      ∃ reading ∈ readings site.settings ops, (i.family.encode site reading).succeeds = true := by
  unfold encodeReadings
  split
  · next reading hfind =>
    have hsucceeds := List.find?_some hfind
    exact iff_of_true hsucceeds ⟨reading, List.mem_of_find?_eq_some hfind, hsucceeds⟩
  · next hfind =>
    refine iff_of_false nofun ?_
    rintro ⟨reading, hmem, hsucceeds⟩
    exact List.find?_eq_none.mp hfind reading hmem hsucceeds

/-- The operand of a jump that stands for a code address has no second reading. -/
theorem readings_concat {settings : Settings} {point : UInt32} {op : Operand} {t : Nat}
    (h : Targets settings point op.form t) : ∀ lead : List Operand,
      readings settings (lead ++ [op]) = (readings settings lead).map (· ++ [op])
  | [] => by
    have hsecond : second settings op = .none := by
      unfold second
      generalize op.form = form at h
      cases h <;> rfl
    simp only [List.nil_append, readings, hsecond]
    rfl
  | first :: lead => by
    have ih := readings_concat h lead
    rw [List.cons_append, readings, ih, readings]
    split
    · rw [List.flatMap_map, List.map_flatMap]
      rfl
    · rw [List.map_map, List.map_map]
      rfl

/-- The operands of the instruction are resolved, and those after the last that it uses are
allowed. -/
structure Accepts (i : Instruction) (settings : Settings) (ops : List Operand) : Prop where
  resolved : ∀ op ∈ ops, op.isResolved = true
  enough : i.fewest ≤ ops.length
  trailing : ops.length ≤ i.most ∨ settings.policy .trailingOperand ≠ .error

theorem Accepts.result_encode {i : Instruction} {site : Site} {ops : List Operand}
    (h : i.Accepts site.settings ops) :
    (i.encode site ops).result = (i.encodeReadings site (ops.take i.most)).result := by
  have hresolved : (ops.find? fun op => !op.isResolved) = none := by
    rw [List.find?_eq_none]
    intro op hop
    simp [h.resolved op hop]
  unfold encode
  rw [hresolved]
  simp only [if_neg (Nat.not_lt_of_le h.enough)]
  split
  · next hextra => rw [List.take_of_length_le (List.getElem?_eq_none_iff.mp hextra)]
  · next extra hextra =>
    have hlong := (List.getElem?_eq_some_iff.mp hextra).1
    have hallowed := h.trailing.resolve_left (Nat.not_le_of_lt hlong)
    rw [Attempt.result_bind, take_of_allowed hallowed, Option.bind_some]

section Reach

variable {i : Instruction} {site : Site} {lead : List Operand} {op : Operand} {t : Nat}

/-- **A near jump is encoded exactly if its target is near.** -/
theorem succeeds_near (hi : i ∈ all) (hnear : i.name ∈ nearJumps)
    (hbank : site.settings.bank = none) (htargets : Targets site.settings site.point op.form t)
    {bytes : Code} (h : NearJump site.settings i.name (lead.map Operand.form) bytes) :
    (i.encodeReadings site (lead ++ [op])).succeeds = true ↔
      Near site.point (bytes.length + 1) t := by
  have hjump := (mem_jumps hi (List.mem_append_left _ (List.mem_append_left _ hnear))).1
  have hslots : i.family.nearSlots ≠ [] := by
    have hall : ∀ i ∈ all, i.name ∈ nearJumps → i.family.nearSlots ≠ [] := by decide +kernel
    exact hall i hi hnear
  -- whatever reading is taken, the jump is as long as the one that is given
  have hlength : ∀ {reading bytes'}, reading ∈ readings site.settings lead →
      (i.family.leadCode reading).result = some bytes' → bytes'.length + 1 = bytes.length + 1 := by
    intro reading bytes' hreading hbytes'
    have hother := nearJump_of_lead (mapped_of_mem hi) hreading hbytes'
    rw [h.length_eq hbank hnear hjump, hother.length_eq hbank hnear hjump]
  rw [succeeds_encodeReadings, readings_concat htargets]
  constructor
  · rintro ⟨_, hmem, hsucceeds⟩
    obtain ⟨reading, hreading, rfl⟩ := List.mem_map.mp hmem
    obtain ⟨code, hcode⟩ := Option.isSome_iff_exists.mp hsucceeds
    rw [Family.encode_near hslots, Option.bind_eq_some_iff] at hcode
    obtain ⟨bytes', hbytes', hdistance⟩ := hcode
    rw [← hlength hreading hbytes']
    exact (succeeds_withDistance htargets bytes').mp (Attempt.succeeds_of_result hdistance)
  · intro hshort
    obtain ⟨reading, hreading, hsucceeds⟩ := h.exists_lead hbank hnear hjump
    obtain ⟨bytes', hbytes'⟩ := Option.isSome_iff_exists.mp hsucceeds
    rw [← hlength hreading hbytes'] at hshort
    refine ⟨_, List.mem_map_of_mem hreading, ?_⟩
    rw [Attempt.succeeds, Family.encode_near hslots, hbytes', Option.bind_some, ← Attempt.succeeds]
    exact (succeeds_withDistance htargets bytes').mpr hshort

/-- The target is the only operand of other jumps, in one reading. -/
theorem succeeds_single (htargets : Targets site.settings site.point op.form t) :
    (i.encodeReadings site [op]).succeeds = (i.family.encode site [op]).succeeds := by
  rw [Bool.eq_iff_iff, succeeds_encodeReadings, ← List.nil_append [op], readings_concat htargets []]
  simp [readings]

theorem succeeds_page (hi : i ∈ all) (hpage : i.name ∈ pageJumps)
    (htargets : Targets site.settings site.point op.form t) :
    (i.encodeReadings site [op]).succeeds = true ↔ SamePage site.point t := by
  have hall : ∀ i ∈ all, i.name ∈ pageJumps →
      i.family = .pageJump 0x01 ∨ i.family = .pageJump 0x11 := by decide +kernel
  rw [succeeds_single htargets]
  rcases hall i hi hpage with hfamily | hfamily <;> rw [hfamily]
  · exact succeeds_encodePageJump htargets 0x01
  · exact succeeds_encodePageJump htargets 0x11

theorem succeeds_far (hi : i ∈ all) (hfar : i.name ∈ farJumps)
    (htargets : Targets site.settings site.point op.form t) :
    (i.encodeReadings site [op]).succeeds = true := by
  have hall : ∀ i ∈ all, i.name ∈ farJumps →
      i.family = .longJump 0x02 ∨ i.family = .longJump 0x12 ∨ i.family = .anyJump ∨
        i.family = .anyCall := by decide +kernel
  rw [succeeds_single htargets]
  rcases hall i hi hfar with hfamily | hfamily | hfamily | hfamily <;> rw [hfamily]
  · exact succeeds_encodeLongJump htargets 0x02
  · exact succeeds_encodeLongJump htargets 0x12
  · exact succeeds_encodeAnyJump htargets
  · exact succeeds_encodeAnyCall htargets

variable {trailing : List Operand}

theorem lead_eq_nil (hi : i ∈ all) (hsingle : i.name ∈ pageJumps ++ farJumps)
    (hmost : lead.length + 1 = i.most) : lead = [] := by
  have hall : ∀ i ∈ all, i.name ∈ pageJumps ++ farJumps → i.most = 1 := by decide +kernel
  have hone := hall i hi hsingle
  exact List.eq_nil_of_length_eq_zero (by omega)

theorem accepts_jump (hi : i ∈ all) (hjump : i.name ∈ jumps) (hmost : lead.length + 1 = i.most)
    (htargets : Targets site.settings site.point op.form t)
    (hothers : ∀ other ∈ lead ++ trailing, other.isResolved = true)
    (htrailing : trailing = [] ∨ site.settings.policy .trailingOperand ≠ .error) :
    i.Accepts site.settings (lead ++ op :: trailing) := by
  have hop : op.isResolved = true := by
    unfold Operand.isResolved Operand.symbolName
    generalize op.form = form at htargets
    cases htargets <;> simp
  constructor
  case resolved =>
    intro other hother
    rcases List.mem_append.mp hother with hlead | hrest
    · exact hothers other (List.mem_append_left _ hlead)
    · rcases List.mem_cons.mp hrest with rfl | htail
      · exact hop
      · exact hothers other (List.mem_append_right _ htail)
  case enough =>
    rw [(mem_jumps hi hjump).2, List.length_append, List.length_cons]
    omega
  case trailing =>
    refine htrailing.imp (fun hnil => Nat.le_of_eq ?_) id
    rw [hnil, List.length_append, List.length_singleton, hmost]

end Reach

/-- **Jumps lead to their targets, and are encoded where they reach them.** If a jump or call is
encoded, the machine instruction leads to the address that its operand stands for. With other
operands that are valid, and without a register bank, a near jump is encoded exactly if the target
is near the next instruction, a jump in a page exactly if the target is in the page of the next
instruction, and any other jump always. -/
theorem encode_jump {i : Instruction} (hi : i ∈ all) (hjump : i.name ∈ jumps) (site : Site)
    (lead : List Operand) (op : Operand) (trailing : List Operand)
    (hmost : lead.length + 1 = i.most) (t : Nat)
    (htargets : Targets site.settings site.point op.form t) :
    (∀ code, (i.encode site (lead ++ op :: trailing)).result = some code →
      ∃ m, decode code = some m ∧ StandsFor i.name m.name ∧
        m.destination? (site.point.toNat + code.length) = some t) ∧
    (site.settings.bank = none → (∀ other ∈ lead ++ trailing, other.isResolved = true) →
      (trailing = [] ∨ site.settings.policy .trailingOperand ≠ .error) →
      (i.name ∈ nearJumps → ∀ bytes, NearJump site.settings i.name (lead.map Operand.form) bytes →
        ((i.encode site (lead ++ op :: trailing)).succeeds = true ↔
          Near site.point (bytes.length + 1) t)) ∧
      (i.name ∈ pageJumps →
        ((i.encode site (lead ++ op :: trailing)).succeeds = true ↔ SamePage site.point t)) ∧
      (i.name ∈ farJumps → (i.encode site (lead ++ op :: trailing)).succeeds = true)) := by
  refine ⟨fun code h => leads_of_encode hi hjump hmost htargets h, ?_⟩
  intro hbank hothers htrailing
  have hresult := (accepts_jump hi hjump hmost htargets hothers htrailing).result_encode
  rw [take_jump hmost] at hresult
  rw [Attempt.succeeds, hresult, ← Attempt.succeeds]
  refine ⟨fun hnear bytes h => succeeds_near hi hnear hbank htargets h, fun hpage => ?_,
    fun hfar => ?_⟩
  · rw [lead_eq_nil hi (List.mem_append_left _ hpage) hmost, List.nil_append]
    exact succeeds_page hi hpage htargets
  · rw [lead_eq_nil hi (List.mem_append_right _ hfar) hmost, List.nil_append]
    exact succeeds_far hi hfar htargets

/-- `djnz a, 0` as the last instruction before the end of all addresses: `A` is counted in its byte,
and the next instruction is at the target. -/
theorem encode_jump_counter :
    let i : Instruction := ⟨"djnz", 2, 2, .countJump⟩
    let site : Site := ⟨Settings.standard, 0xfffffffd, ⟨Text.ofString "djnz", {}, false⟩⟩
    let lead := [Operand.ofName (Text.ofString "a") {}]
    let op : Operand := ⟨Text.ofString "0", {}, .address .any 0⟩
    (i.encode site (lead ++ [op])).result = some [0xd5, 0xe0, 0x00] ∧
      (∃ m, decode [0xd5, 0xe0, 0x00] = some m ∧ StandsFor i.name m.name ∧
        m.destination? (site.point.toNat + 3) = some 0) ∧
      ((i.encode site (lead ++ [op])).succeeds = true ↔ Near site.point 3 0) := by
  intro i site lead op
  have htargets : Targets site.settings site.point op.form 0 := .address (Nat.zero_le _)
  have hlead : NearJump site.settings i.name (lead.map Operand.form) [0xd5, 0xe0] :=
    ⟨[.direct 0xe0], fun _ => rfl, fun _ _ => .cons .directA .nil⟩
  have hcode : (i.encode site (lead ++ [op])).result = some [0xd5, 0xe0, 0x00] := by
    decide +kernel
  obtain ⟨hleads, hreach⟩ :=
    encode_jump (i := i) (by decide) (by decide) site lead op [] rfl 0 htargets
  exact ⟨hcode, hleads _ hcode,
    (hreach rfl (by decide) (.inl rfl)).1 (by decide) [0xd5, 0xe0] hlead⟩

end Instruction

end Mcs51
