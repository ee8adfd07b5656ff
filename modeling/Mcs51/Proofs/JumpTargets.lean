import Mcs51.Proofs.EncodingSound

/-!
# Where jumps lead

The operand of a jump or call that says where it goes is the last one. It stands for a code address,
as a number, as a symbol or as an offset from the instruction, and the machine instruction that it
is encoded as leads to this address.

* `Targets` — the code address that an operand stands for
* `Machine.Decoded.destination?` — the code address that a machine instruction leads to
* `Instruction.leads_of_encode` — an encoded jump leads to the address of its operand
-/

namespace Mcs51

open Machine (Value Slot Decoded shape? decode readSlots Denotes)

/-! ## Jumps and their targets -/

/-- The jumps and calls whose target is near by. -/
def nearJumps : List String :=
  ["sjmp", "jc", "jnc", "jz", "jnz", "jb", "jnb", "jbc", "cjne", "djnz"]

/-- The jumps and calls whose target is in the page of the next instruction. -/
def pageJumps : List String := ["ajmp", "acall"]

/-- The jumps and calls that reach all code memory. -/
def farJumps : List String := ["ljmp", "lcall", "jmp", "call"]

/-- All jumps and calls. -/
def jumps : List String := nearJumps ++ pageJumps ++ farJumps

/-- The operand stands for a code address: a plain number, a symbol with a value, or an offset from
the instruction at `point` which the settings allow. -/
inductive Targets (settings : Settings) (point : UInt32) : Form → Nat → Prop
  | address {t : Nat} (ht : t ≤ 0xffff) : Targets settings point (.address .any t) t
  | symbol {t : Nat} (ht : t ≤ 0xffff) : Targets settings point (.symbol (some t)) t
  | offset {v : Int} {t : Nat} (hallowed : settings.policy .addressOffset ≠ .error)
    (hv : point.toNat + v = t) (ht : t ≤ 0xffff) : Targets settings point (.offset v) t

/-- The code address that an instruction leads to, if it jumps, where `next` is the address of the
next instruction. -/
def Machine.Decoded.destination? (next : Nat) (m : Decoded) : Option Nat :=
  m.operands.getLast?.bind (Value.target? next)

variable {settings : Settings} {point : UInt32} {op : Operand} {t : Nat}

theorem Targets.le {form : Form} (h : Targets settings point form t) : t ≤ 0xffff := by
  cases h <;> assumption

theorem take_of_allowed {situation : Situation} (h : settings.policy situation ≠ .error)
    (complaint : Complaint) (text : Text) (pos : Position) :
    (settings.take situation complaint text pos).result = some () := by
  unfold Settings.take
  simp only [if_neg h]
  split <;> rfl

/-- An operand that stands for a code address has it as its target. -/
theorem Targets.result (h : Targets settings point op.form t) :
    (op.target settings point).result = some t.toUInt32 := by
  have hle := h.le
  have hmost : (t : Int) ≤ 0xffff := by omega
  have hwithin := Operand.within_of_le op .codeAddressTooBig (Int.natCast_nonneg t) hmost
  generalize hform : op.form = form at h
  cases h with
  | address _ | symbol _ =>
    simp only [Operand.target, Operand.address?, hform, Attempt.result_bind, Attempt.result_pure,
      hwithin, Attempt.result_done, Option.bind_some, Int.toNat_natCast]
  | offset hallowed hv _ =>
    simp only [Operand.target, hform, Attempt.result_bind, Attempt.result_pure,
      take_of_allowed hallowed, hv, hwithin, Attempt.result_done, Option.bind_some,
      Int.toNat_natCast]

theorem Targets.toNat {form : Form} (h : Targets settings point form t) :
    t.toUInt32.toNat = t := by
  have hle := h.le
  rw [Nat.toUInt32_eq, UInt32.toNat_ofNat_of_lt' (Nat.lt_of_le_of_lt hle (by decide))]

/-! ## Operands of machine instructions -/

namespace Machine

/-- The operand is one that the slot of an instruction with this opcode can hold. -/
def Slot.Holds (opcode : UInt8) (slot : Slot) (value : Value) : Prop :=
  ∃ bytes rest, slot.read opcode bytes = some (value, rest)

theorem holds_of_readSlots {opcode : UInt8} : ∀ {slots : List Slot} {bytes : List UInt8}
    {values : List Value}, readSlots opcode slots bytes = some values →
      List.Forall₂ (Slot.Holds opcode) slots values
  | [], [], _, h => by
    cases h
    exact .nil
  | slot :: slots, bytes, values, h => by
    simp only [readSlots, Option.bind_eq_bind, Option.bind_eq_some_iff] at h
    obtain ⟨⟨value, rest⟩, hread, values', hrest, hvalues⟩ := h
    cases hvalues
    exact .cons ⟨bytes, rest, hread⟩ (holds_of_readSlots hrest)

/-- The slots of an instruction hold its operands. -/
theorem holds_of_decode {code : List UInt8} {m : Decoded} (h : decode code = some m) :
    ∃ opcode shape, shape? opcode = some shape ∧ shape.name = m.name ∧
      code.length = shape.length ∧
      List.Forall₂ (Slot.Holds opcode) shape.slots
        (if shape.swapped then m.operands.reverse else m.operands) := by
  obtain ⟨opcode, shape, hhead, hshape, hname, hlength⟩ := length_of_decode h
  refine ⟨opcode, shape, hshape, hname, hlength, ?_⟩
  cases code with
  | nil => cases h
  | cons opcode' bytes =>
    cases hhead
    simp only [decode, hshape, Option.bind_eq_bind, Option.bind_eq_some_iff, Option.bind_some]
      at h
    obtain ⟨values, hread, hm⟩ := h
    cases hm
    have hholds := holds_of_readSlots hread
    by_cases hswapped : shape.swapped = true
    · simpa [hswapped] using hholds
    · simpa [hswapped] using hholds

/-- The slot holds a code address, or the sum of `A` and `DPTR`. -/
def Slot.isCode : Slot → Bool
  | .relative | .page | .long | .atADptr => true
  | _ => false

/-- The last slot of a jump holds a code address. -/
theorem isCode_of_shape? {opcode : UInt8} {shape : Shape} (hshape : shape? opcode = some shape)
    (hjump : shape.name ∈ jumps) :
    shape.swapped = false ∧ shape.slots.getLast?.all Slot.isCode = true := by
  have hall : ∀ k < 256, ∀ shape ∈ shape? (UInt8.ofNat k), shape.name ∈ jumps →
      shape.swapped = false ∧ shape.slots.getLast?.all Slot.isCode = true := by
    decide +kernel
  exact of_shape? hall hshape hjump

/-- The operand is a code address, or the sum of `A` and `DPTR`. -/
def Value.isCode : Value → Bool
  | .relative _ | .page _ | .long _ | .atADptr => true
  | _ => false

theorem Slot.Holds.isCode_eq {opcode : UInt8} {slot : Slot} {value : Value}
    (h : slot.Holds opcode value) : value.isCode = slot.isCode := by
  obtain ⟨bytes, rest, hread⟩ := h
  unfold Slot.read at hread
  split at hread <;> cases hread <;> rfl

end Machine

/-! ## Leading to the target -/

theorem forall₂_concat {α β : Type} {R : α → β → Prop} {as : List α} {bs : List β} {b : β}
    (h : List.Forall₂ R as (bs ++ [b])) :
    ∃ before a, as = before ++ [a] ∧ List.Forall₂ R before bs ∧ R a b := by
  have hbefore := List.forall₂_take_append as bs [b] h
  have hlast := List.forall₂_drop_append as bs [b] h
  generalize hdrop : as.drop bs.length = rest at hlast
  cases hlast with
  | cons ha hnil =>
    cases hnil
    exact ⟨_, _, by rw [← hdrop, List.take_append_drop], hbefore, ha⟩

/-- The last operand of a jump is a code address. -/
theorem Machine.isCode_of_decode {code : List UInt8} {m : Decoded} (h : decode code = some m)
    (hjump : m.name ∈ jumps) {before : List Value} {last : Value}
    (hlast : m.operands = before ++ [last]) : last.isCode = true := by
  obtain ⟨opcode, shape, hshape, hname, _, hholds⟩ := holds_of_decode h
  obtain ⟨hswapped, hslot⟩ := isCode_of_shape? hshape (hname ▸ hjump)
  rw [hswapped, if_neg Bool.false_ne_true, hlast] at hholds
  obtain ⟨slots, slot, hslots, _, hlast⟩ := forall₂_concat hholds
  rw [hslots, List.getLast?_concat] at hslot
  rw [hlast.isCode_eq]
  exact hslot

/-- What a code address can denote. -/
theorem form_of_denotes {next : Nat} {value : Value} {form : Form} (hcode : value.isCode = true)
    (h : Denotes settings point next value form) :
    form = .indirect .aDptr ∨ ∃ t : Nat, value.target? next = some t ∧
      (form = .address .any t ∨ form = .symbol (some t) ∨
        ∃ v, form = .offset v ∧ point.toNat + v = t) := by
  cases h with
  | atADptr => exact .inl rfl
  | code ht => exact .inr ⟨_, ht, .inl rfl⟩
  | codeSymbol ht => exact .inr ⟨_, ht, .inr (.inl rfl)⟩
  | codeOffset ht hoffset => exact .inr ⟨_, ht, .inr (.inr ⟨_, rfl, hoffset⟩)⟩
  | _ => cases hcode

/-- A code address that denotes an operand which stands for `t` leads to `t`. -/
theorem target?_of_denotes {next : Nat} {value : Value} {form : Form} (hcode : value.isCode = true)
    (h : Denotes settings point next value form) (htargets : Targets settings point form t) :
    value.target? next = some t := by
  rcases form_of_denotes hcode h with rfl | ⟨t', ht', hform⟩
  · cases htargets
  · have heq : t' = t := by
      cases htargets with
      | address _ =>
        rcases hform with hform | hform | ⟨v, hform, _⟩ <;> cases hform
        rfl
      | symbol _ =>
        rcases hform with hform | hform | ⟨v, hform, _⟩ <;> cases hform
        rfl
      | offset _ hv _ =>
        rcases hform with hform | hform | ⟨v, hform, hv'⟩ <;> cases hform
        omega
    rw [ht', heq]

/-! ## Jumps of the instruction set -/

/-- The jumps of a family. -/
def Family.jumps : Family → List String
  | .shortJump _ => ["sjmp", "jc", "jnc", "jz", "jnz"]
  | .bitJump _ => ["jb", "jnb", "jbc"]
  | .compareJump => ["cjne"]
  | .countJump => ["djnz"]
  | .pageJump _ => pageJumps
  | .longJump _ => ["ljmp", "lcall"]
  | .anyJump => ["jmp"]
  | .anyCall => ["call"]
  | _ => []

theorem Instruction.mem_jumps {i : Instruction} (hi : i ∈ all) (hjump : i.name ∈ jumps) :
    i.name ∈ i.family.jumps ∧ i.fewest = i.most := by
  have hall : ∀ i ∈ all, i.name ∈ Mcs51.jumps → i.name ∈ i.family.jumps ∧ i.fewest = i.most := by
    decide +kernel
  exact hall i hi hjump

/-- No operand of a jump is implied. -/
theorem Family.restored_of_jump {f : Family} {name : String} (h : name ∈ f.jumps)
    (forms : List Form) : f.restored forms = forms := by
  cases f with
  | arithmetic _ | logical _ _ | accumulator _ | multiplicative _ => cases h
  | _ => rfl

theorem StandsFor.mem_jumps {written machine : String} (h : StandsFor written machine)
    (hjump : written ∈ jumps) : machine ∈ jumps := by
  have hjmp : ∀ name ∈ ["sjmp", "ajmp", "ljmp"], name ∈ jumps := by decide
  have hcall : ∀ name ∈ ["acall", "lcall"], name ∈ jumps := by decide
  rcases h with rfl | ⟨_, hmachine⟩ | ⟨_, hmachine⟩
  · exact hjump
  · exact hjmp machine hmachine
  · exact hcall machine hmachine

/-- The operand that says where a jump goes is the last that it uses. -/
theorem Instruction.take_jump {i : Instruction} {lead trailing : List Operand}
    (hmost : lead.length + 1 = i.most) : (lead ++ op :: trailing).take i.most = lead ++ [op] := by
  rw [← hmost, List.take_length_add_append, List.take_succ_cons, List.take_zero]

/-- **An encoded jump leads to the address that its operand stands for.** -/
theorem Instruction.leads_of_encode {i : Instruction} (hi : i ∈ all) (hjump : i.name ∈ jumps)
    {site : Site} {lead trailing : List Operand} (hmost : lead.length + 1 = i.most)
    (htargets : Targets site.settings site.point op.form t) {code : Code}
    (h : (i.encode site (lead ++ op :: trailing)).result = some code) :
    ∃ m, decode code = some m ∧ StandsFor i.name m.name ∧
      m.destination? (site.point.toNat + code.length) = some t := by
  obtain ⟨machine, hname, values, hdecode, hden⟩ := encodes hi h
  rw [Family.restored_of_jump (mem_jumps hi hjump).1, take_jump hmost, List.map_append] at hden
  obtain ⟨before, last, rfl, _, hlast⟩ := forall₂_concat hden
  refine ⟨_, hdecode, hname, ?_⟩
  have hcode := Machine.isCode_of_decode hdecode (hname.mem_jumps hjump) rfl
  rw [Decoded.destination?, List.getLast?_concat, Option.bind_some]
  exact target?_of_denotes hcode hlast htargets

end Mcs51
