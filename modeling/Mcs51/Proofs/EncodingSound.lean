import Mcs51.Instruction
import Mcs51.Proofs.FamilyEncoding

/-!
# Soundness of the encoding

The bytes of an encoded instruction decode, by the opcode map, to the instruction that was written:
the name is the same, up to the choice of a jump or call, and each operand of the machine
instruction denotes the operand in its place. Which reading of the operands was taken, and what was
omitted or left out, no longer shows.

* `Instruction.mapped_of_mem` — every instruction has the opcodes of the map
* `Instruction.covers_second` — the second reading of an operand is a reading of it
* `Instruction.encode_sound` — the bytes of an instruction are the machine instruction written
-/

namespace Mcs51

open Machine (Value shape? decode Denotes)

/-! ## Second readings -/

/-- What is a reading of the form `f` is one of `g`. -/
def Covers (settings : Settings) (f g : Form) : Prop :=
  ∀ {point : UInt32} {next : Nat} {value : Value},
    Denotes settings point next value f → Denotes settings point next value g

theorem Covers.refl (settings : Settings) (f : Form) : Covers settings f f := fun h => h

theorem denotes_byte {settings : Settings} {point : UInt32} {next : Nat} {value : Value} {v : Int}
    (h : Denotes settings point next value (.address .byte v)) :
    ∃ d : UInt8, value = .direct d ∧ v = d.toNat := by
  generalize hform : Form.address .byte v = form at h
  cases h <;> cases hform
  case direct d _ => exact ⟨d, rfl, rfl⟩
  case bit hspace => exact absurd rfl hspace

theorem denotes_namedBit {settings : Settings} {point : UInt32} {next : Nat} {value : Value}
    {v : Int} (h : Denotes settings point next value (.address .bit v)) :
    ∃ d : UInt8, value = .bit d ∧ v = d.toNat := by
  generalize hform : Form.address .bit v = form at h
  cases h <;> cases hform
  case bit d _ => exact ⟨d, rfl, rfl⟩
  case direct hspace => exact absurd rfl hspace

/-- The second reading of an operand is a reading of it. -/
theorem Instruction.covers_second {settings : Settings} {op other : Operand}
    (h : second settings op = .direct other) : Covers settings other.form op.form := by
  intro point next value hden
  unfold second at h
  split at h
  · next hform =>
    cases h
    obtain ⟨d, rfl, hd⟩ := denotes_byte hden
    have hd : d = 0xe0 := UInt8.toNat_inj.mp (Int.ofNat.inj hd).symm
    rw [hform, hd]
    exact .directA
  · next hform =>
    cases h
    obtain ⟨d, rfl, hd⟩ := denotes_namedBit hden
    have hd : d = 0xd7 := UInt8.toNat_inj.mp (Int.ofNat.inj hd).symm
    rw [hform, hd]
    exact .bitC
  · next n hform =>
    split at h
    · next hn =>
      split at h
      · next address haddress =>
        cases h
        obtain ⟨d, rfl, hd⟩ := denotes_byte hden
        simp only [Operand.asAddress, hform] at haddress
        split at haddress <;> cases haddress
        next bank hbank =>
        rw [hform]
        exact .directRegister hn hbank hd
      · cases h
    · cases h
  · cases h

/-- The operands as they are written come first among their readings. -/
theorem Instruction.head_readings (settings : Settings) :
    ∀ ops : List Operand, ∃ rest, readings settings ops = ops :: rest
  | [] => ⟨[], rfl⟩
  | op :: ops => by
    obtain ⟨rest, hrest⟩ := head_readings settings ops
    unfold readings
    split
    · rw [hrest]
      exact ⟨_, rfl⟩
    · rw [hrest]
      exact ⟨_, rfl⟩

theorem Instruction.mem_readings (settings : Settings) (ops : List Operand) :
    ops ∈ readings settings ops := by
  obtain ⟨rest, hrest⟩ := head_readings settings ops
  rw [hrest]
  exact List.mem_cons_self

theorem Instruction.covers_of_mem_readings {settings : Settings} :
    ∀ {ops reading : List Operand}, reading ∈ readings settings ops →
      List.Forall₂ (Covers settings) (reading.map Operand.form) (ops.map Operand.form)
  | [], reading, h => by
    rw [List.mem_singleton.mp h]
    exact .nil
  | op :: ops, reading, h => by
    unfold readings at h
    split at h
    · next other hsecond =>
      obtain ⟨rest, hrest, hmem⟩ := List.mem_flatMap.mp h
      have ih := covers_of_mem_readings hrest
      rcases List.mem_cons.mp hmem with rfl | hmem
      · exact .cons (Covers.refl _ _) ih
      · rw [List.mem_singleton.mp hmem]
        exact .cons (covers_second hsecond) ih
    · obtain ⟨rest, hrest, rfl⟩ := List.mem_map.mp h
      exact .cons (Covers.refl _ _) (covers_of_mem_readings hrest)

/-- An omitted operand is restored in the same way for every reading. -/
theorem Family.covers_restored {settings : Settings} {fs gs : List Form} (f : Family)
    (h : List.Forall₂ (Covers settings) fs gs) :
    List.Forall₂ (Covers settings) (f.restored fs) (f.restored gs) := by
  cases h with
  | nil =>
    rw [List.forall₂_same]
    exact fun _ _ => Covers.refl _ _
  | cons h₁ hrest =>
    cases hrest with
    | nil =>
      cases f with
      | arithmetic base => exact .cons (Covers.refl _ _) (.cons h₁ .nil)
      | logical base carry => exact .cons (Covers.refl _ _) (.cons h₁ .nil)
      | _ => exact .cons h₁ .nil
    | cons h₂ hrest => cases f <;> exact .cons h₁ (.cons h₂ hrest)

theorem denotes_of_covers {settings : Settings} {point : UInt32} {next : Nat}
    {values : List Value} {fs gs : List Form}
    (hden : List.Forall₂ (Denotes settings point next) values fs)
    (hcovers : List.Forall₂ (Covers settings) fs gs) :
    List.Forall₂ (Denotes settings point next) values gs := by
  induction hden generalizing gs with
  | nil =>
    cases hcovers
    exact .nil
  | cons h _ ih =>
    cases hcovers with
    | cons hc hrest => exact .cons (hc h) (ih hrest)

/-! ## Instructions -/

/-- **Every instruction has the opcodes of the map.** -/
theorem Instruction.mapped_of_mem {i : Instruction} (hi : i ∈ all) :
    i.family.Mapped i.name i.most := by
  have hall : ∀ i ∈ all, i.family.Mapped i.name i.most := by decide +kernel
  exact hall i hi

/-- The reading that is encoded is one of the readings of the operands. -/
theorem Instruction.encodeReadings_result {i : Instruction} {site : Site} {ops : List Operand}
    {code : Code} (h : (i.encodeReadings site ops).result = some code) :
    ∃ reading ∈ readings site.settings ops,
      (i.family.encode site reading).result = some code := by
  unfold encodeReadings at h
  split at h
  · next reading hfind => exact ⟨reading, List.mem_of_find?_eq_some hfind, h⟩
  · cases h

/-- Operands after the last that the instruction uses are left out. -/
theorem Instruction.encode_result {i : Instruction} {site : Site} {ops : List Operand}
    {code : Code} (h : (i.encode site ops).result = some code) :
    (i.encodeReadings site (ops.take i.most)).result = some code := by
  unfold encode at h
  split at h
  · cases h
  · split at h
    · cases h
    · split at h
      · next hextra =>
        rwa [List.take_of_length_le (List.getElem?_eq_none_iff.mp hextra)]
      · obtain ⟨_, _, h⟩ := Attempt.result_bind_eq_some.mp h
        exact h

theorem Instruction.length_of_mem_readings {settings : Settings} {ops reading : List Operand}
    (h : reading ∈ readings settings ops) : reading.length = ops.length := by
  simpa using (covers_of_mem_readings h).length_eq

/-- The bytes are one machine instruction, which is the given one with its operands: the opcode is
defined, there are as many bytes as it says, the name is the instruction's, or that of a jump or
call it stands for, and the operands denote those that are written, without trailing ones and with
an implied one restored. -/
def Instruction.DecodesTo (i : Instruction) (site : Site) (ops : List Operand) (code : Code) :
    Prop :=
  ∃ opcode shape machine, code.head? = some opcode ∧ opcode ≠ 0xa5 ∧
    shape? opcode = some shape ∧ code.length = shape.length ∧
    decode code = some machine ∧ StandsFor i.name machine.name ∧
    List.Forall₂ (Denotes site.settings site.point (site.point.toNat + code.length))
      machine.operands (i.family.restored ((ops.take i.most).map Operand.form))

theorem Encodes.decodesTo {i : Instruction} {site : Site} {ops : List Operand} {code : Code}
    {machine : String} (hname : StandsFor i.name machine)
    (henc : Encodes site machine (i.family.restored ((ops.take i.most).map Operand.form)) code) :
    i.DecodesTo site ops code := by
  obtain ⟨values, hdecode, hden⟩ := henc
  obtain ⟨opcode, shape, hhead, hshape, _, hlength⟩ := Machine.length_of_decode hdecode
  have hdefined : opcode ≠ 0xa5 := (Machine.shape?_isSome_iff opcode).mp (by rw [hshape]; rfl)
  exact ⟨opcode, shape, _, hhead, hdefined, hshape, hlength, hdecode, hname, hden⟩

/-- What an instruction makes of its operands. -/
theorem Instruction.encodes {i : Instruction} (hi : i ∈ all) {site : Site} {ops : List Operand}
    {code : Code} (h : (i.encode site ops).result = some code) :
    ∃ machine, StandsFor i.name machine ∧
      Encodes site machine (i.family.restored ((ops.take i.most).map Operand.form)) code := by
  obtain ⟨reading, hmem, hcode⟩ := encodeReadings_result (encode_result h)
  have hlength : reading.length ≤ i.most := by
    rw [length_of_mem_readings hmem]
    exact List.length_take_le _ _
  obtain ⟨machine, hname, values, hdecode, hden⟩ :=
    Family.encodes (mapped_of_mem hi) hlength hcode
  -- What denotes the reading denotes what is written.
  have hcovers := i.family.covers_restored (covers_of_mem_readings hmem)
  exact ⟨machine, hname, values, hdecode, denotes_of_covers hden hcovers⟩

/-- **Encoding is sound.** Whatever the settings, the address and the operands, the bytes of an
instruction are the machine instruction that is written. -/
theorem Instruction.encode_sound {i : Instruction} (hi : i ∈ all) (site : Site)
    (ops : List Operand) (code : Code) (h : (i.encode site ops).result = some code) :
    i.DecodesTo site ops code := by
  obtain ⟨machine, hname, henc⟩ := encodes hi h
  exact henc.decodesTo hname

/-- `mov r1, r2` in bank 1 is a move to the byte `0x09`: only one of the registers can be in the
opcode. -/
theorem Instruction.encode_sound_bankedRegister :
    let i : Instruction := ⟨"mov", 2, 2, .move⟩
    let site : Site :=
      ⟨{ Settings.standard with bank := some 1 }, 0, ⟨Text.ofString "mov", {}, false⟩⟩
    let ops := [Operand.ofName (Text.ofString "r1") {}, Operand.ofName (Text.ofString "r2") {}]
    i ∈ all ∧ (i.encode site ops).result = some [0x8a, 0x09] ∧
      i.DecodesTo site ops [0x8a, 0x09] := by
  refine ⟨by decide, by decide +kernel, ?_⟩
  exact encode_sound (by decide) _ _ _ (by decide +kernel)

end Mcs51
