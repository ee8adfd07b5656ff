import Mathlib.Data.List.Forall2
import Mcs51.Proofs.OperandDenotation

/-!
# The families and the opcode map

Each family of instructions makes of its operands the bytes that the opcode map asks for: they
decode to the named instruction, and its operands denote those that were given. A family is taken
with any opcodes that the map agrees with, so the argument is made once for all of its members.

* `Encodes` — the bytes are the named instruction with operands that denote the given forms
* `MapsSource`, `MapsLogical`, `MapsPages` and the like — the opcodes that a family needs
* `Family.encodes` — what every family makes of a reading of the operands
-/

namespace Mcs51

open Machine (Value Slot shape? decode readSlots Denotes)

/-! ## Bytes that decode to given operands -/

/-- The bytes are the named instruction at the site, with operands that denote the given forms. -/
def Encodes (site : Site) (name : String) (forms : List Form) (code : Code) : Prop :=
  ∃ values, decode code = some ⟨name, values⟩ ∧
    List.Forall₂ (Denotes site.settings site.point (site.point.toNat + code.length)) values forms

/-- The opcode stands for the named instruction with the given operands, in the order of their
bytes. -/
def Maps (opcode : UInt8) (name : String) (slots : List Slot) : Prop :=
  shape? opcode = some ⟨name, slots, false⟩

instance (opcode : UInt8) (name : String) (slots : List Slot) :
    Decidable (Maps opcode name slots) :=
  inferInstanceAs (Decidable (_ = _))

/-- The opcode, if there is one, stands for the named instruction. -/
def MapsOptional (opcode? : Option UInt8) (name : String) (slots : List Slot) : Prop :=
  ∀ opcode ∈ opcode?, Maps opcode name slots

instance (opcode? : Option UInt8) (name : String) (slots : List Slot) :
    Decidable (MapsOptional opcode? name slots) :=
  Option.decidableForallMem opcode?

/-- The opcode with a number below `count` in its low bits stands for the named instruction. -/
def MapsNumbered (count : Nat) (opcode : UInt8) (name : String) (slots : List Slot) : Prop :=
  ∀ n < count, Maps (Family.withLow opcode n.toUInt8) name slots ∧
    (Family.withLow opcode n.toUInt8).toNat % count = n

instance (count : Nat) (opcode : UInt8) (name : String) (slots : List Slot) :
    Decidable (MapsNumbered count opcode name slots) :=
  inferInstanceAs (Decidable (∀ n < count, _))

/-- Operands that the opcode alone gives, in front of others. -/
def Inherent (opcode : UInt8) (slots : List Slot) (forms : List Form) : Prop :=
  ∃ values,
    (∀ rest bytes, readSlots opcode (slots ++ rest) bytes =
      (readSlots opcode rest bytes).map (values ++ ·)) ∧
    ∀ settings point next, List.Forall₂ (Denotes settings point next) values forms

theorem Inherent.nil (opcode : UInt8) : Inherent opcode [] [] :=
  ⟨[], fun _ _ => by simp, fun _ _ _ => .nil⟩

theorem Inherent.single {opcode : UInt8} {slot : Slot} {value : Value} {form : Form}
    (hread : ∀ bytes, slot.read opcode bytes = some (value, bytes))
    (hden : ∀ settings point next, Denotes settings point next value form) :
    Inherent opcode [slot] [form] := by
  refine ⟨[value], fun rest bytes => ?_, fun _ _ _ => .cons (hden _ _ _) .nil⟩
  simp only [List.singleton_append, readSlots, hread, Option.bind_eq_bind, Option.bind_some,
    Option.pure_def]
  cases readSlots opcode rest bytes <;> rfl

theorem Inherent.a (opcode : UInt8) : Inherent opcode [.a] [.reserved .a] :=
  .single (fun _ => rfl) fun _ _ _ => .a

section Encoding

variable {site : Site} {name : String} {opcode : UInt8} {slots lead : List Slot}
  {values : List Value} {forms leadForms : List Form} {bytes code : Code}
  {op dst src : Operand}

theorem Maps.encodes (hmap : Maps opcode name slots)
    (hread : readSlots opcode slots bytes = some values)
    (hden : List.Forall₂
      (Denotes site.settings site.point (site.point.toNat + (opcode :: bytes).length))
      values forms) :
    Encodes site name forms (opcode :: bytes) :=
  ⟨values, Machine.decode_cons hmap hread, hden⟩

theorem Inherent.encodes (hlead : Inherent opcode lead leadForms)
    (hmap : Maps opcode name (lead ++ slots))
    (hread : readSlots opcode slots bytes = some values)
    (hden : List.Forall₂
      (Denotes site.settings site.point (site.point.toNat + (opcode :: bytes).length))
      values forms) :
    Encodes site name (leadForms ++ forms) (opcode :: bytes) := by
  obtain ⟨leadValues, hleadRead, hleadDen⟩ := hlead
  have hall : readSlots opcode (lead ++ slots) bytes = some (leadValues ++ values) := by
    rw [hleadRead, hread, Option.map_some]
  exact hmap.encodes hall (List.rel_append (hleadDen _ _ _) hden)

theorem MapsNumbered.register {b : UInt8} (hmaps : MapsNumbered 8 opcode name slots)
    (h : op.register.result = some b) :
    Maps (Family.withLow opcode b) name slots ∧ ∀ settings point next,
      Denotes settings point next (.register ((Family.withLow opcode b).toNat % 8)) op.form := by
  obtain ⟨n, hn, hform, rfl⟩ := Operand.register_result h
  obtain ⟨hmap, hnumber⟩ := hmaps n hn
  rw [hform, hnumber]
  exact ⟨hmap, fun _ _ _ => .register n⟩

theorem MapsNumbered.pointer {b : UInt8} (hmaps : MapsNumbered 2 opcode name slots)
    (h : op.pointer.result = some b) :
    Maps (Family.withLow opcode b) name slots ∧ ∀ settings point next,
      Denotes settings point next (.pointer ((Family.withLow opcode b).toNat % 2)) op.form := by
  obtain ⟨n, hn, hform, rfl⟩ := Operand.pointer_result h
  obtain ⟨hmap, hnumber⟩ := hmaps n hn
  rw [hform, hnumber]
  exact ⟨hmap, fun _ _ _ => .pointer n⟩

theorem denotes_reserved_a (h : op.isReservedAs .a = true) (settings : Settings) (point : UInt32)
    (next : Nat) : Denotes settings point next .a op.form :=
  Operand.form_of_isReservedAs h ▸ .a

theorem denotes_reserved_c (h : op.isReservedAs .c = true) (settings : Settings) (point : UInt32)
    (next : Nat) : Denotes settings point next .c op.form :=
  Operand.form_of_isReservedAs h ▸ .c

/-! ## Sources -/

/-- The opcodes of a byte in memory or a register. -/
def MapsLocation (name : String) (lead : List Slot) (directOp pointerOp registerOp : UInt8) :
    Prop :=
  Maps directOp name (lead ++ [.direct]) ∧ MapsNumbered 2 pointerOp name (lead ++ [.pointer]) ∧
    MapsNumbered 8 registerOp name (lead ++ [.register])

instance (name : String) (lead : List Slot) (directOp pointerOp registerOp : UInt8) :
    Decidable (MapsLocation name lead directOp pointerOp registerOp) :=
  inferInstanceAs (Decidable (_ ∧ _ ∧ _))

theorem MapsLocation.encodes {directOp pointerOp registerOp : UInt8}
    (hmaps : MapsLocation name lead directOp pointerOp registerOp)
    (hlead : ∀ opcode, Inherent opcode lead leadForms)
    (h : (Family.location directOp pointerOp registerOp src).result = some code) :
    Encodes site name (leadForms ++ [src.form]) code := by
  obtain ⟨hdirect, hpointer, hregister⟩ := hmaps
  simp only [Family.location, Attempt.result_orElse_eq_some, Attempt.result_return_eq_some] at h
  obtain ⟨d, hd, rfl⟩ | ⟨-, ⟨b, hb, rfl⟩ | ⟨-, b, hb, rfl⟩⟩ := h
  · exact (hlead _).encodes hdirect rfl (.cons (Operand.denotes_direct hd) .nil)
  · obtain ⟨hmap, hden⟩ := hpointer.pointer hb
    exact (hlead _).encodes hmap rfl (.cons (hden _ _ _) .nil)
  · obtain ⟨hmap, hden⟩ := hregister.register hb
    exact (hlead _).encodes hmap rfl (.cons (hden _ _ _) .nil)

/-- The opcodes of a source of `A`. -/
def MapsSource (name : String) (immediateOp directOp pointerOp registerOp : UInt8) : Prop :=
  Maps immediateOp name [.a, .immediate] ∧
    MapsLocation name [.a] directOp pointerOp registerOp

instance (name : String) (immediateOp directOp pointerOp registerOp : UInt8) :
    Decidable (MapsSource name immediateOp directOp pointerOp registerOp) :=
  inferInstanceAs (Decidable (_ ∧ _))

theorem MapsSource.encodes {immediateOp directOp pointerOp registerOp : UInt8}
    (hmaps : MapsSource name immediateOp directOp pointerOp registerOp)
    (h : (Family.source immediateOp directOp pointerOp registerOp src).result = some code) :
    Encodes site name [.reserved .a, src.form] code := by
  simp only [Family.source, Attempt.result_orElse_eq_some, Attempt.result_return_eq_some] at h
  obtain ⟨d, hd, rfl⟩ | ⟨-, h⟩ := h
  · exact (Inherent.a _).encodes hmaps.1 rfl (.cons (Operand.denotes_immediate hd) .nil)
  · exact hmaps.2.encodes Inherent.a h

/-- The opcodes of a source of `A` in the order that most instructions share. -/
def MapsSourceOf (name : String) (base : UInt8) : Prop :=
  MapsSource name (base ||| 0x04) (base ||| 0x05) (base ||| 0x06) (base ||| 0x08)

instance (name : String) (base : UInt8) : Decidable (MapsSourceOf name base) :=
  inferInstanceAs (Decidable (MapsSource _ _ _ _ _))

theorem MapsSourceOf.encodes {base : UInt8} (hmaps : MapsSourceOf name base)
    (h : (Family.sourceOf base src).result = some code) :
    Encodes site name [.reserved .a, src.form] code :=
  MapsSource.encodes hmaps h

/-- The forms of the operands, with an implied first one where it is omitted. -/
def Family.restored : Family → List Form → List Form
  | .arithmetic _, [form] => [.reserved .a, form]
  | .logical _ _, [form] => [.reserved .a, form]
  | .accumulator _, [] => [.reserved .a]
  | .multiplicative _, [] => [.reserved .ab]
  | _, forms => forms

theorem MapsSourceOf.encodes_accumulatorSource {base : UInt8} {ops : List Operand}
    (hmaps : MapsSourceOf name base)
    (h : (Family.accumulatorSource site base ops).result = some code) :
    Encodes site name ((Family.arithmetic base).restored (ops.map Operand.form)) code := by
  unfold Family.accumulatorSource at h
  split at h
  · obtain ⟨_, _, h⟩ := Attempt.result_bind_eq_some.mp h
    exact hmaps.encodes h
  · split at h
    · next dst src ha =>
      rw [List.map_cons, Operand.form_of_isReservedAs ha]
      exact hmaps.encodes h
    · cases h
  · cases h

/-! ## Logic, bits, counting and implied operands -/

/-- The opcodes of a logical instruction. -/
def MapsLogical (name : String) (base : UInt8) (carry : Option (UInt8 × UInt8)) : Prop :=
  MapsSourceOf name base ∧ Maps (base ||| 0x02) name [.direct, .a] ∧
    Maps (base ||| 0x03) name [.direct, .immediate] ∧
    MapsOptional (carry.map Prod.fst) name [.c, .bit] ∧
    MapsOptional (carry.map Prod.snd) name [.c, .negatedBit]

instance (name : String) (base : UInt8) (carry : Option (UInt8 × UInt8)) :
    Decidable (MapsLogical name base carry) :=
  inferInstanceAs (Decidable (_ ∧ _ ∧ _ ∧ _ ∧ _))

theorem MapsLogical.encodes {base : UInt8} {carry : Option (UInt8 × UInt8)} {ops : List Operand}
    (hmaps : MapsLogical name base carry)
    (h : (Family.encodeLogical site base carry ops).result = some code) :
    Encodes site name ((Family.logical base carry).restored (ops.map Operand.form)) code := by
  obtain ⟨hsource, hfromA, himmediate, hbit, hnegated⟩ := hmaps
  unfold Family.encodeLogical at h
  split at h
  · exact hsource.encodes_accumulatorSource h
  · next dst src =>
    split at h
    · next ha =>
      rw [List.map_cons, Operand.form_of_isReservedAs ha]
      exact hsource.encodes h
    · split at h
      · next hc =>
        split at h
        · cases h
        · simp only [Attempt.result_orElse_eq_some, Attempt.result_return_eq_some] at h
          obtain ⟨d, hd, rfl⟩ | ⟨-, d, hd, rfl⟩ := h
          · exact (hnegated _ rfl).encodes rfl
              (.cons (denotes_reserved_c hc _ _ _) (.cons (Operand.denotes_negatedBit hd) .nil))
          · exact (hbit _ rfl).encodes rfl
              (.cons (denotes_reserved_c hc _ _ _) (.cons (Operand.denotes_bit hd) .nil))
      · obtain ⟨address, haddress, h⟩ := Attempt.result_bind_eq_some.mp h
        split at h
        · next ha =>
          cases h
          exact hfromA.encodes rfl
            (.cons (Operand.denotes_direct haddress) (.cons (denotes_reserved_a ha _ _ _) .nil))
        · obtain ⟨d, hd, rfl⟩ := Attempt.result_return_eq_some.mp h
          exact himmediate.encodes rfl (.cons (Operand.denotes_direct haddress)
            (.cons (Operand.denotes_immediate hd) .nil))
  · cases h

/-- The opcodes of an instruction on `A`, the carry or a bit. -/
def MapsBitwise (name : String) (accumulator : Option UInt8) (carry bitOp : UInt8) : Prop :=
  MapsOptional accumulator name [.a] ∧ Maps carry name [.c] ∧ Maps bitOp name [.bit]

instance (name : String) (accumulator : Option UInt8) (carry bitOp : UInt8) :
    Decidable (MapsBitwise name accumulator carry bitOp) :=
  inferInstanceAs (Decidable (_ ∧ _ ∧ _))

theorem MapsBitwise.encodes {accumulator : Option UInt8} {carry bitOp : UInt8}
    {ops : List Operand} (hmaps : MapsBitwise name accumulator carry bitOp)
    (h : (Family.encodeBitwise accumulator carry bitOp ops).result = some code) :
    Encodes site name (ops.map Operand.form) code := by
  obtain ⟨hacc, hcarry, hbit⟩ := hmaps
  unfold Family.encodeBitwise at h
  split at h
  · split at h
    · next ha =>
      split at h <;> cases h
      exact (hacc _ rfl).encodes rfl (.cons (denotes_reserved_a ha _ _ _) .nil)
    · split at h
      · next hc =>
        cases h
        exact hcarry.encodes rfl (.cons (denotes_reserved_c hc _ _ _) .nil)
      · obtain ⟨d, hd, rfl⟩ := Attempt.result_return_eq_some.mp h
        exact hbit.encodes rfl (.cons (Operand.denotes_bit hd) .nil)
  · cases h

/-- The opcodes of counting up or down. -/
def MapsCounting (name : String) (base : UInt8) (dptr : Option UInt8) : Prop :=
  Maps (base ||| 0x04) name [.a] ∧ MapsOptional dptr name [.dptr] ∧
    MapsLocation name [] (base ||| 0x05) (base ||| 0x06) (base ||| 0x08)

instance (name : String) (base : UInt8) (dptr : Option UInt8) :
    Decidable (MapsCounting name base dptr) :=
  inferInstanceAs (Decidable (_ ∧ _ ∧ _))

theorem MapsCounting.encodes {base : UInt8} {dptr : Option UInt8} {ops : List Operand}
    (hmaps : MapsCounting name base dptr)
    (h : (Family.encodeCounting base dptr ops).result = some code) :
    Encodes site name (ops.map Operand.form) code := by
  obtain ⟨hacc, hdptr, hlocation⟩ := hmaps
  unfold Family.encodeCounting at h
  split at h
  · split at h
    · next ha =>
      cases h
      exact hacc.encodes rfl (.cons (denotes_reserved_a ha _ _ _) .nil)
    · split at h
      · next hform =>
        split at h <;> cases h
        refine (hdptr _ rfl).encodes rfl (.cons ?_ .nil)
        rw [Operand.form_of_isReservedAs hform]
        exact .dptr
      · exact hlocation.encodes Inherent.nil h
  · cases h

/-- An instruction with one implied operand has it, written or not. -/
theorem Maps.encodes_implied {implied : Reserved} {word : String} {slot : Slot} {value : Value}
    {ops : List Operand} (hmap : Maps opcode name [slot])
    (hread : readSlots opcode [slot] [] = some [value])
    (hden : ∀ settings point next, Denotes settings point next value (.reserved implied))
    (hlength : ops.length ≤ 1)
    (h : (Family.encodeImplied site implied word opcode ops).result = some code) :
    Encodes site name (if ops.isEmpty then [.reserved implied] else ops.map Operand.form) code := by
  unfold Family.encodeImplied at h
  split at h
  · obtain ⟨_, _, hcode⟩ := Attempt.result_bind_eq_some.mp h
    cases hcode
    exact hmap.encodes hread (.cons (hden _ _ _) .nil)
  · next op rest =>
    split at h
    · next hform =>
      cases h
      have hrest : rest = [] := List.eq_nil_of_length_eq_zero (by simpa using hlength)
      rw [hrest, List.isEmpty_cons, if_neg nofun, List.map_singleton,
        Operand.form_of_isReservedAs hform]
      exact hmap.encodes hread (.cons (hden _ _ _) .nil)
    · cases h

/-! ## Jumps to a page or a full address -/

theorem and_pageBits (x : Nat) : x &&& 0xe0 = x / 32 % 8 * 32 := by
  have hshift : x &&& (7 <<< 5) = ((x >>> 5) &&& 7) <<< 5 := by
    apply Nat.eq_of_testBit_eq
    intro i
    rw [Nat.testBit_and, Nat.testBit_shiftLeft, Nat.testBit_shiftLeft, Nat.testBit_and,
      Nat.testBit_shiftRight]
    by_cases hi : 5 ≤ i <;> simp [hi]
  rw [show 0xe0 = 7 <<< 5 from rfl, hshift, Nat.shiftLeft_eq, Nat.shiftRight_eq_div_pow,
    show 7 = 2 ^ 3 - 1 from rfl, Nat.and_two_pow_sub_one_eq_mod]

/-- The bits of a target that go into the opcode. -/
theorem pageBits_eq (target : UInt32) :
    ((target >>> 3) &&& (0xe0 : UInt32)).toUInt8 = (target.toNat / 256 % 8 * 32).toUInt8 := by
  apply UInt8.toNat_inj.mp
  simp only [UInt32.toNat_toUInt8, UInt32.toNat_and, UInt32.toNat_shiftRight, UInt32.reduceToNat,
    Nat.reduceMod, and_pageBits, Nat.shiftRight_eq_div_pow, Nat.toUInt8_eq, UInt8.toNat_ofNat']
  omega

theorem toNat_pageOf (address : UInt32) :
    (Family.pageOf address).toNat = address.toNat / 2048 % 32 := by
  rw [Family.pageOf, UInt32.toNat_and, UInt32.toNat_shiftRight]
  show _ &&& (2 ^ 5 - 1) = _
  rw [Nat.and_two_pow_sub_one_eq_mod, Nat.shiftRight_eq_div_pow]
  rfl

/-- The opcode with any page bits stands for the named instruction. -/
def MapsPages (opcode : UInt8) (name : String) : Prop :=
  ∀ k < 8, Maps ((k * 32).toUInt8 ||| opcode) name [.page] ∧
    ((k * 32).toUInt8 ||| opcode).toNat / 32 = k

instance (opcode : UInt8) (name : String) : Decidable (MapsPages opcode name) :=
  inferInstanceAs (Decidable (∀ k < 8, _))

theorem MapsPages.encodes {target : UInt32} (hmaps : MapsPages opcode name)
    (htarget : (op.target site.settings site.point).result = some target)
    (hpage : Family.samePage site.point target = true) :
    Encodes site name [op.form] (Family.pageCode opcode target) := by
  obtain ⟨hlt, hden⟩ := Operand.target_result htarget
  obtain ⟨hmap, hbits⟩ := hmaps (target.toNat / 256 % 8) (by omega)
  rw [Family.pageCode, pageBits_eq]
  refine hmap.encodes rfl (.cons (hden _ _ ?_) .nil)
  -- The high bits of the target are those of the next instruction, the others are in the code.
  rw [Family.samePage, beq_iff_eq, ← UInt32.toNat_inj, toNat_pageOf, toNat_pageOf,
    UInt32.toNat_add] at hpage
  rw [hbits, Value.target?, UInt32.toNat_toUInt8, Option.some.injEq]
  simp only [UInt32.reduceToNat, List.length_cons, List.length_nil] at hpage ⊢
  omega

theorem Maps.encodes_longCode {target : UInt32} (hmap : Maps opcode name [.long])
    (htarget : (op.target site.settings site.point).result = some target) :
    Encodes site name [op.form] (Family.longCode opcode target) := by
  obtain ⟨hlt, hden⟩ := Operand.target_result htarget
  refine hmap.encodes rfl (.cons (hden _ _ ?_) .nil)
  rw [Value.target?, UInt32.toNat_toUInt8, UInt32.toNat_toUInt8, UInt32.toNat_shiftRight,
    Nat.shiftRight_eq_div_pow, Option.some.injEq]
  simp only [UInt32.reduceToNat, Nat.reduceMod]
  omega

theorem Maps.encodes_relative {target : UInt32} (hmap : Maps opcode name [.relative])
    (htarget : (op.target site.settings site.point).result = some target)
    (hshort : Operand.isShort (Operand.distance (site.point + 2) target) = true) :
    Encodes site name [op.form]
      [opcode, Operand.lowByte (Operand.distance (site.point + 2) target)] := by
  obtain ⟨hlt, hden⟩ := Operand.target_result htarget
  exact hmap.encodes rfl (.cons (hden _ _ (Operand.target?_relative 2 hlt hshort)) .nil)

theorem MapsPages.encodes_pageJump (hmaps : MapsPages opcode name)
    (h : (Family.encodePageJump site opcode op).result = some code) :
    Encodes site name [op.form] code := by
  obtain ⟨target, htarget, h⟩ := Attempt.result_bind_eq_some.mp h
  split at h
  · next hpage =>
    cases h
    exact hmaps.encodes htarget hpage
  · cases h

theorem Maps.encodes_longJump (hmap : Maps opcode name [.long])
    (h : (Family.encodeLongJump site opcode op).result = some code) :
    Encodes site name [op.form] code := by
  obtain ⟨target, htarget, rfl⟩ := Attempt.result_return_eq_some.mp h
  exact hmap.encodes_longCode htarget

/-- The shortest jump is one of the four jumps. -/
theorem encodes_anyJump (h : (Family.encodeAnyJump site op).result = some code) :
    ∃ name ∈ ["jmp", "sjmp", "ajmp", "ljmp"], Encodes site name [op.form] code := by
  unfold Family.encodeAnyJump at h
  split at h
  · next hform =>
    cases h
    have hmap : Maps 0x73 "jmp" [.atADptr] := by decide
    refine ⟨"jmp", by simp, hmap.encodes rfl (.cons ?_ .nil)⟩
    rw [Operand.form_of_pointsTo hform]
    exact .atADptr
  · obtain ⟨target, htarget, h⟩ := Attempt.result_bind_eq_some.mp h
    simp only at h
    split at h
    · next hshort =>
      cases h
      have hmap : Maps 0x80 "sjmp" [.relative] := by decide
      exact ⟨"sjmp", by simp, hmap.encodes_relative htarget hshort⟩
    · split at h
      · next hpage =>
        cases h
        have hmaps : MapsPages 0x01 "ajmp" := by decide
        exact ⟨"ajmp", by simp, hmaps.encodes htarget hpage⟩
      · cases h
        have hmap : Maps 0x02 "ljmp" [.long] := by decide
        exact ⟨"ljmp", by simp, hmap.encodes_longCode htarget⟩

/-- The shortest call is one of the two calls. -/
theorem encodes_anyCall (h : (Family.encodeAnyCall site op).result = some code) :
    ∃ name ∈ ["acall", "lcall"], Encodes site name [op.form] code := by
  obtain ⟨target, htarget, h⟩ := Attempt.result_bind_eq_some.mp h
  split at h
  · next hpage =>
    cases h
    have hmaps : MapsPages 0x11 "acall" := by decide
    exact ⟨"acall", by simp, hmaps.encodes htarget hpage⟩
  · cases h
    have hmap : Maps 0x12 "lcall" [.long] := by decide
    exact ⟨"lcall", by simp, hmap.encodes_longCode htarget⟩

/-! ## Jumps near by -/

/-- With a distance after them, the bytes are the named instruction, whose operands before the
distance denote the given forms. -/
def StartsJump (name : String) (forms : List Form) (bytes : Code) : Prop :=
  ∃ values, (∀ rel, decode (bytes ++ [rel]) = some ⟨name, values ++ [.relative rel]⟩) ∧
    ∀ settings point next, List.Forall₂ (Denotes settings point next) values forms

theorem Maps.startsJump (values : List Value) (hmap : Maps opcode name (slots ++ [.relative]))
    (hread : ∀ rel, readSlots opcode (slots ++ [.relative]) (bytes ++ [rel]) =
      some (values ++ [.relative rel]))
    (hden : ∀ settings point next, List.Forall₂ (Denotes settings point next) values forms) :
    StartsJump name forms (opcode :: bytes) :=
  ⟨values, fun rel => Machine.decode_cons hmap (hread rel), hden⟩

/-- The distance leads to the target, counted from the end of the whole instruction. -/
theorem StartsJump.encodes (hstart : StartsJump name forms bytes)
    (h : (Family.withDistance site bytes op).result = some code) :
    Encodes site name (forms ++ [op.form]) code := by
  obtain ⟨values, hdecode, hden⟩ := hstart
  obtain ⟨target, htarget, h⟩ := Attempt.result_bind_eq_some.mp h
  obtain ⟨rel, hrel, rfl⟩ := Attempt.result_return_eq_some.mp h
  obtain ⟨hshort, rfl⟩ := Operand.relative_result hrel
  obtain ⟨hlt, hdenTarget⟩ := Operand.target_result htarget
  refine ⟨_, hdecode _, List.rel_append (hden _ _ _) (.cons (hdenTarget _ _ ?_) .nil)⟩
  rw [List.length_append, List.length_singleton]
  exact Operand.target?_relative _ hlt hshort

theorem startsJump_comparison {left right : Operand}
    (h : (Family.comparison left right).result = some bytes) :
    StartsJump "cjne" [left.form, right.form] bytes := by
  unfold Family.comparison at h
  split at h
  · next ha =>
    simp only [Attempt.result_orElse_eq_some, Attempt.result_return_eq_some] at h
    obtain ⟨d, hd, rfl⟩ | ⟨-, d, hd, rfl⟩ := h
    · have hmap : Maps 0xb4 "cjne" ([.a, .immediate] ++ [.relative]) := by decide
      exact hmap.startsJump [.a, .immediate d] (fun _ => rfl) fun _ _ _ =>
        .cons (denotes_reserved_a ha _ _ _) (.cons (Operand.denotes_immediate hd) .nil)
    · have hmap : Maps 0xb5 "cjne" ([.a, .direct] ++ [.relative]) := by decide
      exact hmap.startsJump [.a, .direct d] (fun _ => rfl) fun _ _ _ =>
        .cons (denotes_reserved_a ha _ _ _) (.cons (Operand.denotes_direct hd) .nil)
  · obtain ⟨data, hdata, h⟩ := Attempt.result_bind_eq_some.mp h
    simp only [Attempt.result_orElse_eq_some, Attempt.result_return_eq_some] at h
    obtain ⟨b, hb, rfl⟩ | ⟨-, b, hb, rfl⟩ := h
    · have hmaps : MapsNumbered 2 0xb6 "cjne" ([.pointer, .immediate] ++ [.relative]) := by decide
      obtain ⟨hmap, hden⟩ := hmaps.pointer hb
      exact hmap.startsJump [_, .immediate data] (fun _ => rfl) fun _ _ _ =>
        .cons (hden _ _ _) (.cons (Operand.denotes_immediate hdata) .nil)
    · have hmaps : MapsNumbered 8 0xb8 "cjne" ([.register, .immediate] ++ [.relative]) := by decide
      obtain ⟨hmap, hden⟩ := hmaps.register hb
      exact hmap.startsJump [_, .immediate data] (fun _ => rfl) fun _ _ _ =>
        .cons (hden _ _ _) (.cons (Operand.denotes_immediate hdata) .nil)

theorem startsJump_counter (h : (Family.counter op).result = some bytes) :
    StartsJump "djnz" [op.form] bytes := by
  simp only [Family.counter, Attempt.result_orElse_eq_some, Attempt.result_return_eq_some] at h
  obtain ⟨b, hb, rfl⟩ | ⟨-, d, hd, rfl⟩ := h
  · have hmaps : MapsNumbered 8 0xd8 "djnz" ([.register] ++ [.relative]) := by decide
    obtain ⟨hmap, hden⟩ := hmaps.register hb
    exact hmap.startsJump [_] (fun _ => rfl) fun _ _ _ => .cons (hden _ _ _) .nil
  · have hmap : Maps 0xd5 "djnz" ([.direct] ++ [.relative]) := by decide
    exact hmap.startsJump [.direct d] (fun _ => rfl) fun _ _ _ =>
      .cons (Operand.denotes_direct hd) .nil

/-! ## Moves -/

/-- The sources of a register or of a byte it points to. -/
theorem encodes_moveToRegister {accumulatorOp directOp immediateOp : UInt8} {slot : Slot}
    (hacc : Maps accumulatorOp name [slot, .a] ∧ Inherent accumulatorOp [slot] [dst.form])
    (hdirect : Maps directOp name [slot, .direct] ∧ Inherent directOp [slot] [dst.form])
    (himmediate : Maps immediateOp name [slot, .immediate] ∧
      Inherent immediateOp [slot] [dst.form])
    (h : (Family.moveToRegister accumulatorOp directOp immediateOp src).result = some code) :
    Encodes site name [dst.form, src.form] code := by
  unfold Family.moveToRegister at h
  split at h
  · next ha =>
    cases h
    exact hacc.2.encodes hacc.1 rfl (.cons (denotes_reserved_a ha _ _ _) .nil)
  · simp only [Attempt.result_orElse_eq_some, Attempt.result_return_eq_some] at h
    obtain ⟨d, hd, rfl⟩ | ⟨-, d, hd, rfl⟩ := h
    · exact hdirect.2.encodes hdirect.1 rfl (.cons (Operand.denotes_direct hd) .nil)
    · exact himmediate.2.encodes himmediate.1 rfl (.cons (Operand.denotes_immediate hd) .nil)

/-- The sources of a byte in memory. From another byte, the address of the source comes first. -/
theorem encodes_moveToDirect {address : UInt8} (haddress : dst.direct.result = some address)
    (h : (Family.moveToDirect address src).result = some code) :
    Encodes site "mov" [dst.form, src.form] code := by
  unfold Family.moveToDirect at h
  split at h
  · next ha =>
    cases h
    have hmap : Maps 0xf5 "mov" [.direct, .a] := by decide
    exact hmap.encodes rfl
      (.cons (Operand.denotes_direct haddress) (.cons (denotes_reserved_a ha _ _ _) .nil))
  · simp only [Attempt.result_orElse_eq_some, Attempt.result_return_eq_some] at h
    obtain ⟨d, hd, rfl⟩ | ⟨-, ⟨d, hd, rfl⟩ | ⟨-, ⟨b, hb, rfl⟩ | ⟨-, b, hb, rfl⟩⟩⟩ := h
    · have hmap : Maps 0x75 "mov" [.direct, .immediate] := by decide
      exact hmap.encodes rfl
        (.cons (Operand.denotes_direct haddress) (.cons (Operand.denotes_immediate hd) .nil))
    · have hshape : shape? 0x85 = some ⟨"mov", [.direct, .direct], true⟩ := by decide
      have hread : readSlots 0x85 [.direct, .direct] [d, address] =
          some [.direct d, .direct address] := rfl
      exact ⟨[.direct address, .direct d], Machine.decode_cons hshape hread,
        .cons (Operand.denotes_direct haddress) (.cons (Operand.denotes_direct hd) .nil)⟩
    · have hmaps : MapsNumbered 2 0x86 "mov" [.direct, .pointer] := by decide
      obtain ⟨hmap, hden⟩ := hmaps.pointer hb
      exact hmap.encodes rfl (.cons (Operand.denotes_direct haddress) (.cons (hden _ _ _) .nil))
    · have hmaps : MapsNumbered 8 0x88 "mov" [.direct, .register] := by decide
      obtain ⟨hmap, hden⟩ := hmaps.register hb
      exact hmap.encodes rfl (.cons (Operand.denotes_direct haddress) (.cons (hden _ _ _) .nil))

theorem encodes_moveIntoRegister {b : UInt8} (hb : dst.register.result = some b)
    (h : (Family.moveToRegister (Family.withLow 0xf8 b) (Family.withLow 0xa8 b)
      (Family.withLow 0x78 b) src).result = some code) :
    Encodes site "mov" [dst.form, src.form] code := by
  have hacc : MapsNumbered 8 0xf8 "mov" [.register, .a] := by decide
  have hdirect : MapsNumbered 8 0xa8 "mov" [.register, .direct] := by decide
  have himmediate : MapsNumbered 8 0x78 "mov" [.register, .immediate] := by decide
  exact encodes_moveToRegister ((hacc.register hb).imp_right (.single fun _ => rfl))
    ((hdirect.register hb).imp_right (.single fun _ => rfl))
    ((himmediate.register hb).imp_right (.single fun _ => rfl)) h

theorem encodes_moveIntoPointed {b : UInt8} (hb : dst.pointer.result = some b)
    (h : (Family.moveToRegister (Family.withLow 0xf6 b) (Family.withLow 0xa6 b)
      (Family.withLow 0x76 b) src).result = some code) :
    Encodes site "mov" [dst.form, src.form] code := by
  have hacc : MapsNumbered 2 0xf6 "mov" [.pointer, .a] := by decide
  have hdirect : MapsNumbered 2 0xa6 "mov" [.pointer, .direct] := by decide
  have himmediate : MapsNumbered 2 0x76 "mov" [.pointer, .immediate] := by decide
  exact encodes_moveToRegister ((hacc.pointer hb).imp_right (.single fun _ => rfl))
    ((hdirect.pointer hb).imp_right (.single fun _ => rfl))
    ((himmediate.pointer hb).imp_right (.single fun _ => rfl)) h

theorem encodes_move (h : (Family.encodeMove dst src).result = some code) :
    Encodes site "mov" [dst.form, src.form] code := by
  unfold Family.encodeMove at h
  split at h
  · next ha =>
    have hmaps : MapsSource "mov" 0x74 0xe5 0xe6 0xe8 := by decide
    rw [Operand.form_of_isReservedAs ha]
    exact hmaps.encodes h
  split at h
  · next hc =>
    have hmap : Maps 0xa2 "mov" [.c, .bit] := by decide
    obtain ⟨d, hd, rfl⟩ := Attempt.result_return_eq_some.mp h
    exact hmap.encodes rfl
      (.cons (denotes_reserved_c hc _ _ _) (.cons (Operand.denotes_bit hd) .nil))
  split at h
  · next hdptr =>
    have hmap : Maps 0x90 "mov" [.dptr, .immediateWord] := by decide
    obtain ⟨word, hword, rfl⟩ := Attempt.result_return_eq_some.mp h
    obtain ⟨high, low, rfl, hden⟩ := Operand.denotes_immediateWord hword
    rw [Operand.form_of_isReservedAs hdptr]
    exact hmap.encodes rfl (.cons .dptr (.cons (hden _ _ _) .nil))
  -- What is left is a register, a byte that one points to, a bit or a byte in memory.
  rw [Attempt.result_cases] at h
  split at h
  · next b hb => exact encodes_moveIntoRegister hb h
  rw [Attempt.result_cases] at h
  split at h
  · next b hb => exact encodes_moveIntoPointed hb h
  split at h
  · next hc =>
    have hmap : Maps 0x92 "mov" [.bit, .c] := by decide
    obtain ⟨d, hd, rfl⟩ := Attempt.result_return_eq_some.mp h
    exact hmap.encodes rfl
      (.cons (Operand.denotes_bit hd) (.cons (denotes_reserved_c hc _ _ _) .nil))
  · obtain ⟨address, haddress, h⟩ := Attempt.result_bind_eq_some.mp h
    exact encodes_moveToDirect haddress h

theorem encodes_moveCode (h : (Family.encodeMoveCode dst src).result = some code) :
    Encodes site "movc" [dst.form, src.form] code := by
  unfold Family.encodeMoveCode at h
  split at h
  · cases h
  next hdst =>
  have ha : dst.isReservedAs .a = true := by simpa using hdst
  rw [Operand.form_of_isReservedAs ha]
  split at h
  · next hsrc =>
    cases h
    have hmap : Maps 0x93 "movc" [.a, .atADptr] := by decide
    rw [Operand.form_of_pointsTo hsrc]
    exact hmap.encodes rfl (.cons .a (.cons .atADptr .nil))
  · split at h <;> cases h
    next hsrc =>
    have hmap : Maps 0x83 "movc" [.a, .atAPc] := by decide
    rw [Operand.form_of_pointsTo hsrc]
    exact hmap.encodes rfl (.cons .a (.cons .atAPc .nil))

theorem encodes_moveExternal (h : (Family.encodeMoveExternal dst src).result = some code) :
    Encodes site "movx" [dst.form, src.form] code := by
  unfold Family.encodeMoveExternal at h
  split at h
  · next ha =>
    rw [Operand.form_of_isReservedAs ha]
    split at h
    · next hsrc =>
      cases h
      have hmap : Maps 0xe0 "movx" [.a, .atDptr] := by decide
      rw [Operand.form_of_pointsTo hsrc]
      exact hmap.encodes rfl (.cons .a (.cons .atDptr .nil))
    · obtain ⟨b, hb, rfl⟩ := Attempt.result_return_eq_some.mp h
      have hmaps : MapsNumbered 2 0xe2 "movx" [.a, .pointer] := by decide
      obtain ⟨hmap, hden⟩ := hmaps.pointer hb
      exact hmap.encodes rfl (.cons .a (.cons (hden _ _ _) .nil))
  split at h
  · cases h
  next hsrc =>
  have ha : src.isReservedAs .a = true := by simpa using hsrc
  rw [Operand.form_of_isReservedAs ha]
  split at h
  · next hdst =>
    cases h
    have hmap : Maps 0xf0 "movx" [.atDptr, .a] := by decide
    rw [Operand.form_of_pointsTo hdst]
    exact hmap.encodes rfl (.cons .atDptr (.cons .a .nil))
  · obtain ⟨b, hb, rfl⟩ := Attempt.result_return_eq_some.mp h
    have hmaps : MapsNumbered 2 0xf2 "movx" [.pointer, .a] := by decide
    obtain ⟨hmap, hden⟩ := hmaps.pointer hb
    exact hmap.encodes rfl (.cons (hden _ _ _) (.cons .a .nil))

end Encoding

/-! ## All families -/

/-- The opcodes of the family are those of the named instruction, which uses at most `most`
operands. A family that fixes its opcodes has one member. -/
def Family.Mapped (name : String) (most : Nat) : Family → Prop
  | .fixed opcode => most = 0 ∧ Maps opcode name []
  | .arithmetic base => MapsSourceOf name base
  | .multiplicative opcode => most = 1 ∧ Maps opcode name [.ab]
  | .logical base carry => MapsLogical name base carry
  | .bitwise acc carry bitOp => MapsBitwise name acc carry bitOp
  | .counting base dptr => MapsCounting name base dptr
  | .accumulator opcode => most = 1 ∧ Maps opcode name [.a]
  | .stack opcode => Maps opcode name [.direct]
  | .pageJump opcode => MapsPages opcode name
  | .longJump opcode => Maps opcode name [.long]
  | .shortJump opcode => Maps opcode name [.relative]
  | .anyJump => name = "jmp"
  | .anyCall => name = "call"
  | .bitJump opcode => Maps opcode name [.bit, .relative]
  | .compareJump => name = "cjne"
  | .countJump => name = "djnz"
  | .move => name = "mov"
  | .moveCode => name = "movc"
  | .moveExternal => name = "movx"
  | .exchange => name = "xch"
  | .exchangeDigit => name = "xchd"

instance (name : String) (most : Nat) (f : Family) : Decidable (f.Mapped name most) := by
  unfold Family.Mapped
  split <;> infer_instance

/-- The named instruction may be written for the machine instruction. -/
def StandsFor (written machine : String) : Prop :=
  written = machine ∨ written = "jmp" ∧ machine ∈ ["sjmp", "ajmp", "ljmp"] ∨
    written = "call" ∧ machine ∈ ["acall", "lcall"]

theorem standsFor_jmp {machine : String} (h : machine ∈ ["jmp", "sjmp", "ajmp", "ljmp"]) :
    StandsFor "jmp" machine := by
  rcases List.mem_cons.mp h with rfl | h
  · exact Or.inl rfl
  · exact Or.inr (Or.inl ⟨rfl, h⟩)

/-- **What a family makes of a reading of the operands.** -/
theorem Family.encodes {f : Family} {name : String} {most : Nat} {site : Site}
    {ops : List Operand} {code : Code} (hmapped : f.Mapped name most) (hlength : ops.length ≤ most)
    (h : (f.encode site ops).result = some code) :
    ∃ machine, StandsFor name machine ∧
      Encodes site machine (f.restored (ops.map Operand.form)) code := by
  cases f <;> simp only [Mapped, encode] at hmapped h
  case fixed opcode =>
    obtain ⟨rfl, hmap⟩ := hmapped
    cases h
    rw [List.eq_nil_of_length_eq_zero (Nat.le_zero.mp hlength)]
    exact ⟨name, Or.inl rfl, hmap.encodes rfl .nil⟩
  case arithmetic base => exact ⟨name, Or.inl rfl, hmapped.encodes_accumulatorSource h⟩
  case multiplicative opcode =>
    obtain ⟨rfl, hmap⟩ := hmapped
    have henc := hmap.encodes_implied rfl (fun _ _ _ => .ab) hlength h
    cases ops <;> exact ⟨name, Or.inl rfl, henc⟩
  case logical base carry => exact ⟨name, Or.inl rfl, hmapped.encodes h⟩
  case bitwise acc carry bitOp => exact ⟨name, Or.inl rfl, hmapped.encodes h⟩
  case counting base dptr => exact ⟨name, Or.inl rfl, hmapped.encodes h⟩
  case accumulator opcode =>
    obtain ⟨rfl, hmap⟩ := hmapped
    have henc := hmap.encodes_implied rfl (fun _ _ _ => .a) hlength h
    cases ops <;> exact ⟨name, Or.inl rfl, henc⟩
  case anyJump =>
    split at h
    · obtain ⟨machine, hmem, henc⟩ := encodes_anyJump h
      exact ⟨machine, hmapped ▸ standsFor_jmp hmem, henc⟩
    · cases h
  case anyCall =>
    split at h
    · obtain ⟨machine, hmem, henc⟩ := encodes_anyCall h
      exact ⟨machine, Or.inr (Or.inr ⟨hmapped, hmem⟩), henc⟩
    · cases h
  -- The families that are left have one machine instruction each and one number of operands.
  all_goals refine ⟨name, Or.inl rfl, ?_⟩
  case stack opcode =>
    split at h
    · obtain ⟨d, hd, rfl⟩ := Attempt.result_return_eq_some.mp h
      exact hmapped.encodes rfl (.cons (Operand.denotes_direct hd) .nil)
    · cases h
  case pageJump opcode =>
    split at h
    · exact hmapped.encodes_pageJump h
    · cases h
  case longJump opcode =>
    split at h
    · exact hmapped.encodes_longJump h
    · cases h
  case shortJump opcode =>
    split at h
    · have hmap : Maps opcode name ([] ++ [.relative]) := hmapped
      exact (hmap.startsJump [] (fun _ => rfl) fun _ _ _ => .nil).encodes h
    · cases h
  case bitJump opcode =>
    split at h
    · next bitOp op =>
      obtain ⟨d, hd, h⟩ := Attempt.result_bind_eq_some.mp h
      have hmap : Maps opcode name ([.bit] ++ [.relative]) := hmapped
      have hstart : StartsJump name [bitOp.form] [opcode, d] :=
        hmap.startsJump [.bit d] (fun _ => rfl) fun _ _ _ => .cons (Operand.denotes_bit hd) .nil
      exact hstart.encodes h
    · cases h
  all_goals subst hmapped
  case compareJump =>
    split at h
    · obtain ⟨bytes, hbytes, h⟩ := Attempt.result_bind_eq_some.mp h
      exact (startsJump_comparison hbytes).encodes h
    · cases h
  case countJump =>
    split at h
    · obtain ⟨bytes, hbytes, h⟩ := Attempt.result_bind_eq_some.mp h
      exact (startsJump_counter hbytes).encodes h
    · cases h
  case move =>
    split at h
    · exact encodes_move h
    · cases h
  case moveCode =>
    split at h
    · exact encodes_moveCode h
    · cases h
  case moveExternal =>
    split at h
    · exact encodes_moveExternal h
    · cases h
  case exchange =>
    split at h
    · split at h
      · next ha =>
        have hmaps : MapsLocation "xch" [.a] 0xc5 0xc6 0xc8 := by decide
        rw [List.map_cons, Operand.form_of_isReservedAs ha]
        exact hmaps.encodes Inherent.a h
      · cases h
    · cases h
  case exchangeDigit =>
    split at h
    · split at h
      · next ha =>
        obtain ⟨b, hb, rfl⟩ := Attempt.result_return_eq_some.mp h
        have hmaps : MapsNumbered 2 0xd6 "xchd" [.a, .pointer] := by decide
        obtain ⟨hmap, hden⟩ := hmaps.pointer hb
        rw [List.map_cons, Operand.form_of_isReservedAs ha]
        exact hmap.encodes rfl (.cons .a (.cons (hden _ _ _) .nil))
      · cases h
    · cases h

end Mcs51
