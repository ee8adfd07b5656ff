import Mcs51.Proofs.JumpReach
import Mcs51.Proofs.EncodingLength

/-!
# Instructions of fixed length

Encoding may replace `A` by its byte address and the carry by its bit address, which makes an
instruction longer. Which operands it replaces could depend on addresses. Without a register bank it
does not: an operand is replaced only where the operands as they are written never encode, or where
the replacement is as long.

* `Instruction.eq_of_nearer`: in the reading that is taken nothing is replaced without need.
* `Family.length_reading`: the reading that is taken is as long as the operands as they are written.
* `Instruction.length_encode`: an encoded instruction has the length of its operands' forms.
-/

namespace Mcs51

/-! ## The reading that is taken -/

/-- `other` is `reading`, with some operands as they are written in `ops`. -/
def Nearer : (ops reading other : List Operand) → Prop
  | [], [], [] => True
  | op :: ops, x :: reading, y :: other => (y = x ∨ y = op) ∧ Nearer ops reading other
  | _, _, _ => False

namespace Instruction

variable {settings : Settings}

theorem readsAs_of_mem_readings : ∀ {ops reading : List Operand},
    reading ∈ readings settings ops → List.Forall₂ (ReadsAs settings) ops reading
  | [], reading, h => by
    rw [List.mem_singleton.mp h]
    exact .nil
  | op :: ops, reading, h => by
    unfold readings at h
    split at h
    · next other hsecond =>
      obtain ⟨rest, hrest, hmem⟩ := List.mem_flatMap.mp h
      have ih := readsAs_of_mem_readings hrest
      rcases List.mem_cons.mp hmem with rfl | hmem
      · exact .cons (.inl rfl) ih
      · rw [List.mem_singleton.mp hmem]
        exact .cons (.inr hsecond) ih
    · obtain ⟨rest, hrest, rfl⟩ := List.mem_map.mp h
      exact .cons (.inl rfl) (readsAs_of_mem_readings hrest)

/-- **Nothing is replaced without need.** A reading that succeeds, and replaces no more than the
first reading that succeeds, is that reading. -/
theorem eq_of_nearer : ∀ {ops reading other : List Operand} {p : List Operand → Bool},
    (readings settings ops).find? p = some reading → Nearer ops reading other → p other = true →
      other = reading
  | [], [], [], _, _, _, _ => rfl
  | op :: ops, x :: reading, y :: other, p, hfind, ⟨hy, hnearer⟩, hp => by
    unfold readings at hfind
    split at hfind
    · next second _ =>
      -- the later operands are those of the first choice with which either reading succeeds
      rw [List.find?_flatMap, List.findSome?_eq_some_iff] at hfind
      obtain ⟨before, rest, after, hlist, hrest, hbefore⟩ := hfind
      have hx : (x = op ∨ x = second) ∧ reading = rest := by
        have hmem := List.mem_of_find?_eq_some hrest
        simp only [List.mem_cons, List.cons.injEq, List.not_mem_nil, or_false] at hmem
        tauto
      obtain ⟨hx, rfl⟩ := hx
      have hp' : (p (op :: other) || p (second :: other)) = true := by
        rcases hy with rfl | rfl
        · rcases hx with rfl | rfl <;> simp [hp]
        · simp [hp]
      have hsame : other = reading := by
        refine eq_of_nearer (p := fun rest => p (op :: rest) || p (second :: rest)) ?_ hnearer hp'
        rw [List.find?_eq_some_iff_append]
        refine ⟨?_, before, after, hlist, fun rest hmem => ?_⟩
        · have hsome := List.find?_some hrest
          rcases hx with rfl | rfl <;> simp [hsome]
        · have hnone := hbefore rest hmem
          simp only [List.find?_eq_none, List.mem_cons, List.not_mem_nil, or_false] at hnone
          simp [hnone (op :: rest) (.inl rfl), hnone (second :: rest) (.inr rfl)]
      subst hsame
      rcases hy with rfl | rfl
      · rfl
      · rw [List.find?_cons_of_pos hp] at hrest
        exact Option.some.inj hrest
    · rw [List.find?_map, Option.map_eq_some_iff] at hfind
      obtain ⟨rest, hfind, heq⟩ := hfind
      cases heq
      have hy : y = op := by rcases hy with rfl | rfl <;> rfl
      rw [eq_of_nearer (p := p ∘ (op :: ·)) hfind hnearer (hy ▸ hp), hy]

end Instruction

/-! ## Without a register bank -/

section NoBank

variable {settings : Settings} {op x : Operand}

/-- Without a register bank only `A` and the carry have a second reading. -/
theorem ReadsAs.of_noBank (hbank : settings.bank = none) (h : ReadsAs settings op x) :
    x = op ∨ (op.form = .reserved .a ∧ x.form = .address .byte SpecialRegister.accumulator) ∨
      op.form = .reserved .c ∧ x.form = .address .bit SpecialRegister.carry := by
  rcases h with h | h
  · exact .inl h
  · unfold Instruction.second at h
    split at h
    · next hform =>
      cases h
      exact .inr (.inl ⟨hform, rfl⟩)
    · next hform =>
      cases h
      exact .inr (.inr ⟨hform, rfl⟩)
    · next hform =>
      simp only [Operand.asAddress, hform, hbank] at h
      split at h <;> cases h
    · cases h

/-- Replacing an operand leaves its width. -/
theorem ReadsAs.width_eq (hbank : settings.bank = none) (h : ReadsAs settings op x) :
    x.form.width = op.form.width := by
  rcases h.of_noBank hbank with rfl | ⟨hop, hx⟩ | ⟨hop, hx⟩
  · rfl
  · rw [hop, hx]
    rfl
  · rw [hop, hx]
    rfl

/-- A reading that is a reserved name is the operand as it is written. -/
theorem ReadsAs.eq_of_reserved (hbank : settings.bank = none) (h : ReadsAs settings op x)
    {r : Reserved} (hx : x.isReservedAs r = true) : x = op := by
  rcases h.of_noBank hbank with h | ⟨_, hform⟩ | ⟨_, hform⟩
  · exact h
  · rw [Operand.form_of_isReservedAs hx] at hform
    cases hform
  · rw [Operand.form_of_isReservedAs hx] at hform
    cases hform

end NoBank

namespace Operand

variable {op : Operand} {space : Space} {v : Int}

/-! ### An address is nothing else -/

theorem isReservedAs_of_address (h : op.form = .address space v) (r : Reserved) :
    op.isReservedAs r = false := by
  simp [isReservedAs, h]

theorem immediate_of_address (h : op.form = .address space v) : op.immediate.result = none := by
  simp [immediate, constant?, h]

theorem immediateWord_of_address (h : op.form = .address space v) :
    op.immediateWord.result = none := by
  simp [immediateWord, constant?, h]

theorem register_of_address (h : op.form = .address space v) : op.register.result = none := by
  simp [register, register?, h]

theorem pointer_of_address (h : op.form = .address space v) : op.pointer.result = none := by
  simp [pointer, indirectRegister?, h]

theorem direct_of_bitAddress (h : op.form = .address .bit v) : op.direct.result = none := by
  simp [direct, address?, h]

theorem bit_of_byteAddress (h : op.form = .address .byte v) : op.bit.result = none := by
  simp [bit, address?, h]

end Operand

/-- So is a reading that is an immediate byte. -/
theorem ReadsAs.eq_of_immediate {settings : Settings} {op x : Operand}
    (hbank : settings.bank = none) (h : ReadsAs settings op x) {d : UInt8}
    (hx : x.immediate.result = some d) : x = op := by
  rcases h.of_noBank hbank with h | ⟨_, hform⟩ | ⟨_, hform⟩
  · exact h
  · rw [Operand.immediate_of_address hform] at hx
    cases hx
  · rw [Operand.immediate_of_address hform] at hx
    cases hx

namespace Family

open Operand

variable {settings : Settings} {site : Site} {dst src x y : Operand} {code : Code}

/-! ### Two operands -/

theorem pairLength_of_inOpcode {dst src : Form} (h : dst.inOpcode = true) :
    pairLength dst src = 1 + src.width := if_pos h

theorem pairLength_of_source {dst src : Form} (hdst : dst.inOpcode = false)
    (hsrc : src.inOpcode = true) : pairLength dst src = 1 + dst.width := by
  rw [pairLength, hdst, if_neg Bool.false_ne_true, if_pos hsrc]

/-- With `A` as the destination, the length is that of the source. -/
theorem length_accumulator_reading (hbank : settings.bank = none) (hx : ReadsAs settings dst x)
    (hy : ReadsAs settings src y) (ha : x.isReservedAs .a = true) :
    pairLength x.form y.form = pairLength dst.form src.form := by
  have hin := inOpcode_of_isReservedAs ha (.inl rfl)
  rw [← hx.eq_of_reserved hbank ha, pairLength_of_inOpcode hin, pairLength_of_inOpcode hin,
    hy.width_eq hbank]

/-- A bit address is not moved to a byte. -/
theorem moveToDirect_bitAddress {v : Int} (h : src.form = .address .bit v) (address : UInt8) :
    (moveToDirect address src).result = none := by
  simp [moveToDirect, isReservedAs_of_address h, immediate_of_address h, direct_of_bitAddress h,
    pointer_of_address h, register_of_address h]

theorem moveToRegister_bitAddress {v : Int} (h : src.form = .address .bit v) (op₁ op₂ op₃ : UInt8) :
    (moveToRegister op₁ op₂ op₃ src).result = none := by
  simp [moveToRegister, isReservedAs_of_address h, immediate_of_address h, direct_of_bitAddress h]

/-- What is moved to an address. -/
theorem encodeMove_address {space : Space} {v : Int} (h : x.form = .address space v) :
    (encodeMove x y).result =
      if y.isReservedAs .c then (do return [0x92, ← x.bit] : Attempt Code).result
      else (x.direct >>= fun address => moveToDirect address y).result := by
  simp only [encodeMove, isReservedAs_of_address h, Bool.false_eq_true, if_false,
    Attempt.result_cases, register_of_address h, pointer_of_address h]
  split <;> rfl

/-- A source of `A` is one that can be moved to a byte. -/
theorem succeeds_source {address : UInt8} {o₁ o₂ o₃ o₄ : UInt8} (hin : src.form.inOpcode = false)
    (h : (moveToDirect address src).result = some code) :
    (source o₁ o₂ o₃ o₄ src).succeeds = true := by
  rw [moveToDirect, isReservedAs_of_not_inOpcode hin (.inl rfl), if_neg Bool.false_ne_true] at h
  simp only [Attempt.result_orElse_eq_some, Attempt.result_return_eq_some] at h
  simp only [source, location, Attempt.succeeds_orElse, Attempt.succeeds_return]
  obtain ⟨d, hd, _⟩ | ⟨-, ⟨d, hd, _⟩ | ⟨-, ⟨b, hb, _⟩ | ⟨-, b, hb, _⟩⟩⟩ := h
  · rw [Attempt.succeeds_of_result hd, Bool.true_or]
  · rw [Attempt.succeeds_of_result hd, Bool.true_or, Bool.or_true]
  · rw [Attempt.succeeds_of_result hb, Bool.true_or, Bool.or_true, Bool.or_true]
  · rw [Attempt.succeeds_of_result hb, Bool.or_true, Bool.or_true, Bool.or_true]

/-- Where the byte of `A` can be moved to, `A` can be moved to. -/
theorem succeeds_encodeMove_a {v : Int} (hin : dst.form.inOpcode = false)
    (hsrc : src.form = .reserved .a) (hy : y.form = .address .byte v)
    (h : (encodeMove dst y).result = some code) : (encodeMove dst src).succeeds = true := by
  have ha : src.isReservedAs .a = true := by simp [isReservedAs, hsrc]
  have hc : src.isReservedAs .c = false := by simp [isReservedAs, hsrc]
  simp only [encodeMove, isReservedAs_of_not_inOpcode hin (.inl rfl),
    isReservedAs_of_not_inOpcode hin (.inr rfl), Bool.false_eq_true, if_false, hc,
    isReservedAs_of_address hy] at h ⊢
  split at h
  · obtain ⟨_, hword, _⟩ := Attempt.result_return_eq_some.mp h
    rw [immediateWord_of_address hy] at hword
    cases hword
  · next hdptr =>
    rw [if_neg hdptr, Attempt.succeeds]
    simp only [Attempt.result_cases] at h ⊢
    split at h
    · simp [moveToRegister, ha]
    · split at h
      · simp [moveToRegister, ha]
      · obtain ⟨address, haddress, _⟩ := Attempt.result_bind_eq_some.mp h
        simp [haddress, moveToDirect, ha]

/-- A bit address is moved to `A` and the carry only. -/
theorem encodeMove_bitAddress {v : Int} (hin : dst.form.inOpcode = false)
    (hy : y.form = .address .bit v) : (encodeMove dst y).result = none := by
  simp only [encodeMove, isReservedAs_of_not_inOpcode hin (.inl rfl),
    isReservedAs_of_not_inOpcode hin (.inr rfl), Bool.false_eq_true, if_false,
    isReservedAs_of_address hy]
  split
  · simp [immediateWord_of_address hy]
  · simp only [Attempt.result_cases]
    split
    · exact moveToRegister_bitAddress hy _ _ _
    · split
      · exact moveToRegister_bitAddress hy _ _ _
      · simp [moveToDirect_bitAddress hy]

/-- A move has the length that its operands have as they are written. -/
theorem length_move_reading (hbank : settings.bank = none) (hx : ReadsAs settings dst x)
    (hy : ReadsAs settings src y) (h : (encodeMove x y).result = some code)
    (hdst : (encodeMove dst y).succeeds = true → dst = x)
    (hsrc : (encodeMove x src).succeeds = true → src = y) :
    pairLength x.form y.form = pairLength dst.form src.form := by
  have hwidth := hy.width_eq hbank
  rcases hx.of_noBank hbank with rfl | ⟨hdstForm, hxForm⟩ | ⟨hdstForm, hxForm⟩
  · -- the destination as it is written
    cases hin : x.form.inOpcode with
    | true => rw [pairLength_of_inOpcode hin, pairLength_of_inOpcode hin, hwidth]
    | false =>
      rcases hy.of_noBank hbank with rfl | ⟨hsrcForm, hyForm⟩ | ⟨hsrcForm, hyForm⟩
      · rfl
      · rw [hsrc (succeeds_encodeMove_a hin hsrcForm hyForm h)]
      · rw [encodeMove_bitAddress hin hyForm] at h
        cases h
  · -- the byte of `A`
    have hin : x.form.inOpcode = false := by rw [hxForm]; rfl
    have hinDst : dst.form.inOpcode = true := by rw [hdstForm]; rfl
    rcases hy.of_noBank hbank with rfl | ⟨hsrcForm, hyForm⟩ | ⟨hsrcForm, hyForm⟩
    · cases hinSrc : y.form.inOpcode with
      | true =>
        rw [pairLength_of_inOpcode hinDst, pairLength_of_source hin hinSrc, hxForm,
          Form.width_of_inOpcode hinSrc]
        rfl
      | false =>
        rw [encodeMove_address hxForm, isReservedAs_of_not_inOpcode hinSrc (.inr rfl),
          if_neg Bool.false_ne_true] at h
        obtain ⟨address, _, h⟩ := Attempt.result_bind_eq_some.mp h
        have ha : dst.isReservedAs .a = true := by simp [isReservedAs, hdstForm]
        rw [hdst (by rw [encodeMove, if_pos ha]; exact succeeds_source hinSrc h)]
    · have hsame := hsrc (succeeds_encodeMove_a hin hsrcForm hyForm h)
      rw [← hsame, hsrcForm] at hyForm
      cases hyForm
    · rw [encodeMove_bitAddress hin hyForm] at h
      cases h
  · -- the bit of the carry, to which only the carry is moved
    have hin : x.form.inOpcode = false := by rw [hxForm]; rfl
    have hinDst : dst.form.inOpcode = true := by rw [hdstForm]; rfl
    rw [encodeMove_address hxForm] at h
    split at h
    · next hc =>
      have hinSrc := inOpcode_of_isReservedAs hc (.inr rfl)
      rw [pairLength_of_inOpcode hinDst, pairLength_of_source hin hinSrc, ← hwidth, hxForm,
        Form.width_of_inOpcode hinSrc]
      rfl
    · simp [direct_of_bitAddress hxForm] at h

/-- A logical instruction has the length that its operands have as they are written. -/
theorem length_logical_reading (site : Site) {base : UInt8} {carry : Option (UInt8 × UInt8)}
    (hbank : settings.bank = none) (hx : ReadsAs settings dst x) (hy : ReadsAs settings src y)
    (h : (encodeLogical site base carry [x, y]).result = some code)
    (hdst : (encodeLogical site base carry [dst, y]).succeeds = true → dst = x) :
    pairLength x.form y.form = pairLength dst.form src.form := by
  have hwidth := hy.width_eq hbank
  cases hin : x.form.inOpcode with
  | true =>
    have hsame : x = dst := by
      rcases hx.of_noBank hbank with hsame | ⟨_, hxForm⟩ | ⟨_, hxForm⟩
      · exact hsame
      · rw [hxForm] at hin
        cases hin
      · rw [hxForm] at hin
        cases hin
    rw [← hsame, pairLength_of_inOpcode hin, pairLength_of_inOpcode hin, hwidth]
  | false =>
    simp only [encodeLogical, isReservedAs_of_not_inOpcode hin (.inl rfl),
      isReservedAs_of_not_inOpcode hin (.inr rfl), Bool.false_eq_true, if_false] at h
    obtain ⟨address, haddress, h⟩ := Attempt.result_bind_eq_some.mp h
    -- the source is `A` or an immediate byte, and is not replaced
    have hsame : y = src := by
      split at h
      · next ha => exact hy.eq_of_reserved hbank ha
      · obtain ⟨d, hd, _⟩ := Attempt.result_return_eq_some.mp h
        exact hy.eq_of_immediate hbank hd
    subst hsame
    rcases hx.of_noBank hbank with rfl | ⟨hdstForm, hxForm⟩ | ⟨_, hxForm⟩
    · rfl
    · have hinDst : dst.form.inOpcode = true := by rw [hdstForm]; rfl
      split at h
      · next ha =>
        have hinSrc := inOpcode_of_isReservedAs ha (.inl rfl)
        rw [pairLength_of_inOpcode hinDst, pairLength_of_source hin hinSrc, hxForm,
          Form.width_of_inOpcode hinSrc]
        rfl
      · obtain ⟨d, hd, _⟩ := Attempt.result_return_eq_some.mp h
        have ha : dst.isReservedAs .a = true := by simp [isReservedAs, hdstForm]
        rw [hdst (by
          simp only [encodeLogical, ha, if_true, sourceOf, source, Attempt.succeeds_orElse,
            Attempt.succeeds_return, Attempt.succeeds_of_result hd, Bool.true_or])]
    · rw [direct_of_bitAddress hxForm] at haddress
      cases haddress

/-! ### One operand -/

variable {op : Operand}

theorem length_bitwise_reading {accumulator : Option UInt8} {carry bitOp : UInt8}
    (hbank : settings.bank = none) (hx : ReadsAs settings op x)
    (h : (encodeBitwise accumulator carry bitOp [x]).result = some code)
    (hop : (encodeBitwise accumulator carry bitOp [op]).succeeds = true → op = x) :
    (Family.bitwise accumulator carry bitOp).length [x.form]
      = (Family.bitwise accumulator carry bitOp).length [op.form] := by
  rcases hx.of_noBank hbank with rfl | ⟨_, hxForm⟩ | ⟨hopForm, _⟩
  · rfl
  · simp [encodeBitwise, isReservedAs_of_address hxForm, bit_of_byteAddress hxForm] at h
  · rw [hop (by simp [encodeBitwise, isReservedAs, hopForm, Attempt.succeeds])]

theorem length_counting_reading {base : UInt8} {dptr : Option UInt8}
    (hbank : settings.bank = none) (hx : ReadsAs settings op x)
    (h : (encodeCounting base dptr [x]).result = some code)
    (hop : (encodeCounting base dptr [op]).succeeds = true → op = x) :
    (Family.counting base dptr).length [x.form] = (Family.counting base dptr).length [op.form] := by
  rcases hx.of_noBank hbank with rfl | ⟨hopForm, _⟩ | ⟨_, hxForm⟩
  · rfl
  · rw [hop (by simp [encodeCounting, isReservedAs, hopForm, Attempt.succeeds])]
  · simp [encodeCounting, location, isReservedAs_of_address hxForm, direct_of_bitAddress hxForm,
      pointer_of_address hxForm, register_of_address hxForm] at h

/-- **The reading that is taken is as long as the operands as they are written.** -/
theorem length_reading (f : Family) (hbank : site.settings.bank = none)
    {ops reading : List Operand}
    (hfind : (Instruction.readings site.settings ops).find?
      (fun ops => (f.encode site ops).succeeds) = some reading) :
    f.length (reading.map Operand.form) = f.length (ops.map Operand.form) := by
  have hsome : (f.encode site reading).succeeds = true :=
    List.find?_some (p := fun ops => (f.encode site ops).succeeds) hfind
  obtain ⟨code, hcode⟩ := Option.isSome_iff_exists.mp hsome
  have hleast : ∀ other, Nearer ops reading other → (f.encode site other).succeeds = true →
      other = reading := fun other => Instruction.eq_of_nearer hfind
  cases Instruction.readsAs_of_mem_readings (List.mem_of_find?_eq_some hfind) with
  | nil => rfl
  | @cons dst x ops reading hx hrest =>
    have hwidth := hx.width_eq hbank
    cases hrest with
    | nil =>
      have hop : (f.encode site [dst]).succeeds = true → dst = x := fun hsome =>
        (List.cons.inj (hleast [dst] ⟨.inr rfl, trivial⟩ hsome)).1
      cases f with
      | arithmetic base => exact congrArg (1 + ·) hwidth
      | logical base carry => exact congrArg (1 + ·) hwidth
      | move => exact congrArg (1 + ·) hwidth
      | exchange => exact congrArg (1 + ·) hwidth
      | bitwise accumulator carry bitOp => exact length_bitwise_reading hbank hx hcode hop
      | counting base dptr => exact length_counting_reading hbank hx hcode hop
      | countJump => exact congrArg (2 + ·) hwidth
      | _ => rfl
    | @cons src y ops reading hy hrest =>
      cases hrest with
      | nil =>
        have hdst : (f.encode site [dst, y]).succeeds = true → dst = x := fun hsome =>
          (List.cons.inj (hleast [dst, y] ⟨.inr rfl, .inl rfl, trivial⟩ hsome)).1
        have hsrc : (f.encode site [x, src]).succeeds = true → src = y := fun hsome =>
          (List.cons.inj (List.cons.inj
            (hleast [x, src] ⟨.inl rfl, .inr rfl, trivial⟩ hsome)).2).1
        cases f with
        | arithmetic base =>
          simp only [encode, accumulatorSource] at hcode
          split at hcode
          · next ha => exact length_accumulator_reading hbank hx hy ha
          · cases hcode
        | logical base carry => exact length_logical_reading site hbank hx hy hcode hdst
        | move => exact length_move_reading hbank hx hy hcode hdst hsrc
        | exchange =>
          simp only [encode] at hcode
          split at hcode
          · next ha => exact length_accumulator_reading hbank hx hy ha
          · cases hcode
        | countJump => exact congrArg (2 + ·) hwidth
        | _ => rfl
      | cons hz hrest =>
        cases f with
        | countJump => exact congrArg (2 + ·) hwidth
        | _ => rfl

end Family

/-- **The length of an instruction depends on the forms of its operands only**, not on values and
not on where it stands. -/
theorem Instruction.length_encode {i : Instruction} (hfixed : i.family.isFixed = true) {site : Site}
    (hbank : site.settings.bank = none) {ops : List Operand} {code : Code}
    (h : (i.encode site ops).result = some code) :
    code.length = i.family.length ((ops.take i.most).map Operand.form) := by
  have hreadings := encode_result h
  unfold encodeReadings at hreadings
  split at hreadings
  · next reading hfind =>
    rw [Family.length_encode hfixed hreadings, Family.length_reading i.family hbank hfind]
  · cases hreadings

end Mcs51
