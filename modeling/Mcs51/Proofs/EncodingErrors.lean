import Mcs51.Proofs.EncodingSound

/-!
# Errors of encoding

An instruction that cannot be encoded is reported as an error, with one exception. Where the
omission of an operand is warned of, an instruction that has `A` omitted and another operand that
cannot be its source gets the warning only: the error is left out because something has been said.

* `Family.fair_encode` — a family that fails has an error or nothing to say, that case apart
* `Instruction.loud_encode` — an instruction that fails has an error, that case apart
* `Instruction.lost_iff` — an instruction has neither bytes nor an error exactly in that case
-/

namespace Mcs51

open Attempt

/-! ## Fields report with errors only -/

namespace Operand

variable {op dst src : Operand}

theorem strict_within (op : Operand) (limit : Int) (complaint : Complaint) (v : Int) :
    (op.within limit complaint v).Strict := by
  unfold within
  split
  · exact strict_done _
  · exact strict_fail rfl

theorem loud_within (op : Operand) (limit : Int) (complaint : Complaint) (v : Int) :
    (op.within limit complaint v).Loud := by
  unfold within
  split
  · exact loud_pure _
  · exact loud_fail rfl

theorem strict_direct (op : Operand) : op.direct.Strict := by
  unfold direct
  split
  · split
    · exact strict_mismatch
    · exact (strict_within _ _ _ _).map _
  · exact strict_mismatch

theorem strict_bit (op : Operand) : op.bit.Strict := by
  unfold bit
  split
  · split
    · exact strict_mismatch
    · exact (strict_within _ _ _ _).map _
  · exact strict_mismatch

theorem strict_negatedBit (op : Operand) : op.negatedBit.Strict := by
  unfold negatedBit
  split
  · exact (strict_within _ _ _ _).map _
  · exact strict_mismatch

theorem strict_immediate (op : Operand) : op.immediate.Strict := by
  unfold immediate
  split
  · exact (strict_within _ _ _ _).map _
  · exact strict_mismatch

theorem strict_immediateWord (op : Operand) : op.immediateWord.Strict := by
  unfold immediateWord
  split
  · exact (strict_within _ _ _ _).map _
  · exact strict_mismatch

theorem strict_register (op : Operand) : op.register.Strict := by
  unfold register
  split
  · split
    · exact strict_done _
    · exact strict_fail rfl
  · exact strict_mismatch

theorem strict_pointer (op : Operand) : op.pointer.Strict := by
  unfold pointer
  split
  · split
    · exact strict_done _
    · exact strict_fail rfl
  · exact strict_mismatch

theorem loud_relative (op : Operand) (next target : UInt32) : (op.relative next target).Loud := by
  unfold relative
  simp only
  split
  · exact loud_pure _
  · exact loud_fail rfl

end Operand

/-- A soft violation that stops the encoding is an error. -/
theorem Settings.loud_take (settings : Settings) (situation : Situation) (complaint : Complaint)
    (text : Text) (pos : Position) : (settings.take situation complaint text pos).Loud := by
  unfold take
  simp only
  split
  · exact loud_fail rfl
  · split <;> exact nofun

theorem Settings.strict_take {settings : Settings} {situation : Situation}
    (h : settings.policy situation ≠ .warn) (complaint : Complaint) (text : Text)
    (pos : Position) : (settings.take situation complaint text pos).Strict := by
  unfold take
  simp only
  split
  · exact strict_fail rfl
  · exact strict_done _

/-- An offset may be warned of, but what follows reports its failures. -/
theorem Operand.fair_target (settings : Settings) (point : UInt32) (op : Operand) :
    (op.target settings point).Fair := by
  unfold target
  split
  · exact Loud.fair ((settings.loud_take _ _ _ _).bind fun _ =>
      (loud_within _ _ _ _).bind fun _ => loud_pure _)
  · split
    · exact Loud.fair ((loud_within _ _ _ _).bind fun _ => loud_pure _)
    · exact strict_mismatch.fair

/-! ## Families -/

namespace Family

open Operand

theorem strict_location (directOp pointerOp registerOp : UInt8) (src : Operand) :
    (location directOp pointerOp registerOp src).Strict :=
  ((strict_direct _).return _).orElse
    (((strict_pointer _).return _).orElse ((strict_register _).return _))

theorem strict_source (immediateOp directOp pointerOp registerOp : UInt8) (src : Operand) :
    (source immediateOp directOp pointerOp registerOp src).Strict :=
  ((strict_immediate _).return _).orElse (strict_location _ _ _ _)

theorem strict_accumulatorSource {site : Site} {ops : List Operand}
    (h : site.settings.policy .omittedOperand = .warn → ∀ op, ops ≠ [op]) (base : UInt8) :
    (accumulatorSource site base ops).Strict := by
  unfold accumulatorSource
  split
  · have hpolicy : site.settings.policy .omittedOperand ≠ .warn := fun hwarn => h hwarn _ rfl
    exact (Settings.strict_take hpolicy _ _ _).bind fun _ => strict_source _ _ _ _ _
  · split
    · exact strict_source _ _ _ _ _
    · exact strict_mismatch
  · exact strict_mismatch

theorem strict_encodeLogical {site : Site} {ops : List Operand}
    (h : site.settings.policy .omittedOperand = .warn → ∀ op, ops ≠ [op]) (base : UInt8)
    (carry : Option (UInt8 × UInt8)) : (encodeLogical site base carry ops).Strict := by
  unfold encodeLogical
  split
  · exact strict_accumulatorSource h base
  · split
    · exact strict_source _ _ _ _ _
    · split
      · split
        · exact strict_mismatch
        · exact ((strict_negatedBit _).return _).orElse ((strict_bit _).return _)
      · refine (strict_direct _).bind fun _ => ?_
        split
        · exact strict_pure _
        · exact (strict_immediate _).return _
  · exact strict_mismatch

theorem strict_encodeBitwise (accumulator : Option UInt8) (carry bitOp : UInt8)
    (ops : List Operand) : (encodeBitwise accumulator carry bitOp ops).Strict := by
  unfold encodeBitwise
  split
  · split
    · split
      · exact strict_done _
      · exact strict_mismatch
    · split
      · exact strict_done _
      · exact (strict_bit _).return _
  · exact strict_mismatch

theorem strict_encodeCounting (base : UInt8) (dptr : Option UInt8) (ops : List Operand) :
    (encodeCounting base dptr ops).Strict := by
  unfold encodeCounting
  split
  · split
    · exact strict_done _
    · split
      · split
        · exact strict_done _
        · exact strict_mismatch
      · exact strict_location _ _ _ _
  · exact strict_mismatch

/-- The omission of the only operand may be warned of, but then nothing can fail. -/
theorem fair_encodeImplied (site : Site) (implied : Reserved) (name : String) (opcode : UInt8)
    (ops : List Operand) : (encodeImplied site implied name opcode ops).Fair := by
  unfold encodeImplied
  split
  · exact Loud.fair ((site.settings.loud_take _ _ _ _).bind fun _ => loud_pure _)
  · split
    · exact (strict_done _).fair
    · exact strict_mismatch.fair

theorem strict_comparison (left right : Operand) : (comparison left right).Strict := by
  unfold comparison
  split
  · exact ((strict_immediate _).return _).orElse ((strict_direct _).return _)
  · exact (strict_immediate _).bind fun _ =>
      ((strict_pointer _).return _).orElse ((strict_register _).return _)

theorem strict_counter (op : Operand) : (counter op).Strict :=
  ((strict_register _).return _).orElse ((strict_direct _).return _)

theorem fair_withDistance (site : Site) (code : Code) (op : Operand) :
    (withDistance site code op).Fair :=
  (fair_target _ _ _).bind_loud fun _ => (loud_relative _ _ _).bind fun _ => loud_pure _

theorem fair_encodePageJump (site : Site) (opcode : UInt8) (op : Operand) :
    (encodePageJump site opcode op).Fair := by
  refine (fair_target _ _ _).bind_loud fun _ => ?_
  split
  · exact loud_pure _
  · exact loud_fail rfl

theorem fair_encodeAnyJump (site : Site) (op : Operand) : (encodeAnyJump site op).Fair := by
  unfold encodeAnyJump
  split
  · exact (strict_done _).fair
  · refine (fair_target _ _ _).bind_loud fun _ => ?_
    simp only
    split
    · exact loud_pure _
    · split <;> exact loud_pure _

theorem fair_encodeAnyCall (site : Site) (op : Operand) : (encodeAnyCall site op).Fair := by
  refine (fair_target _ _ _).bind_loud fun _ => ?_
  split <;> exact loud_pure _

theorem strict_moveToRegister (accumulatorOp directOp immediateOp : UInt8) (src : Operand) :
    (moveToRegister accumulatorOp directOp immediateOp src).Strict := by
  unfold moveToRegister
  split
  · exact strict_done _
  · exact ((strict_direct _).return _).orElse ((strict_immediate _).return _)

theorem strict_moveToDirect (address : UInt8) (src : Operand) :
    (moveToDirect address src).Strict := by
  unfold moveToDirect
  split
  · exact strict_done _
  · exact ((strict_immediate _).return _).orElse (((strict_direct _).return _).orElse
      (((strict_pointer _).return _).orElse ((strict_register _).return _)))

theorem strict_encodeMove (dst src : Operand) : (encodeMove dst src).Strict := by
  unfold encodeMove
  split
  · exact strict_source _ _ _ _ _
  split
  · exact (strict_bit _).return _
  split
  · exact (strict_immediateWord _).return _
  refine (strict_register _).cases (fun _ => strict_moveToRegister _ _ _ _) ?_
  refine (strict_pointer _).cases (fun _ => strict_moveToRegister _ _ _ _) ?_
  split
  · exact (strict_bit _).return _
  · exact (strict_direct _).bind fun _ => strict_moveToDirect _ _

theorem strict_encodeMoveCode (dst src : Operand) : (encodeMoveCode dst src).Strict := by
  unfold encodeMoveCode
  split
  · exact strict_mismatch
  · split
    · exact strict_done _
    · split
      · exact strict_done _
      · exact strict_mismatch

theorem strict_encodeMoveExternal (dst src : Operand) :
    (encodeMoveExternal dst src).Strict := by
  unfold encodeMoveExternal
  split
  · split
    · exact strict_done _
    · exact (strict_pointer _).return _
  · split
    · exact strict_mismatch
    · split
      · exact strict_done _
      · exact (strict_pointer _).return _

/-- `A` may be omitted before another operand. -/
def impliesAccumulator : Family → Bool
  | .arithmetic _ | .logical _ _ => true
  | _ => false

/-- **Only the warning of an omitted `A` can stand in for an error.** -/
theorem fair_encode {f : Family} {site : Site} {ops : List Operand}
    (h : f.impliesAccumulator = true → site.settings.policy .omittedOperand = .warn →
      ∀ op, ops ≠ [op]) : (f.encode site ops).Fair := by
  cases f <;> simp only [encode]
  case fixed => exact (strict_done _).fair
  case arithmetic base => exact (strict_accumulatorSource (h rfl) base).fair
  case multiplicative => exact fair_encodeImplied _ _ _ _ _
  case logical base carry => exact (strict_encodeLogical (h rfl) base carry).fair
  case bitwise => exact (strict_encodeBitwise _ _ _ _).fair
  case counting => exact (strict_encodeCounting _ _ _).fair
  case accumulator => exact fair_encodeImplied _ _ _ _ _
  -- The families that are left have one number of operands.
  all_goals
    split
    case h_2 => exact strict_mismatch.fair
  · exact ((strict_direct _).return _).fair
  · exact fair_encodePageJump _ _ _
  · exact (fair_target _ _ _).bind_loud fun _ => loud_pure _
  · exact fair_withDistance _ _ _
  · exact fair_encodeAnyJump _ _
  · exact fair_encodeAnyCall _ _
  · exact (strict_bit _).bind_fair fun _ => fair_withDistance _ _ _
  · exact (strict_comparison _ _).bind_fair fun _ => fair_withDistance _ _ _
  · exact (strict_counter _).bind_fair fun _ => fair_withDistance _ _ _
  · exact (strict_encodeMove _ _).fair
  · exact (strict_encodeMoveCode _ _).fair
  · exact (strict_encodeMoveExternal _ _).fair
  · split
    · exact (strict_location _ _ _ _).fair
    · exact strict_mismatch.fair
  · split
    · exact ((strict_pointer _).return _).fair
    · exact strict_mismatch.fair

end Family

/-! ## Sources of the accumulator -/

/-- The operand can be a source of `A`, in its first reading or its second. -/
def Operand.isSource (op : Operand) : Bool :=
  match op.form with
  | .constant _ | .symbolConstant _ _ | .symbol (some _) => true
  | .address space _ => space != .bit
  | .reserved .a | .reserved (.r _) => true
  | .indirect (.r _) => true
  | _ => false

section Sources

variable {immediateOp directOp pointerOp registerOp base : UInt8} {site : Site} {op : Operand}

/-- There is nothing to say about an operand that is no source. -/
theorem source_of_not_isSource (h : op.isSource = false) :
    Family.source immediateOp directOp pointerOp registerOp op = .mismatch := by
  obtain ⟨text, position, form⟩ := op
  cases form with
  | constant v => cases h
  | symbolConstant symbol v => cases h
  | address space v =>
    have hspace : space = .bit := by simpa [Operand.isSource] using h
    rw [hspace]
    rfl
  | negated v => rfl
  | offset v => rfl
  | reserved r =>
    cases r with
    | a => cases h
    | r n => cases h
    | c => rfl
    | ab => rfl
    | dptr => rfl
  | symbol v =>
    cases v with
    | none => rfl
    | some v => cases h
  | indirect p =>
    cases p with
    | r n => cases h
    | dptr => rfl
    | aDptr => rfl
    | aPc => rfl
    | other => rfl

theorem loud_immediate {v : Int} (h : op.constant? = some v) : op.immediate.Loud := by
  unfold Operand.immediate
  rw [h]
  exact (Operand.loud_within _ _ _ _).map _

theorem loud_direct {space : Space} {v : Int} (h : op.address? = some (space, v))
    (hspace : space ≠ .bit) : op.direct.Loud := by
  unfold Operand.direct
  simp only [h, if_neg hspace]
  exact (Operand.loud_within _ _ _ _).map _

theorem loud_register {n : Nat} (h : op.register? = some n) : op.register.Loud := by
  unfold Operand.register
  simp only [h]
  split
  · exact loud_pure _
  · exact loud_fail rfl

theorem loud_pointer {n : Nat} (h : op.indirectRegister? = some n) : op.pointer.Loud := by
  unfold Operand.pointer
  simp only [h]
  split
  · exact loud_pure _
  · exact loud_fail rfl

/-- One of the fields of a source reports its failure. -/
theorem loud_source_of_field
    (h : op.immediate.Loud ∨ op.direct.Loud ∨ op.pointer.Loud ∨ op.register.Loud) :
    (Family.source immediateOp directOp pointerOp registerOp op).Loud := by
  rcases h with h | h | h | h
  · exact loud_orElse (Or.inl (h.bind fun _ => loud_pure _))
  · exact loud_orElse (Or.inr (loud_orElse (Or.inl (h.bind fun _ => loud_pure _))))
  · exact loud_orElse (Or.inr (loud_orElse (Or.inr (loud_orElse
      (Or.inl (h.bind fun _ => loud_pure _))))))
  · exact loud_orElse (Or.inr (loud_orElse (Or.inr (loud_orElse
      (Or.inr (h.bind fun _ => loud_pure _))))))

/-- A source other than `A` is encoded, or there is an error about it. -/
theorem loud_source (h : op.isSource = true) (ha : op.form ≠ .reserved .a) :
    (Family.source immediateOp directOp pointerOp registerOp op).Loud := by
  apply loud_source_of_field
  obtain ⟨text, position, form⟩ := op
  cases form with
  | constant v => exact Or.inl (loud_immediate rfl)
  | symbolConstant symbol v => exact Or.inl (loud_immediate rfl)
  | address space v =>
    have hspace : space ≠ .bit := by simpa [Operand.isSource] using h
    exact Or.inr (Or.inl (loud_direct rfl hspace))
  | negated v => cases h
  | offset v => cases h
  | reserved r =>
    cases r with
    | a => exact absurd rfl ha
    | r n => exact Or.inr (Or.inr (Or.inr (loud_register rfl)))
    | c => cases h
    | ab => cases h
    | dptr => cases h
  | symbol v =>
    cases v with
    | none => cases h
    | some v => exact Or.inr (Or.inl (loud_direct rfl nofun))
  | indirect p =>
    cases p with
    | r n => exact Or.inr (Or.inr (Or.inl (loud_pointer rfl)))
    | dptr => cases h
    | aDptr => cases h
    | aPc => cases h
    | other => cases h

/-- `A` is a source as the byte it is. -/
theorem source_accumulator (op : Operand) :
    (Family.source immediateOp directOp pointerOp registerOp
      (op.withAddress SpecialRegister.accumulator .byte)).result = some [directOp, 0xe0] :=
  rfl

/-- With a single operand, the families that imply `A` take it as the source. -/
theorem encode_single {f : Family} (h : f.impliesAccumulator = true) (site : Site) (op : Operand) :
    ∃ base, f.encode site [op] = Family.omitted site "a" >>= fun _ => Family.sourceOf base op := by
  cases f with
  | arithmetic base => exact ⟨base, rfl⟩
  | logical base carry => exact ⟨base, rfl⟩
  | _ => cases h

end Sources

/-! ## Instructions -/

namespace Instruction

/-- The instruction is lost: `A` is omitted, which is warned of, and the operand that is there
cannot be its source. -/
def Drops (i : Instruction) (settings : Settings) (ops : List Operand) : Prop :=
  i.family.impliesAccumulator = true ∧ settings.policy .omittedOperand = .warn ∧
    ∃ op, ops = [op] ∧ op.isResolved = true ∧ op.isSource = false

/-- A refusal has an error, and only errors. -/
theorem error_refusal (i : Instruction) (site : Site) (ops : List Operand) :
    ∃ f ∈ i.refusal site ops, f.severity = .error := by
  unfold refusal
  simp only
  split
  · exact ⟨_, List.mem_singleton_self _, rfl⟩
  · next hne =>
    obtain ⟨op, hop⟩ := List.exists_mem_of_ne_nil _ fun hnil => hne (List.isEmpty_iff.mpr hnil)
    exact ⟨_, List.mem_map_of_mem hop, rfl⟩

/-- With a source, a failure has an error: `A` itself cannot fail as a byte. -/
theorem hasError_single {f : Family} {site : Site} {op : Operand}
    (himplied : f.impliesAccumulator = true) (hsource : op.isSource = true)
    (hfails : ∀ reading ∈ readings site.settings [op], (f.encode site reading).result = none) :
    (f.encode site [op]).HasError := by
  have hfirst := hfails [op] (mem_readings _ _)
  obtain ⟨base, hencode⟩ := encode_single himplied site op
  by_cases ha : op.form = .reserved .a
  · have hsecond : second site.settings op =
        .direct (op.withAddress SpecialRegister.accumulator .byte) := by
      unfold second
      rw [ha]
    have hmem : [op.withAddress SpecialRegister.accumulator .byte]
        ∈ readings site.settings [op] := by
      unfold readings
      rw [hsecond]
      exact List.mem_cons_of_mem _ List.mem_cons_self
    obtain ⟨base', hencode'⟩ :=
      encode_single himplied site (op.withAddress SpecialRegister.accumulator .byte)
    have hnone := hfails _ hmem
    rw [hencode', result_bind] at hnone
    -- The byte is a source, so it is the omission that fails.
    cases homitted : (Family.omitted site "a").result with
    | none =>
      rw [hencode]
      exact (Settings.loud_take _ _ _ _ _ homitted).cases _ _
    | some _ =>
      rw [homitted, Option.bind_some, Family.sourceOf, source_accumulator] at hnone
      cases hnone
  · rw [hencode] at hfirst ⊢
    exact (Settings.loud_take _ _ _ _ _).bind (fun _ => loud_source hsource ha) hfirst

/-- **A failure of all readings has an error, unless the instruction is dropped.** -/
theorem loud_encodeReadings {i : Instruction} {site : Site} {ops : List Operand}
    (h : i.family.impliesAccumulator = true → site.settings.policy .omittedOperand = .warn →
      ∀ op, ops = [op] → op.isSource = true) : (i.encodeReadings site ops).Loud := by
  intro hnone
  unfold encodeReadings at hnone ⊢
  split at hnone
  · next reading hfind =>
    have hsucceeds := List.find?_some hfind
    rw [Attempt.succeeds, hnone] at hsucceeds
    cases hsucceeds
  · next hfind =>
    -- All readings fail, the one that is written among them.
    have hfails : ∀ reading ∈ readings site.settings ops,
        (i.family.encode site reading).result = none := by
      intro reading hmem
      simpa [Attempt.succeeds] using List.find?_eq_none.mp hfind reading hmem
    have hfair : (i.family.encode site ops).findings = [] ∨
        (i.family.encode site ops).HasError := by
      by_cases hwarned : i.family.impliesAccumulator = true ∧
          site.settings.policy .omittedOperand = .warn ∧ ∃ op, ops = [op]
      · obtain ⟨himplied, hwarn, op, rfl⟩ := hwarned
        exact Or.inr (hasError_single himplied (h himplied hwarn op rfl) hfails)
      · refine Family.fair_encode (fun himplied hwarn op hop => ?_)
          (hfails ops (mem_readings _ _))
        exact hwarned ⟨himplied, hwarn, op, hop⟩
    -- The first reading is quoted if it has findings, and refused if it has none.
    rcases hfair with hempty | ⟨e, he, herror⟩
    · obtain ⟨e, he, herror⟩ := error_refusal i site ops
      exact ⟨e, by simpa [hempty] using he, herror⟩
    · refine ⟨e, ?_, herror⟩
      have hne : (i.family.encode site ops).findings.isEmpty = false := by
        rw [List.isEmpty_eq_false_iff]
        exact List.ne_nil_of_mem he
      simpa [hne] using he

theorem operands_of_impliesAccumulator {i : Instruction} (hi : i ∈ all)
    (h : i.family.impliesAccumulator = true) : i.fewest = 1 ∧ i.most = 2 := by
  have hall : ∀ i ∈ all, i.family.impliesAccumulator = true → i.fewest = 1 ∧ i.most = 2 := by
    decide
  exact hall i hi h

theorem loud_encode {i : Instruction} (hi : i ∈ all) {site : Site} {ops : List Operand}
    (h : ¬ i.Drops site.settings ops) : (i.encode site ops).Loud := by
  unfold encode
  split
  · exact loud_fail rfl
  · next hresolved =>
    split
    · exact loud_fail rfl
    · split
      · refine loud_encodeReadings fun himplied hwarn op hop => ?_
        have hop' : op.isResolved = true := by
          simpa using List.find?_eq_none.mp hresolved op (hop ▸ List.mem_singleton_self op)
        exact Decidable.byContradiction fun hsource =>
          h ⟨himplied, hwarn, op, hop, hop', by simpa using hsource⟩
      · next extra hextra =>
        refine (Settings.loud_take _ _ _ _ _).bind fun _ =>
          loud_encodeReadings fun himplied _ op hop => ?_
        -- With a trailing operand, two are used, so none is omitted.
        obtain ⟨_, hmost⟩ := operands_of_impliesAccumulator hi himplied
        have hlength : i.most < ops.length := (List.getElem?_eq_some_iff.mp hextra).1
        have hone := congrArg List.length hop
        rw [List.length_take, List.length_singleton] at hone
        omega

/-- An operand that is no source is none in its second reading either. -/
theorem isSource_second {settings : Settings} {op other : Operand} (h : op.isSource = false)
    (hsecond : second settings op = .direct other) : other.isSource = false := by
  unfold second at hsecond
  split at hsecond
  · next hform => simp [Operand.isSource, hform] at h
  · cases hsecond
    rfl
  · next hform => simp [Operand.isSource, hform] at h
  · cases hsecond

theorem isSource_of_mem_readings {settings : Settings} {op : Operand} (h : op.isSource = false)
    {reading : List Operand} (hmem : reading ∈ readings settings [op]) :
    ∃ other, reading = [other] ∧ other.isSource = false := by
  unfold readings at hmem
  split at hmem
  · next other hsecond =>
    rcases List.mem_cons.mp hmem with rfl | hmem
    · exact ⟨op, rfl, h⟩
    · exact ⟨other, List.mem_singleton.mp hmem, isSource_second h hsecond⟩
  · exact ⟨op, List.mem_singleton.mp hmem, h⟩

/-- What is no source leaves only what there is to say about the omission. -/
theorem encode_not_isSource {f : Family} {site : Site} {op : Operand}
    (himplied : f.impliesAccumulator = true)
    (hwarn : site.settings.policy .omittedOperand = .warn) (hsource : op.isSource = false) :
    (f.encode site [op]).result = none ∧ ∃ w, w.severity = .warning ∧
      (f.encode site [op]).findings = [w] := by
  obtain ⟨base, hencode⟩ := encode_single himplied site op
  rw [hencode, Family.sourceOf, source_of_not_isSource hsource]
  unfold Family.omitted Settings.take
  rw [hwarn]
  exact ⟨rfl, _, rfl, rfl⟩

/-- **An instruction that is dropped has no bytes, and a warning is all that is said about it.** -/
theorem Drops.encode {i : Instruction} (hi : i ∈ all) {site : Site} {ops : List Operand}
    (h : i.Drops site.settings ops) :
    (i.encode site ops).result = none ∧ ∃ w, w.severity = .warning ∧
      (i.encode site ops).findings = [w] := by
  obtain ⟨himplied, hwarn, op, rfl, hresolved, hsource⟩ := h
  obtain ⟨hfewest, hmost⟩ := operands_of_impliesAccumulator hi himplied
  have hencode : i.encode site [op] = i.encodeReadings site [op] := by
    simp [Instruction.encode, hresolved, hfewest, hmost]
  have hfind : ((readings site.settings [op]).find? fun ops =>
      (i.family.encode site ops).succeeds) = none := by
    rw [List.find?_eq_none]
    intro reading hmem
    obtain ⟨other, rfl, hother⟩ := isSource_of_mem_readings hsource hmem
    obtain ⟨hnone, _⟩ := encode_not_isSource himplied hwarn hother
    simp [Attempt.succeeds, hnone]
  obtain ⟨_, w, hw, hfindings⟩ := encode_not_isSource himplied hwarn hsource
  refine ⟨?_, w, hw, ?_⟩
  · rw [hencode, encodeReadings, hfind]
  · rw [hencode, encodeReadings, hfind]
    simp only [hfindings, List.isEmpty_cons, Bool.false_eq_true, if_false]

/-- **An instruction has neither bytes nor an error exactly where it is dropped.** -/
theorem lost_iff {i : Instruction} (hi : i ∈ all) (site : Site) (ops : List Operand) :
    (i.encode site ops).result = none ∧ ¬ (i.encode site ops).HasError ↔
      i.Drops site.settings ops := by
  constructor
  · rintro ⟨hnone, hno⟩
    exact Classical.byContradiction fun h => hno (loud_encode hi h hnone)
  · intro h
    obtain ⟨hnone, w, hw, hfindings⟩ := h.encode hi
    refine ⟨hnone, ?_⟩
    rintro ⟨e, he, herror⟩
    rw [hfindings] at he
    rw [List.mem_singleton.mp he, hw] at herror
    cases herror

end Instruction

end Mcs51
