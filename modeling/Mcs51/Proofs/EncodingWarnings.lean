import Mcs51.Instruction
import Mcs51.Proofs.Attempts

/-!
# Successful encodings only warn

The readers of operand fields report errors while an encoding goes on to try other forms of the same
operand. What has been reported stays, so an error is out of place if a later form succeeds. It
never does: a field has something to say only about operands of its own class, and the forms that
are tried one after the other are fields of different classes.

* `Operand.Field` — a field that is silent where it succeeds, and on operands of other classes
* `Operand.Field.orElse` — fields of different classes, one tried after the other, are such a field
* `Attempt.Tame` — what is said is about encoding, and a success says warnings only
* `Family.tame_encode` — every family encodes so, whatever reading of the operands it is given
* `Instruction.encode_warns` — so does every instruction
-/

namespace Mcs51

/-- The complaint is about the encoding of an instruction. -/
def Complaint.isEncoding : Complaint → Bool
  | .unresolved _ | .tooFewOperands _ _ | .trailingOperand _ | .omittedOperand _ _
  | .directTooBig | .bitTooBig | .constantTooBig | .noSuchRegister _ | .notPointer _
  | .codeAddressTooBig | .offsetAsTarget _ | .jumpTooFar | .pageTooFar | .noBank _
  | .badOperands _ => true
  | _ => false

/-! ## Attempts that are tame -/

namespace Attempt

variable {α β : Type}

/-- What the attempt says is about encoding, and if it succeeds it says warnings only. -/
structure Tame (x : Attempt α) : Prop where
  about : ∀ f ∈ x.findings, f.complaint.isEncoding = true
  warns : x.result ≠ none → ∀ f ∈ x.findings, f.severity = .warning

theorem tame_of_silent {x : Attempt α} (h : x.findings = []) : x.Tame := by
  constructor
  · simp [h]
  · simp [h]

theorem tame_done (a : α) : (done a).Tame := tame_of_silent rfl

theorem tame_pure (a : α) : (pure a : Attempt α).Tame := tame_of_silent rfl

theorem tame_mismatch : (mismatch : Attempt α).Tame := tame_of_silent rfl

theorem tame_fail {f : Finding} (h : f.complaint.isEncoding = true) :
    (fail f : Attempt α).Tame := by
  constructor
  · intro g hg
    rw [List.mem_singleton.mp hg]
    exact h
  · intro hresult
    exact absurd rfl hresult

theorem Tame.bind {x : Attempt α} {f : α → Attempt β} (hx : x.Tame) (hf : ∀ a, (f a).Tame) :
    (x >>= f).Tame := by
  constructor
  · intro g hg
    rw [findings_bind] at hg
    rcases List.mem_append.mp hg with hg | hg
    · exact hx.about g hg
    · split at hg
      · exact (hf _).about g hg
      · cases hg
  · intro hresult g hg
    rw [result_bind] at hresult
    rw [findings_bind] at hg
    cases hfirst : x.result with
    | none => exact absurd (by rw [hfirst]; rfl) hresult
    | some a =>
      rw [hfirst, Option.bind_some] at hresult
      rw [hfirst] at hg
      rcases List.mem_append.mp hg with hg | hg
      · exact hx.warns (by rw [hfirst]; exact Option.some_ne_none a) g hg
      · exact (hf a).warns hresult g hg

end Attempt

open Attempt

/-! ## Fields -/

namespace Operand

variable {α β : Type} {op : Operand} {classes others : List OperandClass} {x y : Attempt α}

/-- The attempt reads `op` as a field of the given classes: it is about encoding, it says nothing
where it succeeds, and neither succeeds nor says anything where the operand is of another class. -/
structure Field (op : Operand) (classes : List OperandClass) (x : Attempt α) : Prop where
  about : ∀ f ∈ x.findings, f.complaint.isEncoding = true
  silent : x.result ≠ none → x.findings = []
  only : op.operandClass ∉ classes → x = .mismatch

theorem Field.tame (h : op.Field classes x) : x.Tame where
  about := h.about
  warns := by
    intro hresult f hf
    rw [h.silent hresult] at hf
    cases hf

theorem Field.return (h : op.Field classes x) (g : α → β) :
    op.Field classes (do return g (← x) : Attempt β) := by
  have hsame : (do return g (← x) : Attempt β).findings = x.findings := findings_map g x
  constructor
  case about =>
    rw [hsame]
    exact h.about
  case silent =>
    intro hresult
    rw [hsame]
    apply h.silent
    intro hnone
    apply hresult
    rw [result_bind, hnone]
    rfl
  case only =>
    intro hclass
    rw [h.only hclass]
    rfl

/-- **A field that fails leaves the fields of other classes to try**, and then it has said
nothing. -/
theorem Field.orElse (hx : op.Field classes x) (hy : op.Field others y)
    (hapart : ∀ c ∈ classes, c ∉ others) : op.Field (classes ++ others) (x <|> y) := by
  constructor
  case about =>
    intro f hf
    rw [findings_orElse] at hf
    rcases List.mem_append.mp hf with hf | hf
    · exact hx.about f hf
    · split at hf
      · cases hf
      · exact hy.about f hf
  case silent =>
    intro hresult
    rw [findings_orElse]
    cases hfirst : x.result with
    | some a =>
      rw [hx.silent (by rw [hfirst]; exact Option.some_ne_none a)]
      rfl
    | none =>
      rw [result_orElse, hfirst, Option.none_or] at hresult
      -- The second succeeds, so the operand is of one of its classes and of none of the first.
      have hclass : op.operandClass ∉ classes := by
        intro hmem
        apply hresult
        rw [hy.only (hapart _ hmem)]
        rfl
      rw [hx.only hclass, hy.silent hresult]
      rfl
  case only =>
    intro hclass
    rw [List.mem_append, not_or] at hclass
    rw [hx.only hclass.1, hy.only hclass.2]
    rfl

/-- What is tried after a field that fails must fail on the operands the field has something to say
about. -/
theorem Field.tame_cases {f : α → Attempt β} {other : Unit → Attempt β}
    (hx : op.Field classes x) (hf : ∀ a, (f a).Tame) (hother : (other ()).Tame)
    (hapart : op.operandClass ∈ classes → (other ()).result = none) : (x.cases f other).Tame := by
  constructor
  case about =>
    intro g hg
    rw [findings_cases] at hg
    rcases List.mem_append.mp hg with hg | hg
    · exact hx.about g hg
    · split at hg
      · exact (hf _).about g hg
      · exact hother.about g hg
  case warns =>
    intro hresult g hg
    rw [result_cases] at hresult
    rw [findings_cases] at hg
    cases hfirst : x.result with
    | some a =>
      rw [hfirst] at hresult hg
      rw [hx.silent (by rw [hfirst]; exact Option.some_ne_none a), List.nil_append] at hg
      exact (hf a).warns hresult g hg
    | none =>
      rw [hfirst] at hresult hg
      have hclass : op.operandClass ∉ classes := fun hmem => hresult (hapart hmem)
      rw [hx.only hclass] at hg
      exact hother.warns hresult g hg

theorem field_of_mismatch (h : x = .mismatch) : op.Field classes x := by
  rw [h]
  constructor
  · simp
  · simp
  · simp

theorem class_of_address? {entry : Space × Int} (h : op.address? = some entry) :
    op.operandClass = .address := by
  unfold address? at h
  unfold operandClass
  split at h <;> simp_all

theorem class_of_constant? {v : Int} (h : op.constant? = some v) :
    op.operandClass = .constant := by
  unfold constant? at h
  unfold operandClass
  split at h <;> simp_all

theorem class_of_register? {n : Nat} (h : op.register? = some n) : op.operandClass = .name := by
  unfold register? at h
  unfold operandClass
  split at h <;> simp_all

theorem class_of_indirectRegister? {n : Nat} (h : op.indirectRegister? = some n) :
    op.operandClass = .indirectName := by
  unfold indirectRegister? at h
  unfold operandClass
  split at h <;> simp_all

/-- What is said about an operand of the class of the field is one error, where there is no
result. -/
theorem field_of_class {c : OperandClass} (hclass : op.operandClass = c)
    (h : (∃ a, x = .done a) ∨ ∃ complaint, complaint.isEncoding = true ∧ x = op.fail complaint) :
    op.Field [c] x := by
  have honly : op.operandClass ∉ [c] → x = .mismatch :=
    fun hnot => absurd (List.mem_singleton.mpr hclass) hnot
  rcases h with ⟨a, rfl⟩ | ⟨complaint, habout, rfl⟩
  · exact ⟨by simp, by simp, honly⟩
  · exact ⟨(tame_fail habout).about, fun hresult => absurd rfl hresult, honly⟩

theorem within_cases (op : Operand) (limit : Int) (complaint : Complaint) (v : Int) :
    op.within limit complaint v = .done v ∨ op.within limit complaint v = op.fail complaint := by
  unfold within
  split
  · exact Or.inl rfl
  · exact Or.inr rfl

/-- A value of the class of the field that has to be within a limit. -/
theorem field_within {c : OperandClass} (hclass : op.operandClass = c) {complaint : Complaint}
    (habout : complaint.isEncoding = true) (limit v : Int) :
    op.Field [c] (op.within limit complaint v) := by
  apply field_of_class hclass
  rcases within_cases op limit complaint v with h | h
  · exact Or.inl ⟨v, h⟩
  · exact Or.inr ⟨complaint, habout, h⟩

theorem field_direct (op : Operand) : op.Field [.address] op.direct := by
  unfold direct
  split
  · next space v haddress =>
    split
    · exact field_of_mismatch rfl
    · exact (field_within (class_of_address? haddress) rfl _ _).return _
  · exact field_of_mismatch rfl

theorem field_bit (op : Operand) : op.Field [.address] op.bit := by
  unfold bit
  split
  · next space v haddress =>
    split
    · exact field_of_mismatch rfl
    · exact (field_within (class_of_address? haddress) rfl _ _).return _
  · exact field_of_mismatch rfl

theorem field_negatedBit (op : Operand) : op.Field [.negatedAddress] op.negatedBit := by
  unfold negatedBit
  split
  · next v hform =>
    have hclass : op.operandClass = .negatedAddress := by rw [operandClass, hform]
    exact (field_within hclass rfl _ _).return _
  · exact field_of_mismatch rfl

theorem field_immediate (op : Operand) : op.Field [.constant] op.immediate := by
  unfold immediate
  split
  · next v hconstant => exact (field_within (class_of_constant? hconstant) rfl _ _).return _
  · exact field_of_mismatch rfl

theorem field_immediateWord (op : Operand) : op.Field [.constant] op.immediateWord := by
  unfold immediateWord
  split
  · next v hconstant => exact (field_within (class_of_constant? hconstant) rfl _ _).return _
  · exact field_of_mismatch rfl

theorem field_register (op : Operand) : op.Field [.name] op.register := by
  unfold register
  split
  · next n hregister =>
    apply field_of_class (class_of_register? hregister)
    split
    · exact Or.inl ⟨_, rfl⟩
    · exact Or.inr ⟨_, rfl, rfl⟩
  · exact field_of_mismatch rfl

theorem field_pointer (op : Operand) : op.Field [.indirectName] op.pointer := by
  unfold pointer
  split
  · next n hregister =>
    apply field_of_class (class_of_indirectRegister? hregister)
    split
    · exact Or.inl ⟨_, rfl⟩
    · exact Or.inr ⟨_, rfl, rfl⟩
  · exact field_of_mismatch rfl

end Operand

/-! ## Soft violations and code addresses -/

theorem Settings.tame_take (settings : Settings) (situation : Situation) {complaint : Complaint}
    (habout : complaint.isEncoding = true) (text : Text) (pos : Position) :
    (settings.take situation complaint text pos).Tame := by
  unfold take
  simp only
  split
  · exact tame_fail habout
  · split
    · constructor
      · intro f hf
        rw [List.mem_singleton.mp hf]
        exact habout
      · intro _ f hf
        rw [List.mem_singleton.mp hf]
        rfl
    · exact tame_done _

namespace Operand

theorem tame_within (op : Operand) (limit : Int) {complaint : Complaint}
    (habout : complaint.isEncoding = true) (v : Int) : (op.within limit complaint v).Tame :=
  (field_within rfl habout limit v).tame

theorem tame_target (settings : Settings) (point : UInt32) (op : Operand) :
    (op.target settings point).Tame := by
  unfold target
  split
  · exact (settings.tame_take _ rfl _ _).bind fun _ =>
      (op.tame_within _ rfl _).bind fun _ => tame_pure _
  · split
    · exact (op.tame_within _ rfl _).bind fun _ => tame_pure _
    · exact tame_mismatch

theorem tame_relative (op : Operand) (next target : UInt32) : (op.relative next target).Tame := by
  unfold relative
  simp only
  split
  · exact tame_done _
  · exact tame_fail rfl

end Operand

/-! ## Families -/

namespace Family

open Operand

theorem tame_omitted (site : Site) (operand : String) : (omitted site operand).Tame :=
  site.settings.tame_take _ rfl _ _

theorem field_location (directOp pointerOp registerOp : UInt8) (src : Operand) :
    src.Field [.address, .indirectName, .name] (location directOp pointerOp registerOp src) :=
  (src.field_direct.return _).orElse
    ((src.field_pointer.return _).orElse (src.field_register.return _) (by decide)) (by decide)

theorem tame_source (immediateOp directOp pointerOp registerOp : UInt8) (src : Operand) :
    (source immediateOp directOp pointerOp registerOp src).Tame :=
  ((src.field_immediate.return _).orElse (field_location _ _ _ src) (by decide)).tame

theorem tame_accumulatorSource (site : Site) (base : UInt8) (ops : List Operand) :
    (accumulatorSource site base ops).Tame := by
  unfold accumulatorSource
  split
  · exact (tame_omitted site _).bind fun _ => tame_source _ _ _ _ _
  · split
    · exact tame_source _ _ _ _ _
    · exact tame_mismatch
  · exact tame_mismatch

theorem tame_encodeLogical (site : Site) (base : UInt8) (carry : Option (UInt8 × UInt8))
    (ops : List Operand) : (encodeLogical site base carry ops).Tame := by
  unfold encodeLogical
  split
  · exact tame_accumulatorSource site base _
  · next dst src =>
    split
    · exact tame_source _ _ _ _ _
    · split
      · split
        · exact tame_mismatch
        · exact ((src.field_negatedBit.return _).orElse (src.field_bit.return _) (by decide)).tame
      · refine dst.field_direct.tame.bind fun _ => ?_
        split
        · exact tame_pure _
        · exact (src.field_immediate.return _).tame
  · exact tame_mismatch

theorem tame_encodeBitwise (accumulator : Option UInt8) (carry bitOp : UInt8)
    (ops : List Operand) : (encodeBitwise accumulator carry bitOp ops).Tame := by
  unfold encodeBitwise
  split
  · next op =>
    split
    · split
      · exact tame_done _
      · exact tame_mismatch
    · split
      · exact tame_done _
      · exact (op.field_bit.return _).tame
  · exact tame_mismatch

theorem tame_encodeCounting (base : UInt8) (dptr : Option UInt8) (ops : List Operand) :
    (encodeCounting base dptr ops).Tame := by
  unfold encodeCounting
  split
  · split
    · exact tame_done _
    · split
      · split
        · exact tame_done _
        · exact tame_mismatch
      · exact (field_location _ _ _ _).tame
  · exact tame_mismatch

theorem tame_encodeImplied (site : Site) (implied : Reserved) (name : String) (opcode : UInt8)
    (ops : List Operand) : (encodeImplied site implied name opcode ops).Tame := by
  unfold encodeImplied
  split
  · exact (tame_omitted site _).bind fun _ => tame_pure _
  · split
    · exact tame_done _
    · exact tame_mismatch

theorem tame_withDistance (site : Site) (code : Code) (op : Operand) :
    (withDistance site code op).Tame :=
  (op.tame_target _ _).bind fun _ => (op.tame_relative _ _).bind fun _ => tame_pure _

theorem tame_encodePageJump (site : Site) (opcode : UInt8) (op : Operand) :
    (encodePageJump site opcode op).Tame := by
  refine (op.tame_target _ _).bind fun _ => ?_
  split
  · exact tame_pure _
  · exact tame_fail rfl

theorem tame_encodeAnyJump (site : Site) (op : Operand) : (encodeAnyJump site op).Tame := by
  unfold encodeAnyJump
  split
  · exact tame_done _
  · refine (op.tame_target _ _).bind fun _ => ?_
    simp only
    split
    · exact tame_pure _
    · split <;> exact tame_pure _

theorem tame_encodeAnyCall (site : Site) (op : Operand) : (encodeAnyCall site op).Tame := by
  refine (op.tame_target _ _).bind fun _ => ?_
  split <;> exact tame_pure _

theorem tame_comparison (left right : Operand) : (comparison left right).Tame := by
  unfold comparison
  split
  · exact ((right.field_immediate.return _).orElse (right.field_direct.return _) (by decide)).tame
  · exact right.field_immediate.tame.bind fun _ =>
      ((left.field_pointer.return _).orElse (left.field_register.return _) (by decide)).tame

theorem tame_counter (op : Operand) : (counter op).Tame :=
  ((op.field_register.return _).orElse (op.field_direct.return _) (by decide)).tame

theorem tame_moveToRegister (accumulatorOp directOp immediateOp : UInt8) (src : Operand) :
    (moveToRegister accumulatorOp directOp immediateOp src).Tame := by
  unfold moveToRegister
  split
  · exact tame_done _
  · exact ((src.field_direct.return _).orElse (src.field_immediate.return _) (by decide)).tame

theorem tame_moveToDirect (address : UInt8) (src : Operand) :
    (moveToDirect address src).Tame := by
  unfold moveToDirect
  split
  · exact tame_done _
  · exact ((src.field_immediate.return _).orElse
      ((src.field_direct.return _).orElse
        ((src.field_pointer.return _).orElse (src.field_register.return _) (by decide))
        (by decide)) (by decide)).tame

/-- The last forms of a move, into a bit or a byte in memory, are not for registers. -/
theorem result_move_memory {dst : Operand} (h : dst.operandClass ≠ .address) (src : Operand) :
    (if src.isReservedAs .c then do return [0x92, ← dst.bit]
      else do moveToDirect (← dst.direct) src : Attempt Code).result = none := by
  have hnot : dst.operandClass ∉ [OperandClass.address] := by
    rw [List.mem_singleton]
    exact h
  split
  · rw [dst.field_bit.only hnot]
    rfl
  · rw [dst.field_direct.only hnot]
    rfl

/-- A register that does not exist is reported before the other destinations are tried, and is none
of them. -/
theorem tame_encodeMove (dst src : Operand) : (encodeMove dst src).Tame := by
  unfold encodeMove
  split
  · exact tame_source _ _ _ _ _
  split
  · exact (src.field_bit.return _).tame
  split
  · exact (src.field_immediateWord.return _).tame
  refine dst.field_register.tame_cases (fun _ => tame_moveToRegister _ _ _ _) ?_ ?_
  · refine dst.field_pointer.tame_cases (fun _ => tame_moveToRegister _ _ _ _) ?_ ?_
    · split
      · exact (dst.field_bit.return _).tame
      · exact dst.field_direct.tame.bind fun _ => tame_moveToDirect _ _
    · intro hclass
      have hpointer := List.mem_singleton.mp hclass
      exact result_move_memory (by rw [hpointer]; decide) src
  · intro hclass
    have hname := List.mem_singleton.mp hclass
    have hnot : dst.operandClass ∉ [OperandClass.indirectName] := by
      rw [hname]
      decide
    rw [result_cases, dst.field_pointer.only hnot]
    exact result_move_memory (by rw [hname]; decide) src

theorem tame_encodeMoveCode (dst src : Operand) : (encodeMoveCode dst src).Tame := by
  unfold encodeMoveCode
  split
  · exact tame_mismatch
  · split
    · exact tame_done _
    · split
      · exact tame_done _
      · exact tame_mismatch

theorem tame_encodeMoveExternal (dst src : Operand) : (encodeMoveExternal dst src).Tame := by
  unfold encodeMoveExternal
  split
  · split
    · exact tame_done _
    · exact (src.field_pointer.return _).tame
  · split
    · exact tame_mismatch
    · split
      · exact tame_done _
      · exact (dst.field_pointer.return _).tame

/-- **Every family is tame**, on every reading of the operands. -/
theorem tame_encode (f : Family) (site : Site) (ops : List Operand) : (f.encode site ops).Tame := by
  cases f <;> simp only [encode]
  case fixed => exact tame_done _
  case arithmetic base => exact tame_accumulatorSource site base ops
  case multiplicative => exact tame_encodeImplied _ _ _ _ _
  case logical base carry => exact tame_encodeLogical site base carry ops
  case bitwise => exact tame_encodeBitwise _ _ _ _
  case counting => exact tame_encodeCounting _ _ _
  case accumulator => exact tame_encodeImplied _ _ _ _ _
  -- The families that are left have one number of operands.
  all_goals
    split
    case h_2 => exact tame_mismatch
  · exact ((field_direct _).return _).tame
  · exact tame_encodePageJump _ _ _
  · exact (tame_target _ _ _).bind fun _ => tame_pure _
  · exact tame_withDistance _ _ _
  · exact tame_encodeAnyJump _ _
  · exact tame_encodeAnyCall _ _
  · exact (field_bit _).tame.bind fun _ => tame_withDistance _ _ _
  · exact (tame_comparison _ _).bind fun _ => tame_withDistance _ _ _
  · exact (tame_counter _).bind fun _ => tame_withDistance _ _ _
  · exact tame_encodeMove _ _
  · exact tame_encodeMoveCode _ _
  · exact tame_encodeMoveExternal _ _
  · split
    · exact (field_location _ _ _ _).tame
    · exact tame_mismatch
  · split
    · exact ((field_pointer _).return _).tame
    · exact tame_mismatch

end Family

/-! ## Instructions -/

namespace Instruction

theorem about_refusal (i : Instruction) (site : Site) (ops : List Operand) :
    ∀ f ∈ i.refusal site ops, f.complaint.isEncoding = true := by
  intro f hf
  unfold refusal at hf
  simp only at hf
  split at hf
  · rw [List.mem_singleton.mp hf]
    rfl
  · obtain ⟨op, _, rfl⟩ := List.mem_map.mp hf
    rfl

/-- The findings of readings that were tried before the one that is taken are left out. -/
theorem tame_encodeReadings (i : Instruction) (site : Site) (ops : List Operand) :
    (i.encodeReadings site ops).Tame := by
  unfold encodeReadings
  split
  · exact i.family.tame_encode site _
  · constructor
    · intro f hf
      simp only at hf
      split at hf
      · exact i.about_refusal site ops f hf
      · exact (i.family.tame_encode site ops).about f hf
    · intro hresult
      exact absurd rfl hresult

theorem tame_encode (i : Instruction) (site : Site) (ops : List Operand) :
    (i.encode site ops).Tame := by
  unfold encode
  split
  · exact tame_fail rfl
  · split
    · exact tame_fail rfl
    · split
      · exact i.tame_encodeReadings site ops
      · exact (site.settings.tame_take _ rfl _ _).bind fun _ => i.tame_encodeReadings site _

end Instruction

theorem Report.count_addFindings (r : Report) (severity : Severity) (findings : List Finding) :
    (r.addFindings findings).count severity
      = r.count severity + findings.countP fun f => f.severity == severity := by
  unfold addFindings count merge
  rw [List.countP_append, List.countP_map]
  rfl

/-- **An encoding that succeeds adds no error to a report.** All that it says is warnings, whatever
was said of the readings that were given up. -/
theorem Instruction.encode_warns (i : Instruction) (site : Site) (ops : List Operand) (code : Code)
    (h : (i.encode site ops).result = some code) :
    (∀ f ∈ (i.encode site ops).findings, f.severity = .warning) ∧
      ∀ report : Report, (report.addFindings (i.encode site ops).findings).count .error
        = report.count .error := by
  have hwarns : ∀ f ∈ (i.encode site ops).findings, f.severity = .warning :=
    (i.tame_encode site ops).warns (by rw [h]; exact Option.some_ne_none code)
  refine ⟨hwarns, fun report => ?_⟩
  have hnone : (i.encode site ops).findings.countP (fun f => f.severity == .error) = 0 := by
    rw [List.countP_eq_zero]
    intro f hf
    rw [hwarns f hf]
    decide
  rw [Report.count_addFindings, hnone, Nat.add_zero]

/-- `sjmp` to an offset, with an operand too many: the standard settings warn of both. -/
theorem Instruction.encode_warns_sjmp :
    let i : Instruction := ⟨"sjmp", 1, 1, .shortJump 0x80⟩
    let site : Site := ⟨Settings.standard, 0x100, ⟨Text.ofString "sjmp", {}, false⟩⟩
    let ops : List Operand :=
      [⟨Text.ofString "+4", {}, .offset 4⟩, Operand.ofName (Text.ofString "a") {}]
    (i.encode site ops).result = some [0x80, 0x02] ∧
      (i.encode site ops).findings.length = 2 ∧
      (∀ f ∈ (i.encode site ops).findings, f.severity = .warning) ∧
      ∀ report : Report, (report.addFindings (i.encode site ops).findings).count .error
        = report.count .error := by
  intro i site ops
  have hcode : (i.encode site ops).result = some [0x80, 0x02] := by decide +kernel
  exact ⟨hcode, by decide +kernel, encode_warns i site ops _ hcode⟩

end Mcs51
