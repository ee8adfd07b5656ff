import Mathlib.Data.List.Basic
import Mcs51.Instruction
import Mcs51.Proofs.Attempts

/-!
# Generic jumps

`jmp` and `call` choose between the jumps and calls of the machine by tests of their own. The choice
is the one that trying the specific instructions from the shortest to the longest would make, at
every address, for every operand that is no pointer, and under all settings.

* `Family.jumpTo?` — the bytes of a jump to a target, where it reaches it
* `Instruction.bytes?_jump` — a jump with one operand is the jump to the target of the operand
* `Instruction.bytes?_generic` — a generic jump is the first specific one that can be encoded
-/

namespace Mcs51

open Operand Attempt

/-! ## Jumps to a target -/

namespace Family

/-- The families of jumps and calls whose only operand is the target. -/
def isPlainJump : Family → Bool
  | .pageJump _ | .longJump _ | .shortJump _ | .anyJump | .anyCall => true
  | _ => false

/-- The bytes of a jump of two bytes to a target near by. -/
def shortTo? (opcode : UInt8) (point target : UInt32) : Option Code :=
  if isShort (distance (point + 2) target) then
    some [opcode, lowByte (distance (point + 2) target)]
  else none

/-- The bytes of a jump to a target in the page of the next instruction. -/
def pageTo? (opcode : UInt8) (point target : UInt32) : Option Code :=
  if samePage point target then some (pageCode opcode target) else none

/-- The bytes of a jump of the family from `point` to a target, if it reaches it. -/
def jumpTo? (point target : UInt32) : Family → Option Code
  | .shortJump opcode => shortTo? opcode point target
  | .pageJump opcode => pageTo? opcode point target
  | .longJump opcode => some (longCode opcode target)
  | .anyJump =>
    (shortTo? 0x80 point target).or ((pageTo? 0x01 point target).or (some (longCode 0x02 target)))
  | .anyCall => (pageTo? 0x11 point target).or (some (longCode 0x12 target))
  | _ => none

section jumpTo

variable {point target : UInt32} {opcode : UInt8}

theorem jumpTo?_shortJump :
    (shortJump opcode).jumpTo? point target = shortTo? opcode point target := rfl

theorem jumpTo?_pageJump :
    (pageJump opcode).jumpTo? point target = pageTo? opcode point target := rfl

theorem jumpTo?_longJump :
    (longJump opcode).jumpTo? point target = some (longCode opcode target) := rfl

theorem jumpTo?_anyJump : anyJump.jumpTo? point target
    = (shortTo? 0x80 point target).or
        ((pageTo? 0x01 point target).or (some (longCode 0x02 target))) := rfl

theorem jumpTo?_anyCall : anyCall.jumpTo? point target
    = (pageTo? 0x11 point target).or (some (longCode 0x12 target)) := rfl

end jumpTo

/-- The number of bytes of a specific jump: a full address takes one more. -/
def jumpLength : Family → Nat
  | .longJump _ => 3
  | _ => 2

/-- The jump is one of the machine, and not a choice between them. -/
def isSpecificJump : Family → Bool
  | .pageJump _ | .longJump _ | .shortJump _ => true
  | _ => false

theorem isPlainJump_of_isSpecificJump {f : Family} (h : f.isSpecificJump = true) :
    f.isPlainJump = true := by
  cases f <;> first | rfl | cases h

theorem length_jumpTo? {f : Family} (hf : f.isSpecificJump = true) {point target : UInt32}
    {code : Code} (h : f.jumpTo? point target = some code) : code.length = f.jumpLength := by
  cases f with
  | longJump opcode =>
    cases h
    rfl
  | pageJump opcode =>
    obtain ⟨_, ⟨⟩⟩ := Option.ite_none_right_eq_some.mp h
    rfl
  | shortJump opcode =>
    obtain ⟨_, ⟨⟩⟩ := Option.ite_none_right_eq_some.mp h
    rfl
  | _ => cases hf

theorem result_shortJump (site : Site) (opcode : UInt8) (op : Operand) :
    (withDistance site [opcode] op).result
      = (op.target site.settings site.point).result.bind (shortTo? opcode site.point) := by
  have hnext : site.point + (([opcode] : Code).length + 1).toUInt32 = site.point + 2 := rfl
  unfold withDistance
  rw [result_bind, hnext]
  congr 1
  funext target
  rw [result_bind, relative, shortTo?]
  split <;> rfl

theorem result_pageJump (site : Site) (opcode : UInt8) (op : Operand) :
    (encodePageJump site opcode op).result
      = (op.target site.settings site.point).result.bind (pageTo? opcode site.point) := by
  unfold encodePageJump
  rw [result_bind]
  congr 1
  funext target
  rw [pageTo?]
  split <;> rfl

theorem result_anyJump (site : Site) {op : Operand} (hop : op.pointsTo .aDptr = false) :
    (encodeAnyJump site op).result
      = (op.target site.settings site.point).result.bind fun target =>
          anyJump.jumpTo? site.point target := by
  unfold encodeAnyJump
  rw [hop, if_neg Bool.false_ne_true, result_bind]
  congr 1
  funext target
  simp only [jumpTo?_anyJump, shortTo?, pageTo?]
  by_cases hshort : isShort (distance (site.point + 2) target) = true
  · simp only [hshort, if_true]
    rfl
  · by_cases hpage : samePage site.point target = true
    · simp only [hshort, hpage, if_true, Bool.false_eq_true, if_false]
      rfl
    · simp only [hshort, hpage, Bool.false_eq_true, if_false]
      rfl

theorem result_anyCall (site : Site) (op : Operand) :
    (encodeAnyCall site op).result
      = (op.target site.settings site.point).result.bind fun target =>
          anyCall.jumpTo? site.point target := by
  unfold encodeAnyCall
  rw [result_bind]
  congr 1
  funext target
  simp only [jumpTo?_anyCall, pageTo?]
  split <;> rfl

/-- **A jump goes to the target of its operand**, if there is one in its reach. -/
theorem result_encode_jump {f : Family} (hf : f.isPlainJump = true) (site : Site) {op : Operand}
    (hop : op.pointsTo .aDptr = false) :
    (f.encode site [op]).result
      = (op.target site.settings site.point).result.bind fun target =>
          f.jumpTo? site.point target := by
  cases f with
  | pageJump opcode => exact result_pageJump site opcode op
  | longJump opcode => exact result_bind _ _
  | shortJump opcode => exact result_shortJump site opcode op
  | anyJump => exact result_anyJump site hop
  | anyCall => exact result_anyCall site op
  | _ => cases hf

end Family

/-! ## Instructions with one operand -/

namespace Instruction

/-- The bytes are those of the first reading that has any. -/
theorem result_firstReading (i : Instruction) (site : Site) (ops : List Operand) :
    (i.encodeReadings site ops).result
      = (readings site.settings ops).findSome? fun reading =>
          (i.family.encode site reading).result := by
  unfold encodeReadings
  split
  · next reading hfind =>
    obtain ⟨hsucceeds, before, after, hreadings, hbefore⟩ := List.find?_eq_some_iff_append.mp hfind
    obtain ⟨code, hcode⟩ := Option.isSome_iff_exists.mp hsucceeds
    rw [hreadings, List.findSome?_append, hcode, List.findSome?_cons, hcode]
    have hnone : (before.findSome? fun r => (i.family.encode site r).result) = none := by
      rw [List.findSome?_eq_none_iff]
      intro r hr
      simpa [Attempt.succeeds] using hbefore r hr
    rw [hnone]
    rfl
  · next hfind =>
    symm
    rw [List.findSome?_eq_none_iff]
    intro r hr
    simpa [Attempt.succeeds] using List.find?_eq_none.mp hfind r hr

/-- An operand with a second reading is no target in either, and points nowhere. -/
theorem target_of_second {settings : Settings} {op other : Operand}
    (h : second settings op = .direct other) (point : UInt32) :
    ((op.target settings point).result = none ∧ op.pointsTo .aDptr = false) ∧
      (other.target settings point).result = none ∧ other.pointsTo .aDptr = false := by
  unfold second at h
  split at h
  · next hform =>
    cases h
    simp [target, address?, pointsTo, hform, withAddress]
  · next hform =>
    cases h
    simp [target, address?, pointsTo, hform, withAddress]
  · next n hform =>
    split at h
    · split at h
      · cases h
        simp [target, address?, pointsTo, hform, withAddress]
      · cases h
    · cases h
  · cases h

theorem result_readings_jump {i : Instruction} (hf : i.family.isPlainJump = true)
    (site : Site) {op : Operand} (hop : op.pointsTo .aDptr = false) :
    (i.encodeReadings site [op]).result
      = (op.target site.settings site.point).result.bind fun target =>
          i.family.jumpTo? site.point target := by
  rw [result_firstReading]
  unfold readings
  split
  · next other hsecond =>
    obtain ⟨⟨hnone, _⟩, hnone', hother⟩ := target_of_second hsecond site.point
    simp [readings, Family.result_encode_jump hf site hop,
      Family.result_encode_jump hf site hother, hnone, hnone']
  · simp only [readings, List.map_cons, List.map_nil, List.findSome?_cons, List.findSome?_nil,
      Family.result_encode_jump hf site hop]
    split
    · next code hcode => exact hcode.symm
    · next hcode => exact hcode.symm

/-- The bytes of the instruction of a name with one operand. -/
def bytes? (name : String) (settings : Settings) (point : UInt32) (pos : Position) (op : Operand) :
    Option Code :=
  (find? (Text.ofString name)).bind fun i =>
    (i.encode ⟨settings, point, { name := Text.ofString name, position := pos }⟩ [op]).result

/-- The code address that the operand of a jump stands for. -/
def aim? (settings : Settings) (point : UInt32) (op : Operand) : Option UInt32 :=
  if op.isResolved then (op.target settings point).result else none

variable {settings : Settings} {point : UInt32} {pos : Position} {op : Operand}

/-- **A jump with one operand is the jump of its family to the address of the operand.** -/
theorem bytes?_jump {name : String} {f : Family}
    (hfind : find? (Text.ofString name) = some ⟨name, 1, 1, f⟩) (hf : f.isPlainJump = true)
    (hop : op.pointsTo .aDptr = false) :
    bytes? name settings point pos op
      = (aim? settings point op).bind fun target => f.jumpTo? point target := by
  unfold bytes? aim?
  rw [hfind, Option.bind_some]
  unfold encode
  cases hresolved : op.isResolved with
  | false => simp [hresolved, Operand.fail]
  | true =>
    simp only [List.find?_cons, hresolved, Bool.not_true, List.find?_nil]
    exact result_readings_jump (i := ⟨name, 1, 1, f⟩) hf _ hop

/-- With the operand, the generic instruction is the first of the specific ones that can be encoded:
it fails where the last of them does, and it is not longer than any that can be encoded. -/
structure Best (generic : String) (specific : List String) (settings : Settings) (point : UInt32)
    (pos : Position) (op : Operand) : Prop where
  first : bytes? generic settings point pos op
    = specific.findSome? fun name => bytes? name settings point pos op
  fails : ∀ last ∈ specific.getLast?, (bytes? generic settings point pos op = none ↔
    bytes? last settings point pos op = none)
  shortest : ∀ name ∈ specific, ∀ code, bytes? name settings point pos op = some code →
    ∃ best, bytes? generic settings point pos op = some best ∧ best.length ≤ code.length

/-- The first of attempts that get longer, the last of which succeeds, is the shortest. -/
theorem Best.of_sorted {generic : String} {specific : List String}
    (hfirst : bytes? generic settings point pos op
      = specific.findSome? fun name => bytes? name settings point pos op)
    (hlast : ∀ last ∈ specific.getLast?, ∀ name ∈ specific,
      bytes? name settings point pos op ≠ none → bytes? last settings point pos op ≠ none)
    (hsorted : specific.Pairwise fun name later => ∀ code longer,
      bytes? name settings point pos op = some code →
        bytes? later settings point pos op = some longer → code.length ≤ longer.length) :
    Best generic specific settings point pos op := by
  refine ⟨hfirst, ?_, ?_⟩
  · intro last hmem
    rw [hfirst, List.findSome?_eq_none_iff]
    constructor
    · exact fun hall => hall last (List.mem_of_getLast? hmem)
    · intro hnone name hname
      exact Decidable.byContradiction fun hsome => hlast last hmem name hname hsome hnone
  · intro name hname code hcode
    rw [hfirst]
    clear hfirst hlast
    induction specific with
    | nil => cases hname
    | cons head rest ih =>
      obtain ⟨hhead, hrest⟩ := List.pairwise_cons.mp hsorted
      rw [List.findSome?_cons]
      rcases List.mem_cons.mp hname with rfl | hname
      · rw [hcode]
        exact ⟨code, rfl, Nat.le_refl _⟩
      · cases hbytes : bytes? head settings point pos op with
        | some best => exact ⟨best, rfl, hhead name hname best code hbytes hcode⟩
        | none => exact ih hrest hname

/-- What holds of the jumps to every target holds of the instructions with the operand, whatever its
target is and whether it has one. -/
theorem Best.of_jumps {generic : String} {g : Family} (specific : List (String × Family))
    (hop : op.pointsTo .aDptr = false)
    (hgeneric : find? (Text.ofString generic) = some ⟨generic, 1, 1, g⟩)
    (hplain : g.isPlainJump = true)
    (hspecific : ∀ e ∈ specific, find? (Text.ofString e.1) = some ⟨e.1, 1, 1, e.2⟩ ∧
      e.2.isSpecificJump = true)
    (hfirst : ∀ target, g.jumpTo? point target
      = specific.findSome? fun e => e.2.jumpTo? point target)
    (hlast : ∀ last ∈ specific.getLast?, ∀ target, last.2.jumpTo? point target ≠ none)
    (hsorted : specific.Pairwise fun e later => e.2.jumpLength ≤ later.2.jumpLength) :
    Best generic (specific.map Prod.fst) settings point pos op := by
  have hbytes : ∀ e ∈ specific, bytes? e.1 settings point pos op
      = (aim? settings point op).bind fun target => e.2.jumpTo? point target :=
    fun e he => bytes?_jump (hspecific e he).1 (Family.isPlainJump_of_isSpecificJump
      (hspecific e he).2) hop
  apply Best.of_sorted
  · rw [bytes?_jump hgeneric hplain hop, List.findSome?_map]
    cases haim : aim? settings point op with
    | none =>
      symm
      rw [Option.bind_none, List.findSome?_eq_none_iff]
      intro e he
      rw [Function.comp_apply, hbytes e he, haim, Option.bind_none]
    | some target =>
      rw [Option.bind_some, hfirst, ← List.head?_filterMap, ← List.head?_filterMap]
      congr 1
      apply List.filterMap_congr
      intro e he
      rw [Function.comp_apply, hbytes e he, haim, Option.bind_some]
  · intro last hmem name hname hsome
    rw [List.getLast?_map] at hmem
    obtain ⟨e, he, rfl⟩ := Option.map_eq_some_iff.mp hmem
    obtain ⟨d, hd, rfl⟩ := List.mem_map.mp hname
    rw [hbytes d hd] at hsome
    rw [hbytes e (List.mem_of_getLast? he)]
    cases haim : aim? settings point op with
    | none => exact absurd (by rw [haim]; rfl) hsome
    | some target => exact hlast e he target
  · rw [List.pairwise_map]
    refine hsorted.imp_of_mem ?_
    intro d e hd he hle code longer hcode hlonger
    rw [hbytes d hd] at hcode
    rw [hbytes e he] at hlonger
    cases haim : aim? settings point op with
    | none => rw [haim] at hcode; cases hcode
    | some target =>
      rw [haim] at hcode hlonger
      rw [Family.length_jumpTo? (hspecific d hd).2 hcode,
        Family.length_jumpTo? (hspecific e he).2 hlonger]
      exact hle

/-- **Generic jumps are the best specific ones.** `jmp` is `sjmp` where that can be encoded, else
`ajmp`, else `ljmp`, and `call` is `acall` where that can be encoded, else `lcall`. -/
theorem bytes?_generic (settings : Settings) (point : UInt32) (pos : Position) (op : Operand)
    (hop : op.pointsTo .aDptr = false) :
    Best "jmp" ["sjmp", "ajmp", "ljmp"] settings point pos op ∧
      Best "call" ["acall", "lcall"] settings point pos op := by
  constructor
  · refine Best.of_jumps (g := .anyJump) [("sjmp", .shortJump 0x80), ("ajmp", .pageJump 0x01),
      ("ljmp", .longJump 0x02)] hop rfl rfl (by decide) ?_ ?_ (by decide)
    · intro target
      simp only [Family.jumpTo?_anyJump, Family.jumpTo?_shortJump, Family.jumpTo?_pageJump,
        Family.jumpTo?_longJump, List.findSome?_cons]
      cases Family.shortTo? 0x80 point target <;> cases Family.pageTo? 0x01 point target <;> rfl
    · simp [Family.jumpTo?_longJump]
  · refine Best.of_jumps (g := .anyCall) [("acall", .pageJump 0x11), ("lcall", .longJump 0x12)] hop
      rfl rfl (by decide) ?_ ?_ (by decide)
    · intro target
      simp only [Family.jumpTo?_anyCall, Family.jumpTo?_pageJump, Family.jumpTo?_longJump,
        List.findSome?_cons]
      cases Family.pageTo? 0x11 point target <;> rfl
    · simp [Family.jumpTo?_longJump]

/-- A jump over a page boundary: the target is too far for `sjmp`, and in the page of the next
instruction, though not in that of the jump. -/
theorem bytes?_generic_pageStart :
    let op : Operand := ⟨Text.ofString "0xfff", {}, .address .any 0xfff⟩
    op.pointsTo .aDptr = false ∧
      bytes? "sjmp" Settings.standard 0x7fe {} op = none ∧
      bytes? "jmp" Settings.standard 0x7fe {} op = some [0xe1, 0xff] ∧
      Best "jmp" ["sjmp", "ajmp", "ljmp"] Settings.standard 0x7fe {} op ∧
      Best "call" ["acall", "lcall"] Settings.standard 0x7fe {} op := by
  intro op
  have hop : op.pointsTo .aDptr = false := by decide
  exact ⟨hop, by decide +kernel, by decide +kernel,
    bytes?_generic Settings.standard 0x7fe {} op hop⟩

end Instruction

end Mcs51
