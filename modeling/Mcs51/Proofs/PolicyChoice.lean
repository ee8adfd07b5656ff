import Mcs51.Proofs.RelevantSettings
import Mcs51.Proofs.SettledLayout

/-!
# Warnings do not change the program

A soft violation is an error, or it is not. Whether one that is no error is warned of or passed over
is a matter of the report alone, although the policy is asked inside the trials that choose between
readings of operands, and so could decide the length of an instruction and every address after it.

* `Instruction.result_encode`: policies with the same errors give an instruction the same bytes.
* `CodeUnit.unreported` is what is left of a unit without its findings. A pass under one policy and
  a pass under the other keep it the same (`Layout.unreported_passWith`), so all passes do
  (`Layout.passes_policy`).
* `assemble_policy`: the error or the program is the same under both policies.
-/

namespace Mcs51

/-- The policies make errors of the same situations. -/
def Policy.SameErrors (p q : Policy) : Prop :=
  ∀ situation, p situation = .error ↔ q situation = .error

/-! ## Instructions -/

section Encoding

variable {settings : Settings} {policy : Policy} (h : settings.policy.SameErrors policy)

include h

/-- A violation is passed or not, whatever is said about it. -/
theorem Settings.result_take (situation : Situation) (complaint : Complaint) (text : Text)
    (pos : Position) :
    (settings.take situation complaint text pos).result
      = (({ settings with policy } : Settings).take situation complaint text pos).result := by
  have hpassed : ∀ s : Settings, (s.take situation complaint text pos).result
      = if s.policy situation = .error then none else some () := by
    intro s
    unfold Settings.take
    by_cases herror : s.policy situation = .error
    · simp only [herror, if_true]
      rfl
    · simp only [herror, if_false]
      split <;> rfl
  rw [hpassed, hpassed]
  simp only [h situation]

theorem Operand.result_target (point : UInt32) (op : Operand) :
    (op.target settings point).result
      = (op.target { settings with policy } point).result := by
  unfold target
  split
  · exact Attempt.result_bind_congr (Settings.result_take h _ _ _ _) _
  · rfl

namespace Family

variable (point : UInt32) (name : Mnemonic)

theorem result_omitted (operand : String) :
    (omitted ⟨settings, point, name⟩ operand).result
      = (omitted ⟨{ settings with policy }, point, name⟩ operand).result :=
  Settings.result_take h _ _ _ _

theorem result_accumulatorSource (base : UInt8) (ops : List Operand) :
    (accumulatorSource ⟨settings, point, name⟩ base ops).result
      = (accumulatorSource ⟨{ settings with policy }, point, name⟩ base ops).result := by
  unfold accumulatorSource
  split
  · exact Attempt.result_bind_congr (result_omitted h point name _) _
  · rfl
  · rfl

theorem result_encodeLogical (base : UInt8) (carry : Option (UInt8 × UInt8)) (ops : List Operand) :
    (encodeLogical ⟨settings, point, name⟩ base carry ops).result
      = (encodeLogical ⟨{ settings with policy }, point, name⟩ base carry ops).result := by
  unfold encodeLogical
  split
  · exact result_accumulatorSource h point name base _
  · rfl
  · rfl

theorem result_encodeImplied (implied : Reserved) (word : String) (opcode : UInt8)
    (ops : List Operand) :
    (encodeImplied ⟨settings, point, name⟩ implied word opcode ops).result
      = (encodeImplied ⟨{ settings with policy }, point, name⟩ implied word opcode ops).result := by
  unfold encodeImplied
  split
  · exact Attempt.result_bind_congr (result_omitted h point name _) _
  · rfl

theorem result_withDistance (code : Code) (op : Operand) :
    (withDistance ⟨settings, point, name⟩ code op).result
      = (withDistance ⟨{ settings with policy }, point, name⟩ code op).result :=
  Attempt.result_bind_congr (Operand.result_target h point op) _

theorem result_encodeAnyJump (op : Operand) :
    (encodeAnyJump ⟨settings, point, name⟩ op).result
      = (encodeAnyJump ⟨{ settings with policy }, point, name⟩ op).result := by
  unfold encodeAnyJump
  split
  · rfl
  · exact Attempt.result_bind_congr (Operand.result_target h point op) _

/-- **Policies with the same errors give a reading of the operands the same bytes.** -/
theorem result_encode (f : Family) (ops : List Operand) :
    (f.encode ⟨settings, point, name⟩ ops).result
      = (f.encode ⟨{ settings with policy }, point, name⟩ ops).result := by
  cases f with
  | arithmetic base => exact result_accumulatorSource h point name base ops
  | logical base carry => exact result_encodeLogical h point name base carry ops
  | multiplicative opcode => exact result_encodeImplied h point name .ab "ab" opcode ops
  | accumulator opcode => exact result_encodeImplied h point name .a "a" opcode ops
  | pageJump opcode | longJump opcode | anyCall =>
    simp only [encode]
    split
    · exact Attempt.result_bind_congr (Operand.result_target h point _) _
    · rfl
  | anyJump =>
    simp only [encode]
    split
    · exact result_encodeAnyJump h point name _
    · rfl
  | shortJump opcode =>
    simp only [encode]
    split
    · exact result_withDistance h point name _ _
    · rfl
  -- In these jumps other operands are read before the target.
  | bitJump opcode | compareJump | countJump =>
    simp only [encode]
    split
    · simp only [Attempt.result_bind, result_withDistance h point name]
    · rfl
  | _ => rfl

end Family

namespace Instruction

theorem result_encodeReadings (i : Instruction) (point : UInt32) (name : Mnemonic)
    (ops : List Operand) :
    (i.encodeReadings ⟨settings, point, name⟩ ops).result
      = (i.encodeReadings ⟨{ settings with policy }, point, name⟩ ops).result := by
  -- The same reading is the first that encodes, as success is a matter of the result.
  have hsucceeds : ∀ reading, (i.family.encode ⟨settings, point, name⟩ reading).succeeds
      = (i.family.encode ⟨{ settings with policy }, point, name⟩ reading).succeeds := by
    intro reading
    rw [Attempt.succeeds, Attempt.succeeds, Family.result_encode h]
  have hreadings : readings { settings with policy } ops = readings settings ops := by
    apply readings_of_bank
    rfl
  unfold encodeReadings
  simp only [hreadings, hsucceeds]
  split
  · exact Family.result_encode h point name i.family _
  · rfl

/-- **Policies with the same errors give an instruction the same bytes.** -/
theorem result_encode (i : Instruction) (point : UInt32) (name : Mnemonic) (ops : List Operand) :
    (i.encode ⟨settings, point, name⟩ ops).result
      = (i.encode ⟨{ settings with policy }, point, name⟩ ops).result := by
  unfold encode
  split
  · rfl
  · split
    · rfl
    · split
      · exact result_encodeReadings h i point name ops
      · simp only [Attempt.result_bind, Settings.result_take h, result_encodeReadings h]

end Instruction
end Encoding

/-! ## Units -/

namespace CodeUnit

/-- The unit without what compiling it found. -/
def unreported (u : CodeUnit) : CodeUnit := { u with findings? := u.findings?.map fun _ => [] }

theorem isStatic_unreported (u : CodeUnit) : u.unreported.isStatic = u.isStatic := by
  simp [isStatic, unreported]

theorem resolve_unreported (value? : Text → Option UInt32) (u : CodeUnit) :
    (u.resolve value?).unreported = u.unreported.resolve value? := by
  rw [resolve_eq, resolve_eq]
  rfl

/-- Compiling does not look at what was found before. -/
theorem recompile_unreported (settings : Settings) (u : CodeUnit) :
    u.unreported.recompile settings = u.recompile settings := by
  have hcontent : u.unreported.content = u.content := rfl
  simp only [recompile, hcontent]
  split
  · split <;> rfl
  · split <;> rfl

/-- Compiling under policies with the same errors differs in the findings at most. -/
theorem unreported_recompile {settings : Settings} {policy : Policy}
    (h : settings.policy.SameErrors policy) (u : CodeUnit) :
    (u.recompile settings).unreported
      = (u.recompile { settings with policy }).unreported := by
  cases hc : u.content with
  | data d => simp only [recompile, hc]
  | instruction name ops =>
    cases hi : instruction? name with
    | none => simp only [recompile, hc, hi]
    | some i =>
      rw [recompile_known hc hi, recompile_known hc hi, i.result_encode h]
      rfl

theorem unreported_compile {settings : Settings} {policy : Policy}
    (h : settings.policy.SameErrors policy) (u : CodeUnit) :
    (u.compile settings).unreported
      = (u.unreported.compile { settings with policy }).unreported := by
  unfold compile
  rw [isStatic_unreported]
  split
  · simp [unreported, Function.comp_def]
  · rw [recompile_unreported, unreported_recompile h]

end CodeUnit

/-! ## Passes -/

namespace Layout

open CodeUnit (unreported)

theorem placeFrom_unreported : ∀ (units : List CodeUnit) (segment? : Option Nat) (point : UInt32),
    (placeFrom segment? point units).map unreported
      = placeFrom segment? point (units.map unreported)
  | [], _, _ => rfl
  | u :: units, segment?, point => by
    have ih := placeFrom_unreported units (some u.segment)
      ((if segment? = some u.segment then point else u.origin) + toWord u.size)
    simp only [placeFrom, List.map_cons, ih]
    rfl

theorem labels_unreported (units : List CodeUnit) :
    labels (units.map unreported) = labels units := by
  rw [labels, List.flatMap_map]
  rfl

theorem changes_unreported : ∀ (before after : List CodeUnit),
    changes (before.map unreported) (after.map unreported) = changes before after
  | [], _ => by simp [changes]
  | _ :: _, [] => by simp [changes]
  | u :: before, v :: after => by
    have ih := changes_unreported before after
    simp only [changes, List.map_cons, List.zip_cons_cons, List.countP_cons] at ih ⊢
    rw [ih]
    rfl

section Passes

variable {settings : Settings} {policy : Policy} (h : settings.policy.SameErrors policy)

include h

/-- A pass does not look at findings, and leaves the same under policies with the same errors. -/
theorem unreported_passWith (units : List CodeUnit) :
    (passWith (CodeUnit.compile settings) units).map unreported
      = (passWith (CodeUnit.compile { settings with policy }) (units.map unreported)).map
          unreported := by
  have hplaced : place (units.map unreported) = (place units).map unreported :=
    (placeFrom_unreported units none 0).symm
  simp only [passWith, resolve, hplaced, labels_unreported, List.map_map]
  apply List.map_congr_left
  intro u _
  simp only [Function.comp_apply]
  rw [CodeUnit.unreported_compile h, CodeUnit.resolve_unreported]

/-- Units that differ in findings only do so after a pass, each under its own policy. -/
theorem passWith_policy {us vs : List CodeUnit} (hsame : us.map unreported = vs.map unreported) :
    (passWith (CodeUnit.compile settings) us).map unreported
      = (passWith (CodeUnit.compile { settings with policy }) vs).map unreported := by
  have hrefl : Policy.SameErrors ({ settings with policy } : Settings).policy policy :=
    fun _ => Iff.rfl
  rw [unreported_passWith h us, hsame]
  exact (unreported_passWith hrefl vs).symm

/-- **Passes under policies with the same errors change the same units and settle alike.** -/
theorem passes_policy : ∀ (limit : Nat) {us vs : List CodeUnit},
    us.map unreported = vs.map unreported →
      (passes (CodeUnit.compile settings) limit us).settled?.map (List.map unreported)
        = (passes (CodeUnit.compile { settings with policy }) limit vs).settled?.map
            (List.map unreported)
  | 0, _, _, _ => rfl
  | limit + 1, us, vs, hsame => by
    have hnext := passWith_policy h hsame
    have hchanges : changes us (passWith (CodeUnit.compile settings) us)
        = changes vs (passWith (CodeUnit.compile { settings with policy }) vs) := by
      rw [← changes_unreported us, ← changes_unreported vs, hsame, hnext]
    have ih := passes_policy limit hnext
    simp only [passes, hchanges]
    split
    · rw [Option.map_some, Option.map_some, hnext]
    · exact ih

end Passes
end Layout

/-! ## Programs -/

namespace Program

/-- The program without what compiling its units found: the address, the size and the code of each
unit, its source and its labels, in the order of addresses, and the addresses of all labels. -/
def unreported (p : Program) : Program := { p with units := p.units.map CodeUnit.unreported }

theorem unreported_ofUnits (units : List CodeUnit) :
    (ofUnits units).unreported = ofUnits (units.map CodeUnit.unreported) := by
  have hsorted : (units.mergeSort fun u v => decide (u.point ≤ v.point)).map CodeUnit.unreported
      = (units.map CodeUnit.unreported).mergeSort fun u v => decide (u.point ≤ v.point) :=
    List.map_mergeSort fun _ _ _ _ => rfl
  simp only [unreported, ofUnits, hsorted, Layout.labels_unreported]

end Program

/-- **Warnings do not change the program.** Of two policies that make errors of the same
situations, both lead to the same failure, or to programs that differ in nothing but the findings of
their units. -/
theorem assemble_policy (settings : Settings) (policy : Policy)
    (h : ∀ situation, settings.policy situation = .error ↔ policy situation = .error)
    (tokens : List Token) (report report' : Report) :
    (Assembly.assemble settings tokens report).program.map Program.unreported
      = (Assembly.assemble { settings with policy } tokens report').program.map
          Program.unreported := by
  have hsettled : (Layout.run settings (segment tokens).units).settled?.map
        (List.map CodeUnit.unreported)
      = (Layout.run { settings with policy } (segment tokens).units).settled?.map
        (List.map CodeUnit.unreported) :=
    @Layout.passes_policy settings policy h ((Layout.limit settings).toNat + 1)
      (segment tokens).units _ rfl
  cases hus : (Layout.run settings (segment tokens).units).settled? with
  | none =>
    rw [hus, Option.map_none] at hsettled
    have hvs := Option.map_eq_none_iff.mp hsettled.symm
    rw [(Assembly.assemble_of_unsettled hus report).1,
      (Assembly.assemble_of_unsettled hvs report').1]
    rfl
  | some us =>
    rw [hus, Option.map_some] at hsettled
    obtain ⟨vs, hvs, hsame⟩ := Option.map_eq_some_iff.mp hsettled.symm
    rw [Assembly.program_of_settled hus, Assembly.program_of_settled hvs]
    simp only [Except.map, Program.unreported_ofUnits, hsame]

/-- An omitted operand, a trailing one, and offsets as jump targets. -/
def lenient : List Text :=
  [Text.ofString "loop: add r1", Text.ofString "rl", Text.ofString "mov a, #1, r2",
    Text.ofString "jmp -4", Text.ofString "cjne r3, #5, +200", Text.ofString "call loop"]

/-- What one policy warns of the other passes over, so the units do differ in their findings. -/
theorem assemble_policy_lenient :
    let loud : Settings := { policy := fun _ => .warn }
    let quiet : Policy := fun _ => .ignore
    let tokens := (readSource [] lenient).reading.tokens
    (∀ situation, loud.policy situation = .error ↔ quiet situation = .error) ∧
      (Layout.run loud (segment tokens).units).settled?
        ≠ (Layout.run { loud with policy := quiet } (segment tokens).units).settled? ∧
      (Assembly.assemble loud tokens {}).program.isOk = true ∧
      (Assembly.assemble loud tokens {}).program.map Program.unreported
        = (Assembly.assemble { loud with policy := quiet } tokens {}).program.map
            Program.unreported := by
  have hwarn : Setting.warn ≠ .error := by decide
  have hignore : Setting.ignore ≠ .error := by decide
  have hsame : ∀ situation : Situation,
      (fun _ => Setting.warn : Policy) situation = .error
        ↔ (fun _ => Setting.ignore : Policy) situation = .error :=
    fun _ => iff_of_false hwarn hignore
  exact ⟨hsame, by decide +kernel, by decide +kernel, assemble_policy _ _ hsame _ {} {}⟩

end Mcs51
