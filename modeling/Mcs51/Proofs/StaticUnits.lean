import Mcs51.Proofs.SettledLayout

/-!
# Static units need not be compiled again

A unit that is static is skipped in every pass after its first compilation. That this does not show
is a matter of what an encoding can read: the address of the instruction, which only a position
sensitive one looks at, and the values of symbols, which only an operand that refers to one has.

* `Reached.passWith_recompile`: over units that passes have reached, a pass that skips static units
  and a pass that compiles all of them give the same units.
* `passes_congr`: what one pass cannot tell apart, no number of passes can.
* `assemble_eq_recompiling`: assembling with and without skipping is the same, in all that it gives.
-/

namespace Mcs51

namespace Layout

variable {settings : Settings} {start units : List CodeUnit}

/-- What is placed and resolved in a pass is honest if the units before the pass are. -/
theorem Reached.honest_resolve_place (h : Reached settings start units) :
    ∀ u ∈ resolve (place units), u.Honest settings := by
  intro u hu
  obtain ⟨placed, hplaced, rfl⟩ := List.mem_map.mp hu
  obtain ⟨v, hv, here, rfl⟩ := mem_placeFrom hplaced
  exact ((h.honest v hv).placeAt here).resolve _

/-- **A pass that compiles every unit does what a pass that skips static units does.** -/
theorem Reached.passWith_recompile (h : Reached settings start units) :
    passWith (CodeUnit.recompile settings) units = passWith (CodeUnit.compile settings) units := by
  unfold passWith
  apply List.map_congr_left
  intro u hu
  exact (h.honest_resolve_place u hu).compile_eq.symm

/-- Two ways of compiling that agree in every pass give the same run. -/
theorem passes_congr {f g : CodeUnit → CodeUnit} (Keeps : List CodeUnit → Prop)
    (step : ∀ us, Keeps us → Keeps (passWith f us))
    (agree : ∀ us, Keeps us → passWith g us = passWith f us) :
    ∀ (limit : Nat) (us : List CodeUnit), Keeps us → passes g limit us = passes f limit us
  | 0, _, _ => rfl
  | limit + 1, us, hus => by
    have ih := passes_congr Keeps step agree limit (passWith f us) (step us hus)
    simp only [passes, agree us hus, ih]

/-- **Laying out with and without skipping static units is the same**, pass by pass. -/
theorem runRecompiling_eq_run (hstart : SourceOrder start) :
    runRecompiling settings start = run settings start :=
  passes_congr (Reached settings start) (fun _ h => h.pass) (fun _ h => h.passWith_recompile) _
    start (Reached.refl hstart.initial)

end Layout

/-- **Skipping static units is unobservable.** The error or the program, with its units and labels,
the report and the changes of each pass are those of an assembly that compiles every unit in every
pass. In particular an instruction that is not position sensitive has the same bytes and findings at
every address. -/
theorem assemble_eq_recompiling (settings : Settings) (path : Text) (lines : List Text)
    (report : Report) :
    Assembly.assemble settings (readSource path lines).reading.tokens report
        = Assembly.assembleWith (Layout.runRecompiling settings) (Layout.limit settings)
            (readSource path lines).reading.tokens report ∧
      ∀ i ∈ Instruction.all, i.isPositionSensitive = false →
        ∀ (p q : UInt32) (name : Mnemonic) (ops : List Operand),
          i.encode ⟨settings, p, name⟩ ops = i.encode ⟨settings, q, name⟩ ops := by
  constructor
  · have hstart := sourceOrder_segment (fresh_readSource path lines)
    simp only [Assembly.assemble, Assembly.assembleWith, Layout.runRecompiling_eq_run hstart]
  · intro i _ hfixed p q name ops
    exact Instruction.encode_at hfixed settings p q name ops

/-- The jumps across reserved space are laid out in several passes, and `mov` is not position
sensitive. -/
theorem assemble_eq_recompiling_jumpsAcross :
    let i : Instruction := ⟨"mov", 2, 2, .move⟩
    let ops := [Operand.ofName (Text.ofString "a") {}, ⟨Text.ofString "#7", {}, .constant 7⟩]
    Assembly.assemble {} (readSource [] jumpsAcross).reading.tokens {}
        = Assembly.assembleWith (Layout.runRecompiling {}) (Layout.limit {})
            (readSource [] jumpsAcross).reading.tokens {} ∧
      i ∈ Instruction.all ∧ i.isPositionSensitive = false ∧
        i.encode ⟨{}, 0, ⟨Text.ofString "mov", {}, false⟩⟩ ops
          = i.encode ⟨{}, 0xfffe, ⟨Text.ofString "mov", {}, false⟩⟩ ops := by
  obtain ⟨hsame, hencode⟩ := assemble_eq_recompiling {} [] jumpsAcross {}
  exact ⟨hsame, by decide, rfl, hencode _ (by decide) rfl _ _ _ _⟩

end Mcs51
