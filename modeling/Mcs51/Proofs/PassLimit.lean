import Mcs51.Proofs.Convergence
import Mcs51.Proofs.RelevantSettings

/-!
# The limit on passes

Sizes may go back and forth from pass to pass, so passes are counted. The limit is looked at before
each pass and nowhere else: what a pass does is the same under every limit. A layout that settles
under one limit therefore settles under each higher one, after the same passes. One that does not
settle has changed a size in every pass, the first one included, which is not counted.

* `Layout.passes_add`: passes that have settled do not go on.
* `Layout.settled?_eq_none`: passes do not settle if each of them changes the size of some unit.
* `assemble_limit`: a higher limit gives the same result, and when there is none.
-/

namespace Mcs51

namespace Layout

/-! ## Passes -/

/-- Some unit has not the size of the one in its place. -/
def Resized (before after : List CodeUnit) : Prop :=
  ∃ (n : Nat) (u v : CodeUnit), before[n]? = some u ∧ after[n]? = some v ∧ u.size ≠ v.size

theorem changes_ne_zero {before after : List CodeUnit} :
    changes before after ≠ 0 ↔ Resized before after := by
  rw [changes, ← Nat.pos_iff_ne_zero, List.countP_pos_iff]
  constructor
  · rintro ⟨⟨u, v⟩, hmem, hsize⟩
    obtain ⟨n, hn⟩ := List.mem_iff_getElem?.mp hmem
    obtain ⟨hu, hv⟩ := List.getElem?_zip_eq_some.mp hn
    exact ⟨n, u, v, hu, hv, by simpa using hsize⟩
  · rintro ⟨n, u, v, hu, hv, hsize⟩
    have hn : (before.zip after)[n]? = some (u, v) := List.getElem?_zip_eq_some.mpr ⟨hu, hv⟩
    exact ⟨(u, v), List.mem_iff_getElem?.mpr ⟨n, hn⟩, by simpa using hsize⟩

/-- **Passes that have settled do not go on.** -/
theorem passes_add (compile : CodeUnit → CodeUnit) (extra : Nat) :
    ∀ (limit : Nat) {units settled : List CodeUnit},
      (passes compile limit units).settled? = some settled →
        passes compile (limit + extra) units = passes compile limit units
  | 0, _, _, h => by cases h
  | limit + 1, units, settled, h => by
    rw [Nat.succ_add]
    simp only [passes] at h ⊢
    split at h
    · next hsame => rw [if_pos hsame, if_pos hsame]
    · next hchanged => rw [if_neg hchanged, if_neg hchanged, passes_add compile extra limit h]

/-- **Passes do not settle exactly if each of them changes the size of some unit.** -/
theorem settled?_eq_none {settings : Settings} : ∀ (limit : Nat) {units : List CodeUnit},
    (passes (CodeUnit.compile settings) limit units).settled? = none ↔
      ∀ n < limit, Resized (after settings n units) (after settings (n + 1) units)
  | 0, _ => by simp [passes]
  | limit + 1, units => by
    have ih := @settled?_eq_none settings limit (passWith (CodeUnit.compile settings) units)
    have hfirst := @changes_ne_zero units (passWith (CodeUnit.compile settings) units)
    simp only [passes]
    split
    · next hsame =>
      refine iff_of_false (Option.some_ne_none _) fun hall => ?_
      exact hfirst.mpr (hall 0 (Nat.succ_pos limit)) hsame
    · next hchanged =>
      rw [ih]
      constructor
      · intro hrest n hn
        cases n with
        | zero => exact hfirst.mp hchanged
        | succ n => exact hrest n (Nat.lt_of_succ_lt_succ hn)
      · exact fun hall n hn => hall (n + 1) (Nat.succ_lt_succ hn)

/-- The limit that is asked for is the limit, if it is positive. -/
theorem limit_maxPasses (settings : Settings) {k : Int} (hk : 1 ≤ k) :
    limit { settings with maxPasses := k } = k :=
  if_neg (Int.not_lt.mpr hk)

/-- A layout that settles under a limit is the same under a higher one. -/
theorem run_maxPasses (settings : Settings) {k m : Int} (hk : 1 ≤ k) (hkm : k ≤ m)
    {units settled : List CodeUnit}
    (h : (run { settings with maxPasses := k } units).settled? = some settled) :
    run { settings with maxPasses := m } units = run { settings with maxPasses := k } units := by
  have hcompile : CodeUnit.compile { settings with maxPasses := m }
      = CodeUnit.compile { settings with maxPasses := k } :=
    CodeUnit.compile_of_settings rfl rfl
  have hpasses : m.toNat + 1 = k.toNat + 1 + (m - k).toNat := by omega
  simp only [run, limit_maxPasses settings hk, limit_maxPasses settings (Int.le_trans hk hkm),
    hcompile, hpasses] at h ⊢
  exact passes_add _ _ _ h

end Layout

/-! ## Assembly -/

/-- An assembly that settles depends on the layout only. -/
theorem Assembly.assemble_of_run {s t : Settings} {tokens : List Token} {units : List CodeUnit}
    (hrun : Layout.run t (segment tokens).units = Layout.run s (segment tokens).units)
    (h : (Layout.run s (segment tokens).units).settled? = some units) (report : Report) :
    assemble t tokens report = assemble s tokens report := by
  simp only [assemble, assembleWith, hrun, h]

/-- **A higher limit on passes never changes a result.** If there is a program under the limit `k`,
then all that assembling gives is the same under a higher limit. There is none exactly if each of
the first `k + 1` passes changes the size of some unit, and then nothing is reported that encoding
a unit has found. -/
theorem assemble_limit (settings : Settings) (tokens : List Token) (report : Report) (k m : Int)
    (hk : 1 ≤ k) (hkm : k ≤ m) :
    let few : Settings := { settings with maxPasses := k }
    let many : Settings := { settings with maxPasses := m }
    let result := Assembly.assemble few tokens report
    (∀ p, result.program = .ok p → Assembly.assemble many tokens report = result) ∧
    (result.program = .error ⟨k⟩ ↔ ∀ n : Nat, (n : Int) ≤ k →
      Layout.Resized (Layout.after few n (segment tokens).units)
        (Layout.after few (n + 1) (segment tokens).units)) ∧
    (result.program = .error ⟨k⟩ →
      result.report = report.addFindings (segment tokens).findings) := by
  intro few many result
  have hlimit : Layout.limit few = k := Layout.limit_maxPasses settings hk
  have hpasses := @Layout.settled?_eq_none few (k.toNat + 1) (segment tokens).units
  have hcount : ∀ n : Nat, n < k.toNat + 1 ↔ (n : Int) ≤ k := by omega
  simp only [hcount] at hpasses
  rw [← hpasses, ← hlimit, ← Layout.run]
  cases hrun : (Layout.run few (segment tokens).units).settled? with
  | none =>
    obtain ⟨hprogram, hreport⟩ := Assembly.assemble_of_unsettled hrun report
    refine ⟨fun p hp => ?_, iff_of_true hprogram rfl, fun _ => hreport⟩
    cases hprogram.symm.trans hp
  | some units =>
    have hprogram := Assembly.program_of_settled hrun report
    have hfails : result.program ≠ .error ⟨Layout.limit few⟩ := by
      intro herror
      cases hprogram.symm.trans herror
    refine ⟨fun _ _ => ?_, iff_of_false hfails (Option.some_ne_none _), fun h => absurd h hfails⟩
    exact Assembly.assemble_of_run (Layout.run_maxPasses settings hk hkm hrun) hrun report

/-- A jump that grows twice, as its target moves out of reach. -/
def farJump : List Text :=
  [Text.ofString "jmp far", Text.ofString ".ds 2050", Text.ofString "far: nop"]

/-- Two passes after the first are needed: the one in which the jump grows, and one that changes
nothing. -/
theorem assemble_limit_farJump :
    let tokens := (readSource [] farJump).reading.tokens
    let one : Settings := { maxPasses := 1 }
    let two : Settings := { maxPasses := 2 }
    (∃ p, (Assembly.assemble two tokens {}).program = .ok p) ∧
    Assembly.assemble { maxPasses := 40 } tokens {} = Assembly.assemble two tokens {} ∧
    (Assembly.assemble one tokens {}).program = .error ⟨1⟩ ∧
    (∀ n : Nat, (n : Int) ≤ 1 → Layout.Resized (Layout.after one n (segment tokens).units)
      (Layout.after one (n + 1) (segment tokens).units)) ∧
    (Assembly.assemble one tokens {}).report
      = ({} : Report).addFindings (segment tokens).findings := by
  intro tokens one two
  have hsettled : (Layout.run two (segment tokens).units).settled?.isSome = true := by
    decide +kernel
  have hunsettled : (Layout.run one (segment tokens).units).settled?.isNone = true := by
    decide +kernel
  obtain ⟨units, hunits⟩ := Option.isSome_iff_exists.mp hsettled
  have hprogram := Assembly.program_of_settled hunits {}
  have herror := (Assembly.assemble_of_unsettled (Option.isNone_iff_eq_none.mp hunsettled) {}).1
  obtain ⟨hmore, _⟩ := assemble_limit {} tokens {} 2 40 (by decide) (by decide)
  obtain ⟨_, hresized, hreport⟩ := assemble_limit {} tokens {} 1 2 (by decide) (by decide)
  exact ⟨⟨_, hprogram⟩, hmore _ hprogram, herror, hresized.mp herror, hreport herror⟩

end Mcs51
