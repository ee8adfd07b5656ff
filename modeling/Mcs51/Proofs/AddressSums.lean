import Mcs51.Proofs.CodeSpace

/-!
# Addresses are sums of sizes

The address of a unit is the origin of its segment and the sizes of the units before it in the
segment. Layout adds them as words of 32 bits. In a program without errors the words are the sums
of natural numbers, because the first unit that leaves code memory is reported.

* `Layout.Consecutive.toNat_point`: in code memory the addresses of consecutive units are sums.
* `Assembly.exists_sorted`: what is known of settled units in the order of their addresses is known
  of the program.
* `assemble_unwrapped`: no address of a program without errors is a sum that went around.
-/

namespace Mcs51

/-- The number of bytes that units occupy together. -/
def Layout.total : List CodeUnit → Int
  | [] => 0
  | u :: units => u.size + total units

/-- The unit lies at the natural number `start`, in code memory, and no address in it or at its end
goes around. -/
structure CodeUnit.Unwrapped (start : Int) (u : CodeUnit) : Prop where
  /-- The size is a natural number. -/
  least : 0 ≤ u.size
  /-- The end is in code memory or at its end. -/
  most : start + u.size ≤ codeSize
  point : (u.point.toNat : Int) = start
  /-- The end, as it is compared and as the next unit is placed. -/
  endPoint : (u.endPoint.toNat : Int) = start + u.size
  /-- The address of each byte. -/
  bytes : ∀ n : Nat, (n : Int) < u.size → (u.point + n.toUInt32).toNat = u.point.toNat + n

theorem CodeUnit.InMemory.unwrapped {u : CodeUnit} (h : u.InMemory) :
    u.Unwrapped u.point.toNat where
  least := h.least
  most := h.most
  point := rfl
  endPoint := CodeUnit.toNat_endPoint h.least (Int.lt_of_le_of_lt h.most (by decide))
  bytes := by
    intro n hn
    have hmost := h.most
    have hsize : codeSize = 65536 := rfl
    rw [UInt32.toNat_add, Nat.toUInt32_eq, UInt32.toNat_ofNat_of_lt' (by
      have hwords : UInt32.size = 4294967296 := rfl
      omega)]
    omega

/-- **In code memory the address of a unit is the sum of the sizes before it**, from the origin
on. -/
theorem Layout.Consecutive.toNat_point : ∀ {before : List CodeUnit} {origin : UInt32}
    {u : CodeUnit} {after : List CodeUnit}, Consecutive origin (before ++ u :: after) →
      (∀ v ∈ before, v.InMemory) → (u.point.toNat : Int) = origin.toNat + total before
  | [], origin, u, after, ⟨hpoint, _⟩, _ => by
    rw [hpoint, total]
    omega
  | v :: before, origin, u, after, ⟨hpoint, hrest⟩, hmemory => by
    have hend := (hmemory v List.mem_cons_self).unwrapped.endPoint
    have ih : (u.point.toNat : Int) = v.endPoint.toNat + total before :=
      hrest.toNat_point fun w hw => hmemory w (List.mem_cons_of_mem v hw)
    rw [ih, hend, hpoint, total]
    omega

/-- Of settled units that stand in the order of their addresses, what can be computed of them is
known of the program. -/
theorem Assembly.exists_sorted (settings : Settings) (tokens : List Token) (report : Report)
    (known : List CodeUnit → Bool)
    (h : (Layout.run settings (segment tokens).units).settled?.any (fun units =>
      decide (units.Pairwise fun u v => u.point ≤ v.point) && known units) = true) :
    ∃ p, (assemble settings tokens report).program = .ok p ∧ known p.units = true ∧
      (assemble settings tokens report).report
        = ((report.addFindings (segment tokens).findings).merge
            (p.units.flatMap CodeUnit.problems)).addFindings p.check := by
  cases hrun : (Layout.run settings (segment tokens).units).settled? with
  | none =>
    rw [hrun] at h
    cases h
  | some units =>
    rw [hrun, Option.any_some, Bool.and_eq_true, decide_eq_true_eq] at h
    obtain ⟨hsorted, hknown⟩ := h
    have hsame : (Program.ofUnits units).units = units :=
      List.mergeSort_of_pairwise (hsorted.imp fun hle => decide_eq_true hle)
    refine ⟨Program.ofUnits units, ?_, by rw [hsame]; exact hknown, ?_⟩
    · simp only [assemble, assembleWith, hrun]
    · simp only [assemble, assembleWith, hrun, hsame]

/-- **No address goes around unnoticed.** In a program without errors each unit lies at the origin
of its segment plus the sizes of the earlier units of the segment, added as natural numbers, and
ends in code memory. -/
theorem assemble_unwrapped (settings : Settings) (path : Text) (lines : List Text)
    (hlines : ∀ line ∈ lines, line.length < lineBound) (report : Report) (p : Program)
    (h : (Assembly.assemble settings (readSource path lines).reading.tokens report).program = .ok p)
    (hclean : (Assembly.assemble settings (readSource path lines).reading.tokens
      report).report.hasErrors = false) :
    ∃ units, units.map CodeUnit.bare = (segment (readSource path lines).reading.tokens).units ∧
      p = Program.ofUnits units ∧
      ∀ before u after, units = before ++ u :: after →
        u.Unwrapped (u.origin.toNat
          + Layout.total (before.filter fun v => v.segment == u.segment)) := by
  have hmemory := Assembly.assemble_inMemory hlines h hclean
  have hstart := sourceOrder_segment (fresh_readSource path lines)
  obtain ⟨units, hrun, rfl, _⟩ := Assembly.assemble_ok h
  obtain ⟨last, hreached, hfinal, hsame⟩ := Layout.run_settled hstart hrun
  refine ⟨units, hfinal ▸ hreached.pass.bare, rfl, ?_⟩
  intro before u after hunits
  have hmem : ∀ v ∈ units, v.InMemory := fun v hv => (hmemory v (Program.mem_ofUnits.mpr hv)).1
  have hu : u ∈ units := hunits ▸ List.mem_append_right before List.mem_cons_self
  have hsegment := Layout.last_points hstart hreached hfinal hsame u hu
  rw [hunits, List.filter_append, List.filter_cons_of_pos (by simp)] at hsegment
  have hpoint := hsegment.toNat_point fun v hv =>
    hmem v (hunits ▸ List.mem_append_left _ (List.mem_filter.mp hv).1)
  rw [← hpoint]
  exact (hmem u hu).unwrapped

/-- Two segments, the second of which ends with code memory. -/
def endsWithMemory : List Text :=
  [Text.ofString ".org 0", Text.ofString "ljmp top", Text.ofString ".org 0xfff0",
    Text.ofString "top: nop", Text.ofString ".ds 12", Text.ofString ".db 1",
    Text.ofString "sjmp top"]

theorem assemble_unwrapped_endsWithMemory : ∃ p,
    (Assembly.assemble {} (readSource [] endsWithMemory).reading.tokens {}).program = .ok p ∧
    (Assembly.assemble {} (readSource [] endsWithMemory).reading.tokens {}).report.hasErrors
      = false ∧
    ∃ units, units.map CodeUnit.bare
        = (segment (readSource [] endsWithMemory).reading.tokens).units ∧
      p = Program.ofUnits units ∧
      ∀ before u after, units = before ++ u :: after →
        u.Unwrapped (u.origin.toNat
          + Layout.total (before.filter fun v => v.segment == u.segment)) := by
  obtain ⟨p, hp, hknown, hreport⟩ := Assembly.exists_sorted {}
    (readSource [] endsWithMemory).reading.tokens {}
    (fun units => !(((({} : Report).addFindings
      (segment (readSource [] endsWithMemory).reading.tokens).findings).merge
        (units.flatMap CodeUnit.problems)).addFindings (Program.checkFrom 0 none units)).hasErrors)
    (by decide +kernel)
  have hclean : (Assembly.assemble {} (readSource [] endsWithMemory).reading.tokens
      {}).report.hasErrors = false := by
    rw [hreport]
    exact Bool.not_eq_true' _ |>.mp hknown
  exact ⟨p, hp, hclean, assemble_unwrapped {} [] endsWithMemory (by decide +kernel) {} p hp hclean⟩

end Mcs51
