import Mathlib.Data.List.Induction
import Mcs51.Proofs.ProgramViews

/-!
# No two units at one address

The check compares the end of each unit with the addresses of the units after it. Addresses are
words of 32 bits, so the end of a unit can be a small number although the unit is not. Still, units
that the check finds not to overlap never share an address, unless a single unit has almost as many
bytes as there are addresses: units of one segment lie at different sums, and two segments that are
long enough to go around both pass the end of code memory.

* `Program.clear_units`: what the check says about units in source order.
* `Layout.Consecutive.total_lt`: no unit of a segment lies a full turn behind the first.
* `Layout.distinct_points`: no two units that are not empty share an address.
* `Assembly.eq_of_point_eq`: this holds for what is assembled from a source.
-/

namespace Mcs51

/-- The units do not overlap as far as the check can see, where `u` comes first in the source. -/
def CodeUnit.Clear (u v : CodeUnit) : Prop :=
  (u.point ≤ v.point → u.endPoint ≤ v.point) ∧ (v.point < u.point → v.endPoint ≤ u.point)

/-- The unit begins in code memory or at its end, and ends behind it. -/
def CodeUnit.Passes (u : CodeUnit) : Prop :=
  u.point.toNat ≤ codeSize ∧ codeSize < u.endPoint.toNat

/-- Of units that are clear of each other, one at most passes the end of code memory. -/
theorem CodeUnit.Clear.not_passes {u v : CodeUnit} (h : u.Clear v) (hu : u.Passes) :
    ¬ v.Passes := by
  rintro ⟨hvPoint, hvEnd⟩
  obtain ⟨huPoint, huEnd⟩ := hu
  by_cases hle : u.point ≤ v.point
  · have hend := UInt32.le_iff_toNat_le.mp (h.1 hle)
    omega
  · have hend := UInt32.le_iff_toNat_le.mp (h.2 (UInt32.not_le.mp hle))
    omega

namespace Program

theorem pairwise_units (units : List CodeUnit) :
    (ofUnits units).units.Pairwise fun u v => u.point ≤ v.point := by
  have h := @List.pairwise_mergeSort CodeUnit (fun u v => decide (u.point ≤ v.point))
    (fun _ _ _ huv hvw => decide_eq_true
      (UInt32.le_trans (of_decide_eq_true huv) (of_decide_eq_true hvw)))
    (fun u v => by simpa using UInt32.le_total u.point v.point) units
  exact h.imp of_decide_eq_true

/-- **Units that the check finds not to overlap are clear of each other.** Units at one address are
checked in source order. -/
theorem clear_units {units : List CodeUnit}
    (h : (ofUnits units).units.Pairwise CodeUnit.Before) :
    units.Pairwise fun u v => u.size ≠ 0 → v.size ≠ 0 → u.Clear v := by
  rw [List.pairwise_iff_forall_sublist]
  intro u v hpair hu hv
  constructor
  · intro hle
    have hstable : [u, v].Sublist (ofUnits units).units :=
      List.pair_sublist_mergeSort
        (fun _ _ _ huv hvw => decide_eq_true
          (UInt32.le_trans (of_decide_eq_true huv) (of_decide_eq_true hvw)))
        (fun u v => by simpa using UInt32.le_total u.point v.point) (decide_eq_true hle) hpair
    exact (List.pairwise_iff_forall_sublist.mp h hstable) hu hv
  · intro hlt
    -- of two units at different addresses, the sorted units have the lower one first
    have hlater : (ofUnits units).units.Pairwise fun x y : CodeUnit =>
        y.point < x.point → x.size ≠ 0 → y.size ≠ 0 → y.endPoint ≤ x.point :=
      (pairwise_units units).imp fun hle hlt => absurd hle (UInt32.not_le.mpr hlt)
    have hflip : (ofUnits units).units.Pairwise (flip fun x y : CodeUnit =>
        y.point < x.point → x.size ≠ 0 → y.size ≠ 0 → y.endPoint ≤ x.point) :=
      h.imp fun hbefore _ hy hx => hbefore hx hy
    exact List.Pairwise.forall_of_forall_of_flip
      (fun x _ hself => absurd hself (UInt32.lt_irrefl _)) hlater hflip
      (mem_ofUnits.mpr (hpair.subset (by simp))) (mem_ofUnits.mpr (hpair.subset (by simp)))
      hlt hu hv

end Program

namespace Layout

/-! ## Sums -/

theorem total_append : ∀ units later : List CodeUnit,
    total (units ++ later) = total units + total later
  | [], later => by rw [List.nil_append, total, Int.zero_add]
  | u :: units, later => by
    rw [List.cons_append, total, total, total_append units later, Int.add_assoc]

theorem total_nonneg : ∀ {units : List CodeUnit}, (∀ u ∈ units, 0 ≤ u.size) → 0 ≤ total units
  | [], _ => Int.le_refl 0
  | u :: units, h => by
    have hu := h u List.mem_cons_self
    have hrest : 0 ≤ total units := total_nonneg fun v hv => h v (List.mem_cons_of_mem u hv)
    rw [total]
    omega

/-- Each number below the sum of the sizes falls into one of the units. -/
theorem exists_covering : ∀ {units : List CodeUnit} {x : Int}, 0 ≤ x → x < total units →
    ∃ before u after, units = before ++ u :: after ∧ total before ≤ x ∧ x < total before + u.size
  | [], x, hx, hlt => by
    rw [total] at hlt
    omega
  | u :: units, x, hx, hlt => by
    by_cases hfirst : x < u.size
    · exact ⟨[], u, units, rfl, hx, by rw [total]; omega⟩
    · rw [total] at hlt
      obtain ⟨before, v, after, hunits, hleast, hmost⟩ :=
        @exists_covering units (x - u.size) (by omega) (by omega)
      refine ⟨u :: before, v, after, by rw [hunits]; rfl, ?_, ?_⟩
      · rw [total]
        omega
      · rw [total]
        omega

/-! ## Words -/

theorem toNat_add_toWord (point : UInt32) (n : Int) :
    ((point + toWord n).toNat : Int) = (point.toNat + n) % 4294967296 := by
  have hword : ((toWord n).toNat : Int) = n % 4294967296 := by
    have hleast := Int.emod_nonneg n (by decide : (4294967296 : Int) ≠ 0)
    have hmost := Int.emod_lt_of_pos n (by decide : (0 : Int) < 4294967296)
    have hself : toWord n = toWord (n % 4294967296) := by
      simp only [toWord, Int.emod_emod]
    rw [hself, toNat_toWord hleast hmost]
  rw [UInt32.toNat_add]
  omega

/-- The address of a unit is the sum of the sizes before it, modulo the number of words. -/
theorem Consecutive.point_eq : ∀ {before : List CodeUnit} {origin : UInt32} {u : CodeUnit}
    {after : List CodeUnit}, Consecutive origin (before ++ u :: after) →
      (u.point.toNat : Int) = (origin.toNat + total before) % 4294967296
  | [], origin, u, after, ⟨hpoint, _⟩ => by
    have hlt := origin.toNat_lt
    rw [hpoint, total]
    omega
  | v :: before, origin, u, after, ⟨hpoint, hrest⟩ => by
    have ih := hrest.point_eq
    have hend := toNat_add_toWord v.point v.size
    rw [ih, hend, hpoint, total]
    omega

/-- Without empty units, the others stand one after the other. -/
theorem Consecutive.sized : ∀ {units : List CodeUnit} {origin : UInt32}, Consecutive origin units →
    Consecutive origin (units.filter fun u => u.size != 0)
  | [], _, _ => trivial
  | u :: units, origin, ⟨hpoint, hrest⟩ => by
    have ih := hrest.sized
    by_cases hzero : u.size = 0
    · rw [List.filter_cons_of_neg (by simp [hzero])]
      have hend : u.point + toWord u.size = origin := by
        rw [hzero, hpoint]
        exact UInt32.add_zero origin
      rwa [hend] at ih
    · rw [List.filter_cons_of_pos (by simp [hzero])]
      exact ⟨hpoint, ih⟩

/-! ## One segment -/

/-- The sizes of units are positive, and even the largest leaves room for the addresses of code
memory and as many more. -/
def Short (units : List CodeUnit) : Prop :=
  ∀ u ∈ units, 0 < u.size ∧ u.size + 0x20000 ≤ 4294967296

theorem Consecutive.point_second {origin : UInt32} {before after : List CodeUnit} {a u : CodeUnit}
    (hunits : Consecutive origin (before ++ a :: u :: after)) :
    (u.point.toNat : Int) = (origin.toNat + (total before + a.size)) % 4294967296 := by
  have hsplit : before ++ a :: u :: after = (before ++ [a]) ++ u :: after := by simp
  rw [hsplit] at hunits
  have hpoint := hunits.point_eq
  rw [total_append, total, total, Int.add_zero] at hpoint
  exact hpoint

section Turn

variable {origin : UInt32} (horigin : origin.toNat < codeSize) {before after : List CodeUnit}
  {a u : CodeUnit} (hunits : Consecutive origin (before ++ a :: u :: after))
  (hshort : Short (before ++ a :: u :: after))
  (hclear : (before ++ a :: u :: after).Pairwise CodeUnit.Clear)

include horigin hunits hshort hclear

/-- A unit that has gone around ends before the first unit, so the next is before it too. -/
theorem Consecutive.turn_behind (hbefore : total before < 4294967296)
    (haround : 4294967296 ≤ origin.toNat + total before) :
    total before + a.size < 4294967296 := by
  have hcode : codeSize = 65536 := rfl
  obtain ⟨f, rest, rfl⟩ : ∃ f rest, before = f :: rest := by
    cases before with
    | nil =>
      rw [total] at haround
      omega
    | cons f rest => exact ⟨f, rest, rfl⟩
  have hfirst : f.point = origin := hunits.1
  obtain ⟨ha, hamost⟩ := hshort a (by simp)
  obtain ⟨hf, hfmost⟩ := hshort f (by simp)
  have hpointA := hunits.point_eq
  have hpointU := hunits.point_second
  have hendA := toNat_add_toWord a.point a.size
  have hendF := toNat_add_toWord f.point f.size
  rw [hfirst] at hendF
  obtain ⟨_, _, hpairs⟩ := List.pairwise_append.mp hclear
  have hfa := (hpairs f List.mem_cons_self a List.mem_cons_self).2
  have hfu := (hpairs f List.mem_cons_self u (by simp)).1
  simp only [CodeUnit.endPoint, UInt32.le_iff_toNat_le, UInt32.lt_iff_toNat_lt, hfirst] at hfa hfu
  omega

/-- A unit that has not gone around does not reach the first unit again, because the address of the
next would fall into a unit before it. -/
theorem Consecutive.turn_ahead (haround : origin.toNat + total before < 4294967296) :
    total before + a.size < 4294967296 := by
  have hcode : codeSize = 65536 := rfl
  obtain ⟨ha, hamost⟩ := hshort a (by simp)
  have hpointU := hunits.point_second
  obtain ⟨_, _, hpairs⟩ := List.pairwise_append.mp hclear
  refine Int.not_le.mp fun hfull => ?_
  obtain ⟨earlier, t, later, hcover, hleast, hmost⟩ :=
    @exists_covering before (total before + a.size - 4294967296) (by omega) (by omega)
  have hpointT : (t.point.toNat : Int) = (origin.toNat + total earlier) % 4294967296 := by
    rw [hcover, List.append_assoc] at hunits
    exact hunits.point_eq
  have hendT := toNat_add_toWord t.point t.size
  have htu := (hpairs t (by simp [hcover]) u (by simp)).1
  have hsum : total before = total earlier + (t.size + total later) := by
    rw [hcover, total_append, total]
  have hlater : 0 ≤ total later := total_nonneg fun v hv =>
    Int.le_of_lt (hshort v (by simp [hcover, hv])).1
  have hearlier : 0 ≤ total earlier := total_nonneg fun v hv =>
    Int.le_of_lt (hshort v (by simp [hcover, hv])).1
  simp only [CodeUnit.endPoint, UInt32.le_iff_toNat_le] at htu
  omega

end Turn

/-- **No unit of a segment lies a full turn behind the first**, if none overlaps another. -/
theorem Consecutive.total_lt {origin : UInt32} (horigin : origin.toNat < codeSize)
    {units : List CodeUnit} (hunits : Consecutive origin units) (hshort : Short units)
    (hclear : units.Pairwise CodeUnit.Clear) (before : List CodeUnit) :
    ∀ u after, units = before ++ u :: after → total before < 4294967296 := by
  induction before using List.reverseRecOn with
  | nil => exact fun _ _ _ => by rw [total]; decide
  | append_singleton before a ih =>
    intro u after hsplit
    rw [List.append_assoc, List.singleton_append] at hsplit
    have hbefore := ih a (u :: after) hsplit
    rw [hsplit] at hunits hshort hclear
    rw [total_append, total, total, Int.add_zero]
    by_cases haround : 4294967296 ≤ origin.toNat + total before
    · exact hunits.turn_behind horigin hshort hclear hbefore haround
    · exact hunits.turn_ahead horigin hshort hclear (Int.not_le.mp haround)

/-- Units of one segment that are not empty lie at different addresses. -/
theorem Consecutive.point_ne {origin : UInt32} (horigin : origin.toNat < codeSize)
    {units : List CodeUnit} (hunits : Consecutive origin units) (hshort : Short units)
    (hclear : units.Pairwise CodeUnit.Clear) : units.Pairwise fun u v => u.point ≠ v.point := by
  rw [List.pairwise_iff_forall_sublist]
  intro u v hpair hsame
  obtain ⟨first, second, hsplit, hu, hv⟩ := List.cons_sublist_iff.mp hpair
  obtain ⟨before, between, rfl⟩ := List.append_of_mem hu
  obtain ⟨between', after, rfl⟩ := List.append_of_mem (List.singleton_sublist.mp hv)
  -- the sum before `v` is larger than the one before `u`, and by less than a turn
  have hsplitU : units = before ++ u :: (between ++ (between' ++ v :: after)) := by
    rw [hsplit]
    simp
  have hsplitV : units = (before ++ u :: (between ++ between')) ++ v :: after := by
    rw [hsplit]
    simp
  have hturn := hunits.total_lt horigin hshort hclear _ v after hsplitV
  have hpointU := (hsplitU ▸ hunits).point_eq
  have hpointV := (hsplitV ▸ hunits).point_eq
  have hbefore : 0 ≤ total before := total_nonneg fun w hw =>
    Int.le_of_lt (hshort w (by simp [hsplitU, hw])).1
  have hbetween : 0 ≤ total (between ++ between') := total_nonneg fun w hw =>
    Int.le_of_lt (hshort w (by
      rw [hsplitV]
      exact List.mem_append_left _ (List.mem_append_right _ (List.mem_cons_of_mem u hw)))).1
  have hsize := (hshort u (by simp [hsplitU])).1
  rw [total_append, total] at hturn hpointV
  rw [hsame] at hpointU
  omega

/-- A segment that reaches an address far behind code memory passes the end of code memory. -/
theorem Consecutive.exists_passing {origin : UInt32} (horigin : origin.toNat < codeSize)
    {units : List CodeUnit} (hunits : Consecutive origin units) (hshort : Short units)
    (hclear : units.Pairwise CodeUnit.Clear) {u : CodeUnit} (hu : u ∈ units)
    (hfar : 0x20000 ≤ u.point.toNat) :
    ∃ t ∈ units, t.Passes := by
  have hcode : codeSize = 65536 := rfl
  obtain ⟨before, after, hsplit⟩ := List.append_of_mem hu
  have hturn := hunits.total_lt horigin hshort hclear before u after hsplit
  have hpoint := (hsplit ▸ hunits).point_eq
  have hnonneg : 0 ≤ total before := total_nonneg fun v hv =>
    Int.le_of_lt (hshort v (by simp [hsplit, hv])).1
  obtain ⟨earlier, t, later, hcover, hleast, hmost⟩ :=
    @exists_covering before (codeSize - origin.toNat) (by omega) (by omega)
  have hsplitT : units = earlier ++ t :: (later ++ u :: after) := by
    rw [hsplit, hcover]
    simp
  have ht : t ∈ units := by simp [hsplitT]
  have hpointT := (hsplitT ▸ hunits).point_eq
  have hendT := toNat_add_toWord t.point t.size
  have hsum : total before = total earlier + (t.size + total later) := by
    rw [hcover, total_append, total]
  have hlater : 0 ≤ total later := total_nonneg fun v hv =>
    Int.le_of_lt (hshort v (by simp [hsplitT, hv])).1
  have hearlier : 0 ≤ total earlier := total_nonneg fun v hv =>
    Int.le_of_lt (hshort v (by simp [hsplitT, hv])).1
  refine ⟨t, ht, ?_, ?_⟩
  · omega
  · rw [CodeUnit.endPoint]
    omega

/-! ## All segments -/

/-- The units of segment `number` that are not empty. -/
def sizedSegment (units : List CodeUnit) (number : Nat) : List CodeUnit :=
  (units.filter fun u => u.segment == number).filter fun u => u.size != 0

theorem mem_sizedSegment {units : List CodeUnit} {number : Nat} {u : CodeUnit} :
    u ∈ sizedSegment units number ↔ u ∈ units ∧ u.segment = number ∧ u.size ≠ 0 := by
  rw [sizedSegment, List.mem_filter, List.mem_filter]
  simp [and_assoc]

/-- **No two units that are not empty share an address**, if the check finds no overlap. -/
theorem distinct_points {units : List CodeUnit}
    (hpoints : ∀ u ∈ units, Consecutive u.origin (units.filter fun v => v.segment == u.segment))
    (horigin : ∀ u ∈ units, u.origin.toNat < codeSize)
    (hsizes : ∀ u ∈ units, 0 ≤ u.size ∧ u.size + 0x20000 ≤ 4294967296)
    (hbefore : (Program.ofUnits units).units.Pairwise CodeUnit.Before) :
    units.Pairwise fun u v => u.size ≠ 0 → v.size ≠ 0 → u.point ≠ v.point := by
  have hclear := Program.clear_units hbefore
  have hshort : ∀ number, Short (sizedSegment units number) := by
    intro number u hu
    obtain ⟨hmem, _, hsize⟩ := mem_sizedSegment.mp hu
    obtain ⟨hleast, hmost⟩ := hsizes u hmem
    exact ⟨by omega, hmost⟩
  have hclearIn : ∀ number, (sizedSegment units number).Pairwise CodeUnit.Clear := by
    intro number
    rw [sizedSegment, List.pairwise_filter]
    refine (hclear.sublist List.filter_sublist).imp fun h hu hv => h ?_ ?_
    · simpa using hu
    · simpa using hv
  rw [List.pairwise_iff_forall_sublist]
  intro u v hpair hu hv hsame
  have huMem : u ∈ units := hpair.subset (by simp)
  have hvMem : v ∈ units := hpair.subset (by simp)
  have huIn := mem_sizedSegment.mpr ⟨huMem, rfl, hu⟩
  have hvIn := mem_sizedSegment.mpr ⟨hvMem, rfl, hv⟩
  by_cases hsegment : v.segment = u.segment
  · have hpairIn : [u, v].Sublist (sizedSegment units u.segment) := by
      have hfilter := (hpair.filter fun w => w.segment == u.segment).filter fun w => w.size != 0
      simpa [sizedSegment, hsegment, hu, hv] using hfilter
    exact List.pairwise_iff_forall_sublist.mp
      ((hpoints u huMem).sized.point_ne (horigin u huMem) (hshort _) (hclearIn _)) hpairIn hsame
  · -- `u` goes around, so both segments pass the end of code memory, each with a unit
    have hend := (List.pairwise_iff_forall_sublist.mp hclear hpair hu hv).1
      (hsame ▸ UInt32.le_refl _)
    have hword := toNat_add_toWord u.point u.size
    obtain ⟨hleast, hmost⟩ := hsizes u huMem
    have hfar : 0x20000 ≤ u.point.toNat := by
      rw [CodeUnit.endPoint, ← hsame, UInt32.le_iff_toNat_le] at hend
      have hlt := u.point.toNat_lt
      omega
    obtain ⟨s, hs, hsPasses⟩ := (hpoints u huMem).sized.exists_passing (horigin u huMem)
      (hshort _) (hclearIn _) huIn hfar
    obtain ⟨t, ht, htPasses⟩ := (hpoints v hvMem).sized.exists_passing (horigin v hvMem)
      (hshort _) (hclearIn _) hvIn (hsame ▸ hfar)
    obtain ⟨hsMem, hsSegment, hsSize⟩ := mem_sizedSegment.mp hs
    obtain ⟨htMem, htSegment, htSize⟩ := mem_sizedSegment.mp ht
    have hne : s ≠ t := by
      rintro rfl
      exact hsegment (htSegment.symm.trans hsSegment)
    have honce : units.Pairwise fun x y : CodeUnit =>
        x ≠ y → x.size ≠ 0 → y.size ≠ 0 → x.Passes → ¬ y.Passes :=
      hclear.imp fun h _ hx hy hpasses => (h hx hy).not_passes hpasses
    have hflip : units.Pairwise (flip fun x y : CodeUnit =>
        x ≠ y → x.size ≠ 0 → y.size ≠ 0 → x.Passes → ¬ y.Passes) :=
      hclear.imp fun h _ hy hx hypasses hxpasses => (h hx hy).not_passes hxpasses hypasses
    exact List.Pairwise.forall_of_forall_of_flip (fun x _ hself => absurd rfl hself) honce hflip
      hsMem htMem hne hsSize htSize hsPasses htPasses

end Layout

/-- **In a program without overlaps, units with code at one address are one unit**, if no data has
almost as many bytes as there are addresses. -/
theorem Assembly.eq_of_point_eq {settings : Settings} {path : Text} {lines : List Text}
    {report : Report} {p : Program}
    (h : (assemble settings (readSource path lines).reading.tokens report).program = .ok p)
    (hdata : ∀ d, .directive d ∈ (readSource path lines).reading.tokens →
      d.data.length + 0x20000 ≤ 4294967296)
    (hclear : p.ReportsNoOverlap) {u v : CodeUnit} (hu : u ∈ p.units) (hv : v ∈ p.units)
    (huCode : u.code ≠ []) (hvCode : v.code ≠ []) (hpoint : u.point = v.point) : u = v := by
  have hsized : ∀ d, .directive d ∈ (readSource path lines).reading.tokens →
      d.Sized 0xfffe0000 := by
    intro d hd
    have hsized := sized_readSource (n := lines.flatten.length)
      (fun line hline => (List.sublist_flatten_of_mem hline).length_le) hd
    have hmost := hdata d hd
    exact ⟨hsized.least, hsized.most, by omega⟩
  obtain ⟨units, rfl, hsmall, hcode, hpoints⟩ := exists_measured (by decide) hsized h
  have hdistinct := Layout.distinct_points hpoints
    (fun u hu => Nat.lt_of_le_of_lt (hsmall u hu).2 (by decide))
    (fun u hu => ⟨(hsmall u hu).1.least, by have := (hsmall u hu).1.most; omega⟩) hclear.before
  have hsize : ∀ w ∈ units, w.code ≠ [] → w.size ≠ 0 := by
    intro w hw hne hzero
    rcases hcode w hw with hnil | hlength
    · exact hne hnil
    · rw [hzero] at hlength
      exact hne (List.eq_nil_of_length_eq_zero (by omega))
  rw [Program.mem_ofUnits] at hu hv
  have hflip : units.Pairwise (flip fun u v : CodeUnit =>
      u.size ≠ 0 → v.size ≠ 0 → u.point = v.point → u = v) :=
    hdistinct.imp fun hne hy hx hsame => absurd hsame.symm (hne hx hy)
  exact List.Pairwise.forall_of_forall_of_flip (fun _ _ _ _ _ => rfl)
    (hdistinct.imp fun hne hx hy hsame => absurd hsame (hne hx hy)) hflip hu hv
    (hsize u hu huCode) (hsize v hv hvCode) hpoint

end Mcs51
