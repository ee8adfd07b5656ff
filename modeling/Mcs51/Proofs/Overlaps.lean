import Mcs51.Proofs.DistinctPoints

/-!
# Overlaps

The check goes through the units in the order of their addresses. It keeps how far the units that
are not empty reach, and the last of them. A unit that begins before the reach is warned of, and the
last unit is named as the one that it overlaps. The warning is right; the name need not be, because
a unit that reaches far may have started before the last one.

* `Program.Seen` is what the check knows of the units it has gone through. Each unit keeps it
  (`Program.Seen.scan`), so it holds everywhere (`Program.seen_of_sorted`).
* `CodeUnit.Natural` is kept by every pass, so no unit has a negative size
  (`Assembly.placed_of_ok`).
* `assemble_overlaps`: a unit is warned of exactly if it shares an address with one before it, and
  once.
* `assemble_named_overlap`: when the unit shares an address with one that starts where the warning
  says.
* `unrelated_overlap`: a warning whose unit shares no address with any that starts there.
-/

namespace Mcs51

/-! ## Units that share an address -/

namespace CodeUnit

/-- The unit occupies the address. -/
def Occupies (u : CodeUnit) (a : Nat) : Prop :=
  u.point.toNat ≤ a ∧ (a : Int) < u.point.toNat + u.size

/-- The units share an address. -/
def Meets (u v : CodeUnit) : Prop := ∃ a, u.Occupies a ∧ v.Occupies a

/-- The unit has a size, and all its addresses and its end are words of 32 bits. -/
structure InWords (u : CodeUnit) : Prop where
  least : 0 ≤ u.size
  most : u.point.toNat + u.size < 4294967296

/-- Of the units that are not empty, none starts after the given one. -/
structure StartsLast (units : List CodeUnit) (v : CodeUnit) : Prop where
  mem : v ∈ units
  sized : v.size ≠ 0
  latest : ∀ w ∈ units, w.size ≠ 0 → w.point ≤ v.point

/-- The warning that the unit overlaps code at an address. -/
def overlapWarning (u : CodeUnit) (there : UInt32) : Finding :=
  .warning (.overlap u.point there) u.text u.position

variable {u v : CodeUnit}

theorem overlapWarning_inj {a b : UInt32} : u.overlapWarning a = u.overlapWarning b ↔ a = b := by
  simp [overlapWarning, Finding.warning]

theorem meets_iff : u.Meets v ↔ 0 < u.size ∧ 0 < v.size ∧
    (u.point.toNat : Int) < v.point.toNat + v.size ∧
    (v.point.toNat : Int) < u.point.toNat + u.size := by
  constructor
  · rintro ⟨a, ⟨hu, hu'⟩, hv, hv'⟩
    omega
  · intro h
    exact ⟨max u.point.toNat v.point.toNat, ⟨by omega, by omega⟩, by omega, by omega⟩

instance : Decidable (u.Meets v) := decidable_of_iff _ meets_iff.symm

/-- A unit that does not start later is met where the other begins. -/
theorem meets_of_le (hle : v.point ≤ u.point) (hsize : 0 < u.size) :
    v.Meets u ↔ (u.point.toNat : Int) < v.point.toNat + v.size := by
  have hle := UInt32.le_iff_toNat_le.mp hle
  rw [meets_iff]
  omega

theorem InWords.toNat_endPoint (h : u.InWords) :
    (u.endPoint.toNat : Int) = u.point.toNat + u.size :=
  CodeUnit.toNat_endPoint h.least h.most

end CodeUnit

/-- The finding is about an overlap. -/
def Finding.isOverlap (f : Finding) : Bool :=
  match f.complaint with
  | .overlap _ _ => true
  | _ => false

/-! ## What the check has seen -/

namespace Program

theorem lt_max_word {n : Nat} {a b : UInt32} :
    n < (max a b).toNat ↔ n < a.toNat ∨ n < b.toNat := by
  have ha := UInt32.le_iff_toNat_le.mp (le_max_word a b).1
  have hb := UInt32.le_iff_toNat_le.mp (le_max_word a b).2
  have hone : max a b = b ∨ max a b = a := ite_eq_or_eq _ _ _
  rcases hone with h | h <;> rw [h] at ha hb ⊢ <;> omega

/-- What the check keeps when it has gone through one more unit: the reach and the last unit. -/
def scan (state : UInt32 × Option CodeUnit) (u : CodeUnit) : UInt32 × Option CodeUnit :=
  if u.size = 0 then state else (max state.1 u.endPoint, some u)

/-- What the check keeps when it has gone through units. -/
def seen (before : List CodeUnit) : UInt32 × Option CodeUnit := before.foldl scan (0, none)

/-- What the check says of a unit after others: what it adds when it comes to the unit. -/
def remarks (before : List CodeUnit) (u : CodeUnit) : List Finding :=
  (checkFrom 0 none (before ++ [u])).drop (checkFrom 0 none before).length

theorem checkFrom_append : ∀ (xs ys : List CodeUnit) (state : UInt32 × Option CodeUnit),
    checkFrom state.1 state.2 (xs ++ ys) = checkFrom state.1 state.2 xs
      ++ checkFrom (xs.foldl scan state).1 (xs.foldl scan state).2 ys
  | [], _, _ => rfl
  | u :: xs, ys, state => by
    have ih := checkFrom_append xs ys (scan state u)
    rw [List.cons_append, List.foldl_cons]
    by_cases hzero : u.size = 0
    · simp only [scan, if_pos hzero] at ih
      simp only [checkFrom, scan, if_pos hzero]
      exact ih
    · simp only [scan, if_neg hzero] at ih
      simp only [checkFrom, scan, if_neg hzero, ih, List.append_assoc]

theorem remarks_eq (before : List CodeUnit) (u : CodeUnit) :
    remarks before u = checkFrom (seen before).1 (seen before).2 [u] := by
  rw [remarks, checkFrom_append before [u] (0, none), List.drop_left]
  rfl

/-- The check says what it has said of the units before, and then what it says of the unit. -/
theorem checkFrom_snoc (before : List CodeUnit) (u : CodeUnit) :
    checkFrom 0 none (before ++ [u]) = checkFrom 0 none before ++ remarks before u := by
  rw [remarks_eq]
  exact checkFrom_append before [u] (0, none)

/-- The units that the check comes to, each with those it has gone through. -/
def visits : List CodeUnit → List CodeUnit → List (List CodeUnit × CodeUnit)
  | _, [] => []
  | before, u :: units => (before, u) :: visits (before ++ [u]) units

/-- **The check says what it says of each unit after those before it, and nothing else.** -/
theorem checkFrom_visits : ∀ (units before : List CodeUnit),
    checkFrom 0 none (before ++ units) = checkFrom 0 none before
      ++ (visits before units).flatMap fun visit => remarks visit.1 visit.2
  | [], before => by simp [visits]
  | u :: units, before => by
    have ih := checkFrom_visits units (before ++ [u])
    rw [List.append_assoc, List.singleton_append, checkFrom_snoc, List.append_assoc] at ih
    rw [ih, visits, List.flatMap_cons]

/-- An empty unit is passed over. -/
theorem remarks_of_empty {before : List CodeUnit} {u : CodeUnit} (hzero : u.size = 0) :
    remarks before u = [] := by
  simp only [remarks_eq, checkFrom, if_pos hzero]

/-- A unit is warned of if it begins before the reach, and the last unit is named. -/
theorem filter_checkFrom {reach : UInt32} {last? : Option CodeUnit} {u : CodeUnit}
    (hsize : u.size ≠ 0) :
    (checkFrom reach last? [u]).filter Finding.isOverlap =
      if u.point < reach then (last?.map fun last => u.overlapWarning last.point).toList
      else [] := by
  have hpast :
      (if codeSize < u.endPoint.toNat then [Finding.error (.pastEnd u.point) u.text u.position]
        else []).filter Finding.isOverlap = [] := by
    split <;> rfl
  simp only [checkFrom, if_neg hsize, List.append_nil, List.filter_append, hpast]
  cases last? with
  | none => simp
  | some last =>
    simp only [Option.map_some, Option.toList_some]
    split <;> rfl

/-- What is known of the units that the check has gone through: a number is below the reach if it is
below the end of one of them, and the last unit is one that starts last. -/
structure Seen (before : List CodeUnit) (state : UInt32 × Option CodeUnit) : Prop where
  reach : ∀ n : Nat, n < state.1.toNat ↔
    ∃ v ∈ before, v.size ≠ 0 ∧ (n : Int) < v.point.toNat + v.size
  empty : state.2 = none → ∀ v ∈ before, v.size = 0
  last : ∀ v, state.2 = some v → v.StartsLast before

variable {before : List CodeUnit} {state : UInt32 × Option CodeUnit} {u : CodeUnit}

/-- An empty unit adds nothing to what is known. -/
theorem Seen.skip (h : Seen before state) (hzero : u.size = 0) : Seen (before ++ [u]) state where
  reach := by
    intro n
    rw [h.reach n]
    simp [or_and_right, exists_or, hzero]
  empty := by
    intro hnone v hv
    rcases List.mem_append.mp hv with hv | hv
    · exact h.empty hnone v hv
    · exact List.mem_singleton.mp hv ▸ hzero
  last := by
    intro v hv
    obtain ⟨hmem, hsized, hlatest⟩ := h.last v hv
    refine ⟨List.mem_append_left _ hmem, hsized, fun w hw hwsize => ?_⟩
    rcases List.mem_append.mp hw with hw | hw
    · exact hlatest w hw hwsize
    · exact absurd (List.mem_singleton.mp hw ▸ hzero) hwsize

/-- Any other unit may reach further, and starts last. -/
theorem Seen.extend (h : Seen before state) (hu : u.InWords) (hsize : u.size ≠ 0)
    (hsorted : ∀ v ∈ before, v.point ≤ u.point) :
    Seen (before ++ [u]) (max state.1 u.endPoint, some u) where
  reach := by
    intro n
    have hend := hu.toNat_endPoint
    have hreach : n < u.endPoint.toNat ↔ (n : Int) < u.point.toNat + u.size := by omega
    rw [lt_max_word, h.reach n, hreach]
    simp [or_and_right, exists_or, hsize]
  empty := by rintro ⟨⟩
  last := by
    rintro v ⟨⟩
    refine ⟨List.mem_append_right _ List.mem_cons_self, hsize, fun w hw _ => ?_⟩
    rcases List.mem_append.mp hw with hw | hw
    · exact hsorted w hw
    · exact List.mem_singleton.mp hw ▸ UInt32.le_refl _

theorem Seen.scan (h : Seen before state) (hu : u.InWords)
    (hsorted : ∀ v ∈ before, v.point ≤ u.point) : Seen (before ++ [u]) (scan state u) := by
  unfold Program.scan
  split
  · next hzero => exact h.skip hzero
  · next hsize => exact h.extend hu hsize hsorted

/-- **What the check keeps is what is known of the units**, if they are in the order of their
addresses. -/
theorem seen_of_sorted (hsorted : before.Pairwise fun u v => u.point ≤ v.point)
    (hwords : ∀ v ∈ before, v.InWords) : Seen before (seen before) := by
  -- from the end of the list, where the check comes to each unit after those before it
  induction before using List.reverseRecOn with
  | nil => exact ⟨by simp [seen], by simp, by simp [seen]⟩
  | append_singleton before u ih =>
    obtain ⟨hbefore, _, hlast⟩ := List.pairwise_append.mp hsorted
    have hseen := ih hbefore fun v hv => hwords v (List.mem_append_left _ hv)
    rw [seen, List.foldl_append]
    exact hseen.scan (hwords u (by simp)) fun v hv => hlast v hv u List.mem_cons_self

/-- A unit begins before the reach exactly if it shares an address with a unit before it. -/
theorem Seen.lt_reach_iff (h : Seen before state) (hu : u.InWords) (hsize : u.size ≠ 0)
    (hsorted : ∀ v ∈ before, v.point ≤ u.point) :
    u.point < state.1 ↔ ∃ v ∈ before, v.size ≠ 0 ∧ v.Meets u := by
  have hleast := hu.least
  have hpositive : 0 < u.size := by omega
  rw [UInt32.lt_iff_toNat_lt, h.reach]
  refine exists_congr fun v => and_congr_right fun hv => and_congr_right fun _ => ?_
  exact (CodeUnit.meets_of_le (hsorted v hv) hpositive).symm

/-- The units stand in the order of their addresses, and all of these are words of 32 bits. -/
structure Placed (p : Program) : Prop where
  sorted : p.units.Pairwise fun u v => u.point ≤ v.point
  words : ∀ u ∈ p.units, u.InWords

variable {p : Program} {after : List CodeUnit}

theorem Placed.inWords (h : p.Placed) (hsplit : p.units = before ++ u :: after) : u.InWords :=
  h.words u (by simp [hsplit])

theorem Placed.sorted_of_split (h : p.Placed) (hsplit : p.units = before ++ u :: after) :
    ∀ v ∈ before, v.point ≤ u.point := fun v hv =>
  (List.pairwise_append.mp (hsplit ▸ h.sorted)).2.2 v hv u List.mem_cons_self

theorem Placed.seen (h : p.Placed) (hsplit : p.units = before ++ u :: after) :
    Seen before (Program.seen before) :=
  seen_of_sorted (List.pairwise_append.mp (hsplit ▸ h.sorted)).1 fun v hv =>
    h.words v (hsplit ▸ List.mem_append_left _ hv)

theorem Placed.lt_reach_iff (h : p.Placed) (hsplit : p.units = before ++ u :: after)
    (hsize : u.size ≠ 0) :
    u.point < (Program.seen before).1 ↔ ∃ v ∈ before, v.size ≠ 0 ∧ v.Meets u :=
  (h.seen hsplit).lt_reach_iff (h.inWords hsplit) hsize (h.sorted_of_split hsplit)

/-- A unit that shares an address with one before it is warned of once, and the unit that is named
starts last of those before. -/
theorem Placed.warns (h : p.Placed) (hsplit : p.units = before ++ u :: after) (hsize : u.size ≠ 0)
    (hmeets : ∃ v ∈ before, v.size ≠ 0 ∧ v.Meets u) :
    ∃ last : CodeUnit, last.StartsLast before ∧
      (remarks before u).filter Finding.isOverlap = [u.overlapWarning last.point] := by
  have hseen := h.seen hsplit
  rw [remarks_eq, filter_checkFrom hsize, if_pos ((h.lt_reach_iff hsplit hsize).mpr hmeets)]
  cases hlast : (Program.seen before).2 with
  -- without a last unit there would be none that the unit could meet
  | none =>
    obtain ⟨v, hv, hvsize, _⟩ := hmeets
    exact absurd (hseen.empty hlast v hv) hvsize
  | some last => exact ⟨last, hseen.last last hlast, rfl⟩

theorem Placed.silent (h : p.Placed) (hsplit : p.units = before ++ u :: after) (hsize : u.size ≠ 0)
    (hfree : ¬ ∃ v ∈ before, v.size ≠ 0 ∧ v.Meets u) :
    (remarks before u).filter Finding.isOverlap = [] := by
  rw [remarks_eq, filter_checkFrom hsize, if_neg (mt (h.lt_reach_iff hsplit hsize).mp hfree)]

/-- The check warns of a unit with a size exactly if the unit shares an address with one before it,
and then once. What the check says is what it says of the units, one after the other. -/
structure OverlapsExact (p : Program) : Prop where
  whole : p.check = (visits [] p.units).flatMap fun visit => remarks visit.1 visit.2
  warned : ∀ before u after, p.units = before ++ u :: after → u.size ≠ 0 →
    ((∃ f ∈ remarks before u, f.isOverlap = true) ↔ ∃ v ∈ before, v.size ≠ 0 ∧ v.Meets u)
  once : ∀ before u after, p.units = before ++ u :: after → u.size ≠ 0 →
    (∃ v ∈ before, v.size ≠ 0 ∧ v.Meets u) →
    ∃ there, (remarks before u).filter Finding.isOverlap = [u.overlapWarning there]
  empty : ∀ before u after, p.units = before ++ u :: after → u.size = 0 → remarks before u = []

theorem Placed.overlapsExact (h : p.Placed) : p.OverlapsExact where
  whole := checkFrom_visits p.units []
  warned := by
    intro before u after hsplit hsize
    constructor
    · rintro ⟨f, hf, hoverlap⟩
      by_contra hfree
      have hmem := List.mem_filter.mpr ⟨hf, hoverlap⟩
      rw [h.silent hsplit hsize hfree] at hmem
      cases hmem
    · intro hmeets
      obtain ⟨last, _, hfilter⟩ := h.warns hsplit hsize hmeets
      exact ⟨_, List.mem_filter.mp (hfilter ▸ List.mem_cons_self)⟩
  once := by
    intro before u after hsplit hsize hmeets
    obtain ⟨last, _, hfilter⟩ := h.warns hsplit hsize hmeets
    exact ⟨last.point, hfilter⟩
  empty := fun _ _ _ _ => remarks_of_empty

/-- A unit that is warned of has a size, and what is named is where a unit that starts last is. -/
theorem Placed.startsLast_of_warning (h : p.Placed) (hsplit : p.units = before ++ u :: after)
    {there : UInt32} (hwarning : u.overlapWarning there ∈ remarks before u) :
    0 < u.size ∧ ∃ last : CodeUnit, last.StartsLast before ∧ last.point = there := by
  have hsize : u.size ≠ 0 := by
    intro hzero
    rw [remarks_of_empty hzero] at hwarning
    cases hwarning
  have hmeets := (h.overlapsExact.warned before u after hsplit hsize).mp ⟨_, hwarning, rfl⟩
  obtain ⟨last, hlast, hfilter⟩ := h.warns hsplit hsize hmeets
  have hmem : u.overlapWarning there ∈ (remarks before u).filter Finding.isOverlap :=
    List.mem_filter.mpr ⟨hwarning, rfl⟩
  rw [hfilter, List.mem_singleton] at hmem
  have hleast := (h.inWords hsplit).least
  exact ⟨by omega, last, hlast, (CodeUnit.overlapWarning_inj.mp hmem).symm⟩

end Program

/-! ## Sizes are natural numbers -/

/-- The unit has a size, and reserves no negative number of bytes. -/
structure CodeUnit.Natural (u : CodeUnit) : Prop where
  size : 0 ≤ u.size
  reserves : ∀ d, u.content = .data d → d.kind = .ds → 0 ≤ d.number

namespace CodeUnit

variable {u : CodeUnit} (settings : Settings)

theorem Natural.placeAt (h : u.Natural) (point : UInt32) : (u.placeAt point).Natural :=
  ⟨h.size, h.reserves⟩

theorem Natural.resolve (h : u.Natural) (value? : Text → Option UInt32) :
    (u.resolve value?).Natural := by
  rw [resolve_eq]
  refine ⟨h.size, fun d hd => h.reserves d ?_⟩
  cases hc : u.content with
  | data d' => rwa [hc] at hd
  | instruction name ops => simp [hc, Content.resolveBy] at hd

theorem Natural.size_recompile (h : u.Natural) : 0 ≤ (u.recompile settings).size := by
  cases hc : u.content with
  | data d =>
    by_cases hk : d.kind = .ds
    · rw [recompile_reservation hc hk]
      exact h.reserves d hc hk
    · rw [recompile_data hc hk]
      exact Int.natCast_nonneg _
  | instruction name ops =>
    cases hi : instruction? name with
    | none =>
      rw [recompile_unknown hc hi]
      exact h.size
    | some i =>
      rw [recompile_known hc hi]
      cases (i.encode ⟨settings, u.point, name⟩ ops).result with
      | none => exact h.size
      | some code => exact Int.natCast_nonneg _

theorem Natural.compile (h : u.Natural) : (u.compile settings).Natural := by
  refine ⟨?_, fun d hd => h.reserves d (compile_content settings u ▸ hd)⟩
  unfold CodeUnit.compile
  split
  · exact h.size
  · exact h.size_recompile settings

end CodeUnit

theorem Layout.natural_pass {settings : Settings} {units : List CodeUnit}
    (h : ∀ u ∈ units, u.Natural) : ∀ v ∈ passWith (CodeUnit.compile settings) units, v.Natural := by
  intro v hv
  rw [passWith_eq] at hv
  obtain ⟨w, hw, rfl⟩ := List.mem_map.mp hv
  obtain ⟨u, hu, here, rfl⟩ := mem_placeFrom hw
  exact (((h u hu).placeAt here).resolve _).compile settings

theorem natural_segment {tokens : List Token}
    (hreserves : ∀ d, .directive d ∈ tokens → d.kind = .ds → 0 ≤ d.number) :
    ∀ u ∈ (segment tokens).units, u.Natural := by
  refine forall_segment (fun op _ hu => ⟨hu.size, by simp⟩) fun t ht u hu => ?_
  cases hu with
  | instruction m => exact ⟨Int.le_refl 0, by simp⟩
  | data =>
    refine ⟨Int.le_refl 0, fun d hd => hreserves d ?_⟩
    cases hd
    exact ht

/-- The reader makes no directive with a negative number. -/
theorem reserves_readSource (path : Text) (lines : List Text) :
    ∀ d, .directive d ∈ (readSource path lines).reading.tokens → d.kind = .ds → 0 ≤ d.number :=
  fun _ hd _ => (sized_readSource (n := lines.flatten.length)
    (fun _ hline => (List.sublist_flatten_of_mem hline).length_le) hd).least

/-- A program whose units do not end past the addresses has them where the check looks. -/
theorem Assembly.placed_of_ok {settings : Settings} {tokens : List Token} {report : Report}
    {p : Program} (h : (assemble settings tokens report).program = .ok p)
    (hreserves : ∀ d, .directive d ∈ tokens → d.kind = .ds → 0 ≤ d.number)
    (hends : ∀ u ∈ p.units, u.point.toNat + u.size < 4294967296) : p.Placed := by
  obtain ⟨units, hrun, rfl, _⟩ := assemble_ok h
  obtain ⟨last, hlast, hfinal, _⟩ := Layout.passes_settled (∀ u ∈ ·, u.Natural)
    (fun _ => Layout.natural_pass) _ _ (natural_segment hreserves) hrun
  refine ⟨Program.pairwise_units units, fun u hu => ⟨?_, hends u hu⟩⟩
  rw [Program.mem_ofUnits, hfinal] at hu
  exact (Layout.natural_pass hlast u hu).size

/-! ## Overlaps of assembled programs -/

/-- **The check finds exactly the overlaps.** If no unit of a program ends past the addresses, the
check warns of a unit with a size exactly if the unit shares an address with a unit with a size that
stands before it, and it warns of it once. -/
theorem assemble_overlaps (settings : Settings) (tokens : List Token) (report : Report)
    (p : Program) (h : (Assembly.assemble settings tokens report).program = .ok p)
    (hreserves : ∀ d, .directive d ∈ tokens → d.kind = .ds → 0 ≤ d.number)
    (hends : ∀ u ∈ p.units, u.point.toNat + u.size < 4294967296) : p.OverlapsExact :=
  (Assembly.placed_of_ok h hreserves hends).overlapsExact

/-- What can be computed of settled units in the order of their addresses, and of one of them after
those before it, is known of the program. -/
theorem Assembly.exists_visit (settings : Settings) (tokens : List Token) (n : Nat)
    (known : List CodeUnit → CodeUnit → Bool)
    (h : (Layout.run settings (segment tokens).units).settled?.any (fun units =>
      decide (units.Pairwise fun u v => u.point ≤ v.point) &&
        (decide (∀ u ∈ units, (u.point.toNat : Int) + u.size < 4294967296) &&
          units[n]?.any (known (units.take n)))) = true) :
    ∃ p, (assemble settings tokens {}).program = .ok p ∧
      (∀ u ∈ p.units, u.point.toNat + u.size < 4294967296) ∧
      ∃ before u after, p.units = before ++ u :: after ∧ known before u = true := by
  obtain ⟨p, hp, hknown, _⟩ := exists_sorted settings tokens {} (fun units =>
    decide (∀ u ∈ units, (u.point.toNat : Int) + u.size < 4294967296) &&
      units[n]?.any (known (units.take n))) h
  rw [Bool.and_eq_true, decide_eq_true_eq, Option.any_eq_true] at hknown
  obtain ⟨hends, u, hu, hvisit⟩ := hknown
  obtain ⟨hlt, rfl⟩ := List.getElem?_eq_some_iff.mp hu
  refine ⟨p, hp, hends, p.units.take n, _, p.units.drop (n + 1), ?_, hvisit⟩
  rw [← List.drop_eq_getElem_cons hlt, List.take_append_drop]

/-- Two instructions in space that is reserved, and one behind it. -/
def nested : List Text :=
  [Text.ofString ".org 0", Text.ofString ".ds 16", Text.ofString ".org 2", Text.ofString "nop",
    Text.ofString ".org 5", Text.ofString "nop", Text.ofString ".org 20", Text.ofString "nop"]

theorem assemble_overlaps_nested : ∃ p,
    (Assembly.assemble {} (readSource [] nested).reading.tokens {}).program = .ok p ∧
    (∀ u ∈ p.units, u.point.toNat + u.size < 4294967296) ∧
    (∃ before u after, p.units = before ++ u :: after ∧ u.size ≠ 0 ∧
      ∃ v ∈ before, v.size ≠ 0 ∧ v.Meets u) ∧
    p.OverlapsExact := by
  obtain ⟨p, hp, hends, before, u, after, hsplit, hvisit⟩ := Assembly.exists_visit {}
    (readSource [] nested).reading.tokens 2
    (fun before u => decide (u.size ≠ 0 ∧ ∃ v ∈ before, v.size ≠ 0 ∧ v.Meets u))
    (by decide +kernel)
  exact ⟨p, hp, hends, ⟨before, u, after, hsplit, of_decide_eq_true hvisit⟩,
    assemble_overlaps {} _ {} p hp (reserves_readSource [] nested) hends⟩

/-- **When the check names the right unit.** The address that is named is where the last unit with a
size starts. A unit there shares an address with the one that is warned of exactly if one of those
that start there reaches it. -/
theorem assemble_named_overlap (settings : Settings) (tokens : List Token) (report : Report)
    (p : Program) (h : (Assembly.assemble settings tokens report).program = .ok p)
    (hreserves : ∀ d, .directive d ∈ tokens → d.kind = .ds → 0 ≤ d.number)
    (hends : ∀ u ∈ p.units, u.point.toNat + u.size < 4294967296)
    (before : List CodeUnit) (u : CodeUnit) (after : List CodeUnit)
    (hsplit : p.units = before ++ u :: after) (there : UInt32)
    (hwarning : u.overlapWarning there ∈ Program.remarks before u) :
    (∃ v : CodeUnit, v.StartsLast before ∧ v.point = there) ∧
      ((∃ v ∈ before, v.size ≠ 0 ∧ v.point = there ∧ v.Meets u) ↔
        ∃ v : CodeUnit, v.StartsLast before ∧ (u.point.toNat : Int) < v.point.toNat + v.size) := by
  have hplaced := Assembly.placed_of_ok h hreserves hends
  have hsorted := hplaced.sorted_of_split hsplit
  obtain ⟨hsize, last, hlast, rfl⟩ := hplaced.startsLast_of_warning hsplit hwarning
  refine ⟨⟨last, hlast, rfl⟩, ?_, ?_⟩
  · rintro ⟨v, hv, hvsize, hpoint, hmeets⟩
    exact ⟨v, ⟨hv, hvsize, hpoint ▸ hlast.latest⟩,
      (CodeUnit.meets_of_le (hsorted v hv) hsize).mp hmeets⟩
  · rintro ⟨v, hv, hreaches⟩
    have hpoint : v.point = last.point :=
      UInt32.le_antisymm (hlast.latest v hv.mem hv.sized) (hv.latest last hlast.mem hlast.sized)
    exact ⟨v, hv.mem, hv.sized, hpoint,
      (CodeUnit.meets_of_le (hsorted v hv.mem) hsize).mpr hreaches⟩

theorem assemble_named_overlap_nested : ∃ p,
    (Assembly.assemble {} (readSource [] nested).reading.tokens {}).program = .ok p ∧
    (∀ u ∈ p.units, u.point.toNat + u.size < 4294967296) ∧
    ∃ before u after, p.units = before ++ u :: after ∧
      u.overlapWarning 0 ∈ Program.remarks before u ∧
      (∃ v : CodeUnit, v.StartsLast before ∧ v.point = 0) ∧
      ((∃ v ∈ before, v.size ≠ 0 ∧ v.point = 0 ∧ v.Meets u) ↔
        ∃ v : CodeUnit, v.StartsLast before ∧
          (u.point.toNat : Int) < v.point.toNat + v.size) := by
  obtain ⟨p, hp, hends, before, u, after, hsplit, hvisit⟩ := Assembly.exists_visit {}
    (readSource [] nested).reading.tokens 1
    (fun before u => decide (u.overlapWarning 0 ∈ Program.remarks before u)) (by decide +kernel)
  have hwarning := of_decide_eq_true hvisit
  exact ⟨p, hp, hends, before, u, after, hsplit, hwarning,
    assemble_named_overlap {} _ {} p hp (reserves_readSource [] nested) hends before u after hsplit
      0 hwarning⟩

/-- **The check can name a unit that has nothing to do with the overlap.** The second instruction is
said to overlap the first, but lies in the reserved space only. -/
theorem unrelated_overlap : ∃ p,
    (Assembly.assemble {} (readSource [] nested).reading.tokens {}).program = .ok p ∧
    (∀ u ∈ p.units, u.point.toNat + u.size < 4294967296) ∧
    ∃ before u after, p.units = before ++ u :: after ∧
      u.overlapWarning 2 ∈ Program.remarks before u ∧
      ¬ ∃ v ∈ before, v.size ≠ 0 ∧ v.point = 2 ∧ v.Meets u := by
  obtain ⟨p, hp, hends, before, u, after, hsplit, hvisit⟩ := Assembly.exists_visit {}
    (readSource [] nested).reading.tokens 2
    (fun before u => decide (u.overlapWarning 2 ∈ Program.remarks before u ∧
      ¬ ∃ v ∈ before, v.size ≠ 0 ∧ v.point = 2 ∧ v.Meets u)) (by decide +kernel)
  exact ⟨p, hp, hends, before, u, after, hsplit, of_decide_eq_true hvisit⟩

end Mcs51
