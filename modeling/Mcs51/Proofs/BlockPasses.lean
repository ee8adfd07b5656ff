import Mcs51.Proofs.SegmentBlocks
import Mcs51.Proofs.SettledLayout

/-!
# Passes over blocks

A pass places the units of a block from the origins of its own segments, whatever blocks stand
before it; only the addresses of labels come from all blocks. Passes over the same blocks in another
order therefore do the same to each block, and settle together.

* `Block.passWith_join` — a pass over blocks is a pass over each block
* `Block.pass_perm` — the order of blocks does not change what a pass does to a block
* `Block.passes_perm` — blocks in another order settle together, as the same blocks
-/

namespace Mcs51

/-! ## Numbers of segments do not matter -/

namespace CodeUnit

variable (k : Nat) (u : CodeUnit)

theorem compile_shift (settings : Settings) :
    (u.shift k).compile settings = (u.compile settings).shift k := by
  have hstatic : (u.shift k).isStatic = u.isStatic := rfl
  have hcontent : (u.shift k).content = u.content := rfl
  simp only [compile, hstatic]
  split
  · rfl
  · cases hc : u.content with
    | data d =>
      by_cases hk : d.kind = .ds
      · rw [recompile_reservation (hcontent.trans hc) hk, recompile_reservation hc hk]
        rfl
      · rw [recompile_data (hcontent.trans hc) hk, recompile_data hc hk]
        rfl
    | instruction name ops =>
      cases hi : instruction? name with
      | none =>
        rw [recompile_unknown (hcontent.trans hc) hi, recompile_unknown hc hi]
        rfl
      | some i =>
        rw [recompile_known (hcontent.trans hc) hi, recompile_known hc hi]
        rfl

theorem finish_shift (settings : Settings) (known : List (Text × UInt32)) :
    Layout.finish settings known (u.shift k) = (Layout.finish settings known u).shift k := by
  simp only [Layout.finish, resolve_eq]
  exact compile_shift k { u with content := u.content.resolveBy fun name => known.lookup name }
    settings

end CodeUnit

namespace Layout

open CodeUnit (shift)

theorem placeFrom_shift (k : Nat) : ∀ (units : List CodeUnit) (segment? : Option Nat)
    (point : UInt32), placeFrom (segment?.map (· + k)) point (units.map (shift k))
      = (placeFrom segment? point units).map (shift k)
  | [], _, _ => rfl
  | u :: units, segment?, point => by
    have hsegment : (segment?.map (· + k) = some (u.shift k).segment)
        ↔ segment? = some u.segment := by
      cases segment? with
      | none => simp
      | some m => simp [shift]
    have ih := placeFrom_shift k units (some u.segment)
      ((if segment? = some u.segment then point else u.origin) + toWord u.size)
    simp only [List.map_cons, placeFrom, hsegment]
    exact congrArg _ ih

/-- Units of other segments than the open one are placed as if there was none. -/
theorem placeFrom_other {units : List CodeUnit} {segment? : Option Nat}
    (h : ∀ u ∈ units, segment? ≠ some u.segment) (point : UInt32) :
    placeFrom segment? point units = place units := by
  cases units with
  | nil => rfl
  | cons u units => simp [place, placeFrom, h u List.mem_cons_self]

/-- Placing goes on after units with the segment of one of them, or with the one before. -/
theorem placeFrom_append : ∀ (units later : List CodeUnit) (segment? : Option Nat) (point : UInt32),
    ∃ next? here, placeFrom segment? point (units ++ later)
        = placeFrom segment? point units ++ placeFrom next? here later ∧
      (next? = segment? ∨ ∃ u ∈ units, next? = some u.segment)
  | [], later, segment?, point => ⟨segment?, point, rfl, .inl rfl⟩
  | u :: units, later, segment?, point => by
    obtain ⟨next?, here, happend, hnext⟩ := placeFrom_append units later (some u.segment)
      ((if segment? = some u.segment then point else u.origin) + toWord u.size)
    refine ⟨next?, here, ?_, .inr ?_⟩
    · simp only [List.cons_append, placeFrom, happend]
    · rcases hnext with hu | ⟨v, hv, hnext⟩
      · exact ⟨u, List.mem_cons_self, hu⟩
      · exact ⟨v, List.mem_cons_of_mem u hv, hnext⟩

theorem length_place (units : List CodeUnit) : (place units).length = units.length := by
  have h := map_placeFrom (f := CodeUnit.size) (fun _ _ => rfl) units none 0
  simpa [place] using congrArg List.length h

theorem changes_append {before after : List CodeUnit} (before' after' : List CodeUnit)
    (h : before.length = after.length) :
    changes (before ++ before') (after ++ after')
      = changes before after + changes before' after' := by
  rw [changes, List.zip_append h, List.countP_append, changes, changes]

end Layout

namespace Block

open CodeUnit (shift)
open Layout (finish)

/-! ## What does not depend on the segment -/

/-- What does not depend on the numbers of segments is there block by block. -/
theorem flatMap_join {α : Type} {f : CodeUnit → List α} (hf : ∀ k u, f (u.shift k) = f u) :
    ∀ (k : Nat) (blocks : List Block),
      (join k blocks).flatMap f = blocks.flatMap fun b => b.units.flatMap f
  | _, [] => rfl
  | k, b :: blocks => by
    have hshift : (b.units.map (shift k)).flatMap f = b.units.flatMap f := by
      rw [List.flatMap_map, funext fun u => hf k u]
    rw [join, List.flatMap_append, flatMap_join hf, List.flatMap_cons, hshift]

theorem map_join {α : Type} {f : CodeUnit → α} (hf : ∀ k u, f (u.shift k) = f u) (k : Nat)
    (blocks : List Block) : (join k blocks).map f = blocks.flatMap fun b => b.units.map f := by
  simp only [List.map_eq_flatMap]
  exact flatMap_join (fun k u => by rw [hf k u]) k blocks

theorem labels_join (k : Nat) (blocks : List Block) :
    Layout.labels (join k blocks) = blocks.flatMap fun b => Layout.labels b.units :=
  flatMap_join (fun _ _ => rfl) k blocks

/-- The names of the labels of blocks. -/
def names (blocks : List Block) : List Text := blocks.flatMap fun b => labelNames b.units

theorem labelNames_join (k : Nat) (blocks : List Block) :
    labelNames (join k blocks) = names blocks :=
  flatMap_join (fun _ _ => rfl) k blocks

/-! ## One pass -/

/-- What a pass does to a block, where the addresses of labels are known. -/
def pass (settings : Settings) (table : List (Text × UInt32)) (b : Block) : Block :=
  { b with units := (Layout.place b.units).map (finish settings table) }

/-- What is known of the labels of blocks once units are placed. -/
def known (blocks : List Block) : List (Text × UInt32) :=
  blocks.flatMap fun b => Layout.labels (Layout.place b.units)

theorem Numbered.pass {b : Block} (h : b.Numbered) (settings : Settings)
    (table : List (Text × UInt32)) : (b.pass settings table).Numbered := by
  intro v hv
  obtain ⟨w, hw, rfl⟩ := List.mem_map.mp hv
  obtain ⟨u, hu, point, rfl⟩ := Layout.mem_placeFrom hw
  rw [Layout.finish_segment]
  exact h u hu

/-- Each block is placed on its own. -/
theorem placeFrom_join : ∀ {blocks : List Block} {k : Nat} {segment? : Option Nat} (point : UInt32),
    (∀ b ∈ blocks, b.Numbered) → (∀ m ∈ segment?, m ≤ k) →
      Layout.placeFrom segment? point (join k blocks)
        = join k (blocks.map fun b => { b with units := Layout.place b.units })
  | [], _, _, _, _, _ => rfl
  | b :: blocks, k, segment?, point, hnumbered, hopen => by
    have hb := hnumbered b List.mem_cons_self
    obtain ⟨next?, here, happend, hnext⟩ := Layout.placeFrom_append (b.units.map (shift k))
      (join (k + b.segments) blocks) segment? point
    have hother : ∀ u ∈ b.units.map (shift k), segment? ≠ some u.segment := by
      intro u hu hsame
      obtain ⟨v, hv, rfl⟩ := List.mem_map.mp hu
      have hle := hopen _ hsame
      have hpos := (hb v hv).1
      simp only [shift] at hle
      omega
    have hplace : Layout.place (b.units.map (shift k)) = (Layout.place b.units).map (shift k) :=
      Layout.placeFrom_shift k b.units none 0
    have hlater : ∀ m ∈ next?, m ≤ k + b.segments := by
      intro m hm
      rcases hnext with rfl | ⟨u, hu, rfl⟩
      · exact Nat.le_add_right_of_le (hopen m hm)
      · obtain ⟨v, hv, rfl⟩ := List.mem_map.mp hu
        cases hm
        have hmost := (hb v hv).2
        simp only [shift]
        omega
    rw [join, happend, Layout.placeFrom_other hother, hplace,
      placeFrom_join here (fun c hc => hnumbered c (List.mem_cons_of_mem b hc)) hlater]
    rfl

theorem map_finish_join (settings : Settings) (table : List (Text × UInt32)) :
    ∀ (k : Nat) (blocks : List Block), (join k blocks).map (finish settings table)
      = join k (blocks.map fun b => { b with units := b.units.map (finish settings table) })
  | _, [] => rfl
  | k, b :: blocks => by
    rw [join, List.map_append, map_finish_join settings table, List.map_cons, join, List.map_map,
      List.map_map]
    congr 1
    exact List.map_congr_left fun u _ => u.finish_shift k settings table

/-- **A pass over blocks is a pass over each block.** -/
theorem passWith_join (settings : Settings) {blocks : List Block} (h : ∀ b ∈ blocks, b.Numbered)
    (k : Nat) :
    Layout.passWith (CodeUnit.compile settings) (join k blocks)
      = join k (blocks.map (pass settings (known blocks))) := by
  have hplace : Layout.place (join k blocks)
      = join k (blocks.map fun b => { b with units := Layout.place b.units }) :=
    placeFrom_join 0 h (by simp)
  rw [Layout.passWith_eq, hplace, labels_join, map_finish_join, List.map_map, List.flatMap_map]
  rfl

/-- A pass changes no size exactly if it changes none in any block. -/
theorem changes_join {f : Block → Block} : ∀ {blocks : List Block} (k : Nat),
    (∀ b ∈ blocks, (f b).segments = b.segments ∧ (f b).units.length = b.units.length) →
      (Layout.changes (join k blocks) (join k (blocks.map f)) = 0 ↔
        ∀ b ∈ blocks, Layout.changes b.units (f b).units = 0)
  | [], _, _ => by simp [join, Layout.changes]
  | b :: blocks, k, h => by
    obtain ⟨hsegments, hlength⟩ := h b List.mem_cons_self
    have ih := changes_join (k + b.segments) fun c hc => h c (List.mem_cons_of_mem b hc)
    have hshift : Layout.changes (b.units.map (shift k)) ((f b).units.map (shift k))
        = Layout.changes b.units (f b).units := by
      rw [Layout.changes, List.zip_map, List.countP_map]
      rfl
    rw [List.map_cons, join, join, hsegments, Layout.changes_append _ _ (by simp [hlength]), hshift,
      Nat.add_eq_zero_iff, ih, List.forall_mem_cons]

/-! ## Blocks in another order -/

theorem labelNames_place (units : List CodeUnit) :
    labelNames (Layout.place units) = labelNames units :=
  congrArg List.flatten (Layout.map_placeFrom (f := fun u : CodeUnit => u.labels.map Label.name)
    (fun u point => by simp [CodeUnit.placeAt, Function.comp_def]) units none 0)

theorem labelNames_pass (settings : Settings) (table : List (Text × UInt32)) (b : Block) :
    labelNames (b.pass settings table).units = labelNames b.units := by
  rw [pass, labelNames, List.flatMap_map]
  simp only [Layout.finish_labels]
  exact labelNames_place b.units

theorem names_pass (settings : Settings) (table : List (Text × UInt32)) (blocks : List Block) :
    names (blocks.map (pass settings table)) = names blocks := by
  simp only [names, List.flatMap_map, labelNames_pass]

theorem map_fst_known (blocks : List Block) : (known blocks).map Prod.fst = names blocks := by
  simp only [known, names, List.map_flatMap, Layout.map_fst_labels, labelNames_place]

/-- A table in another order knows the same, if no name is in it twice. -/
theorem lookup_perm {table table' : List (Text × UInt32)} (hperm : table.Perm table')
    (hnodup : (table.map Prod.fst).Nodup) (name : Text) :
    table.lookup name = table'.lookup name := by
  cases h : table.lookup name with
  | some address =>
    have hmem : (name, address) ∈ table := by
      obtain ⟨before, after, rfl, _⟩ := List.lookup_eq_some_iff.mp h
      exact List.mem_append_right _ List.mem_cons_self
    have hnodup' : (table'.map Prod.fst).Nodup := (hperm.map Prod.fst).nodup_iff.mp hnodup
    exact (Layout.lookup_of_mem hnodup' (hperm.mem_iff.mp hmem)).symm
  | none =>
    rw [List.lookup_eq_none_iff] at h
    symm
    rw [List.lookup_eq_none_iff]
    exact fun entry hentry => h entry (hperm.mem_iff.mpr hentry)

/-- **The order of blocks does not change what a pass does to a block.** -/
theorem pass_perm (settings : Settings) {blocks blocks' : List Block} (hperm : blocks.Perm blocks')
    (hnodup : (names blocks).Nodup) :
    pass settings (known blocks) = pass settings (known blocks') := by
  have hlookup : (fun name => (known blocks).lookup name)
      = fun name => (known blocks').lookup name :=
    funext (lookup_perm (hperm.flatMap_right _) (map_fst_known blocks ▸ hnodup))
  have hfinish : finish settings (known blocks) = finish settings (known blocks') := by
    funext u
    rw [finish, finish, hlookup]
  funext b
  rw [pass, pass, hfinish]

/-- **Blocks in another order settle together**, as the same blocks. -/
theorem passes_perm (settings : Settings) : ∀ (limit : Nat) {blocks blocks' : List Block},
    (∀ b ∈ blocks, b.Numbered) → (names blocks).Nodup → blocks.Perm blocks' →
      ((Layout.passes (CodeUnit.compile settings) limit (join 0 blocks)).settled? = none ∧
        (Layout.passes (CodeUnit.compile settings) limit (join 0 blocks')).settled? = none) ∨
      ∃ final final', final.Perm final' ∧ (names final).Nodup ∧
        (Layout.passes (CodeUnit.compile settings) limit (join 0 blocks)).settled?
          = some (join 0 final) ∧
        (Layout.passes (CodeUnit.compile settings) limit (join 0 blocks')).settled?
          = some (join 0 final')
  | 0, _, _, _, _, _ => .inl ⟨rfl, rfl⟩
  | limit + 1, blocks, blocks', hnumbered, hnodup, hperm => by
    have hnumbered' : ∀ b ∈ blocks', b.Numbered := fun b hb => hnumbered b (hperm.mem_iff.mpr hb)
    have hpass := pass_perm settings hperm hnodup
    have hkeeps : ∀ b : Block, (b.pass settings (known blocks)).segments = b.segments ∧
        (b.pass settings (known blocks)).units.length = b.units.length :=
      fun b => ⟨rfl, by rw [pass, List.length_map, Layout.length_place]⟩
    have hnext := hperm.map (pass settings (known blocks))
    have hnextNodup : (names (blocks.map (pass settings (known blocks)))).Nodup := by
      rwa [names_pass]
    -- a size changes in one order exactly if it changes in the other
    have hchanges := @changes_join (pass settings (known blocks)) blocks 0 fun b _ => hkeeps b
    have hchanges' := @changes_join (pass settings (known blocks)) blocks' 0 fun b _ => hkeeps b
    have hsame : (∀ b ∈ blocks, Layout.changes b.units (b.pass settings (known blocks)).units = 0)
        ↔ ∀ b ∈ blocks', Layout.changes b.units (b.pass settings (known blocks)).units = 0 :=
      forall_congr' fun b => imp_congr_left hperm.mem_iff
    simp only [Layout.passes, passWith_join settings hnumbered, passWith_join settings hnumbered',
      ← hpass, hchanges, hchanges', ← hsame]
    split
    · exact .inr ⟨_, _, hnext, hnextNodup, rfl, rfl⟩
    · refine passes_perm settings limit ?_ hnextNodup hnext
      intro b hb
      obtain ⟨c, hc, rfl⟩ := List.mem_map.mp hb
      exact (hnumbered c hc).pass settings _

end Block

end Mcs51
