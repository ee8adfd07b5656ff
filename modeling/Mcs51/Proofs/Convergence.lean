import Mcs51.Proofs.FixedLengths
import Mcs51.Proofs.SettledLayout

/-!
# Layout of fixed-length programs settles

Without a register bank and without generic jumps and calls, what a unit occupies is decided by its
own tokens. Encoding can still fail and succeed again while labels move. A unit that fails keeps its
size, so a size changes at most once, and only from nothing. A pass that changes sizes leaves fewer
units without one; that bounds the number of passes by the number of units.

* `Content.ownSize` — the size that a unit has or gets
* `CodeUnit.grows_compile` — what compiling does to a size
* `Layout.grows_after` — what passes do to all sizes
* `Layout.changes_add_unsized` — the measure that a pass lowers
* `assemble_converges` — sizes change at most once, and few passes suffice
-/

namespace Mcs51

/-! ## The size that the tokens of a unit decide -/

/-- The number of bytes that the tokens of a unit stand for, where they can be encoded. Neither an
address nor the value of a symbol is part of it. -/
def Content.ownSize : Content → Int
  | .data d => if d.kind == .ds then d.number else d.bytes.length
  | .instruction name ops =>
    match CodeUnit.instruction? name with
    | some i => i.family.length ((ops.take i.most).map Operand.form)
    | none => 0

/-- The content is data, or an instruction that does not choose its length. -/
def Content.isFixed : Content → Bool
  | .data _ => true
  | .instruction name _ => (CodeUnit.instruction? name).all (·.family.isFixed)

@[simp] theorem Form.width_bare (form : Form) : form.bare.width = form.width := by
  cases form <;> rfl

@[simp] theorem Form.inOpcode_bare (form : Form) : form.bare.inOpcode = form.inOpcode := by
  cases form <;> rfl

theorem Form.bare_beq_reserved (form : Form) (r : Reserved) :
    (form.bare == .reserved r) = (form == .reserved r) := by
  cases form <;> rfl

/-- The values of symbols are no part of a length. -/
theorem Family.length_bare (f : Family) (forms : List Form) :
    f.length (forms.map Form.bare) = f.length forms := by
  match forms with
  | [] => rfl
  | [form] =>
    have hwidth := form.width_bare
    cases f with
    | arithmetic _ | logical _ _ | move | exchange => exact congrArg (1 + ·) hwidth
    | countJump => exact congrArg (2 + ·) hwidth
    | bitwise _ _ _ =>
      show (if form.bare.inOpcode then 1 else 1 + form.bare.width) = _
      rw [form.inOpcode_bare, hwidth]
      rfl
    | counting _ _ =>
      show (if form.bare.inOpcode || form.bare == .reserved .dptr then 1
        else 1 + form.bare.width) = _
      rw [form.inOpcode_bare, form.bare_beq_reserved, hwidth]
      rfl
    | _ => rfl
  | [dst, src] =>
    have hpair : pairLength dst.bare src.bare = pairLength dst src := by
      simp only [pairLength, Form.inOpcode_bare, Form.width_bare]
    cases f with
    | arithmetic _ | logical _ _ | move | exchange => exact hpair
    | countJump => exact congrArg (2 + ·) dst.width_bare
    | _ => rfl
  | first :: _ :: _ :: _ =>
    cases f with
    | countJump => exact congrArg (2 + ·) first.width_bare
    | _ => rfl

theorem Content.ownSize_bare (content : Content) : content.bare.ownSize = content.ownSize := by
  cases content with
  | data d => rfl
  | instruction name ops =>
    simp only [bare, ownSize]
    cases CodeUnit.instruction? name with
    | none => rfl
    | some i =>
      have hforms : ((ops.map Operand.bare).take i.most).map Operand.form
          = ((ops.take i.most).map Operand.form).map Form.bare := by
        rw [← List.map_take, List.map_map, List.map_map]
        rfl
      simp only [hforms, Family.length_bare]

/-- Resolution does not change the size that the tokens decide. -/
@[simp] theorem Content.ownSize_resolveBy (value? : Text → Option UInt32) (content : Content) :
    (content.resolveBy value?).ownSize = content.ownSize := by
  rw [← ownSize_bare, bare_resolveBy, ownSize_bare]

@[simp] theorem Content.isFixed_resolveBy (value? : Text → Option UInt32) (content : Content) :
    (content.resolveBy value?).isFixed = content.isFixed := by
  cases content <;> rfl

namespace CodeUnit

/-! ## Units grow once -/

/-- The second unit is the first after some passes: it has the same tokens, and the size it had or,
if it had none, the size that its tokens decide. -/
structure Grows (u v : CodeUnit) : Prop where
  ownSize : v.content.ownSize = u.content.ownSize
  isFixed : v.content.isFixed = u.content.isFixed
  size : v.size = u.size ∨ u.size = 0 ∧ v.size = u.content.ownSize

theorem Grows.refl (u : CodeUnit) : u.Grows u := ⟨rfl, rfl, .inl rfl⟩

theorem Grows.trans {u v w : CodeUnit} (huv : u.Grows v) (hvw : v.Grows w) : u.Grows w where
  ownSize := hvw.ownSize.trans huv.ownSize
  isFixed := hvw.isFixed.trans huv.isFixed
  size := by
    have hown := huv.ownSize
    rcases hvw.size with hsame | ⟨hzero, hsize⟩
    · rw [hsame]
      exact huv.size
    · -- the unit had no size before either
      have hnone : u.size = 0 := by
        rcases huv.size with hsame | ⟨hnone, _⟩
        · exact hsame ▸ hzero
        · exact hnone
      exact .inr ⟨hnone, hsize.trans hown⟩

/-- The unit cannot choose its length, and has no other size than its tokens decide. -/
structure Fixed (u : CodeUnit) : Prop where
  isFixed : u.content.isFixed = true
  size : u.size = 0 ∨ u.size = u.content.ownSize

theorem Fixed.grows {u v : CodeUnit} (h : u.Fixed) (hgrows : u.Grows v) : v.Fixed where
  isFixed := hgrows.isFixed.trans h.isFixed
  size := by
    rw [hgrows.ownSize]
    rcases hgrows.size with hsame | ⟨_, hsize⟩
    · rw [hsame]
      exact h.size
    · exact .inr hsize

/-- Compiling a unit leaves its size or gives it the size that its tokens decide. -/
theorem size_compile {settings : Settings} (hbank : settings.bank = none) {u : CodeUnit}
    (h : u.content.isFixed = true) :
    (u.compile settings).size = u.size ∨ (u.compile settings).size = u.content.ownSize := by
  unfold compile
  split
  · exact .inl rfl
  · cases hc : u.content with
    | data d =>
      right
      by_cases hk : d.kind = .ds
      · rw [recompile_reservation hc hk, Content.ownSize, if_pos (beq_iff_eq.mpr hk)]
      · rw [recompile_data hc hk, Content.ownSize, if_neg (by simpa using hk)]
    | instruction name ops =>
      cases hi : instruction? name with
      | none =>
        rw [recompile_unknown hc hi]
        exact .inl rfl
      | some i =>
        have hfixed : i.family.isFixed = true := by
          simpa [Content.isFixed, hc, hi] using h
        rw [recompile_known hc hi]
        cases hresult : (i.encode ⟨settings, u.point, name⟩ ops).result with
        | none => exact .inl rfl
        | some code =>
          right
          simp [Content.ownSize, hi, Instruction.length_encode hfixed hbank hresult]

/-- **A pass lets a unit grow.** -/
theorem Fixed.grows_finish {settings : Settings} (hbank : settings.bank = none) {u : CodeUnit}
    (h : u.Fixed) (known : List (Text × UInt32)) (point : UInt32) :
    u.Grows (Layout.finish settings known (u.placeAt point)) := by
  have hown : ((u.placeAt point).resolve fun name => known.lookup name).content.ownSize
      = u.content.ownSize := by
    simp [resolve_eq, placeAt]
  have hfixed : ((u.placeAt point).resolve fun name => known.lookup name).content.isFixed
      = u.content.isFixed := by
    simp [resolve_eq, placeAt]
  have hsize : ((u.placeAt point).resolve fun name => known.lookup name).size = u.size := by
    simp [resolve_eq, placeAt]
  constructor
  · rw [Layout.finish, compile_content, hown]
  · rw [Layout.finish, compile_content, hfixed]
  · have hcompile := size_compile hbank (hfixed.trans h.isFixed)
    rw [hsize, hown] at hcompile
    rcases hcompile with hsame | hnew
    · exact .inl hsame
    · rcases h.size with hzero | hold
      · exact .inr ⟨hzero, hnew⟩
      · exact .inl (hnew.trans hold.symm)

end CodeUnit

namespace Layout

open CodeUnit

/-! ## Passes -/

/-- The units after a number of passes. -/
def after (settings : Settings) : Nat → List CodeUnit → List CodeUnit
  | 0, units => units
  | passes + 1, units => after settings passes (passWith (CodeUnit.compile settings) units)

variable {settings : Settings}

theorem grows_placeFrom (hbank : settings.bank = none) (known : List (Text × UInt32)) :
    ∀ (units : List CodeUnit) (segment? : Option Nat) (point : UInt32), (∀ u ∈ units, u.Fixed) →
      List.Forall₂ Grows units ((placeFrom segment? point units).map (finish settings known))
  | [], _, _, _ => .nil
  | u :: units, _, _, h =>
    .cons ((h u List.mem_cons_self).grows_finish hbank known _)
      (grows_placeFrom hbank known units _ _ fun v hv => h v (List.mem_cons_of_mem u hv))

/-- **A pass lets every unit grow.** -/
theorem grows_pass (hbank : settings.bank = none) {units : List CodeUnit}
    (h : ∀ u ∈ units, u.Fixed) :
    List.Forall₂ Grows units (passWith (CodeUnit.compile settings) units) := by
  rw [passWith_eq]
  exact grows_placeFrom hbank _ units none 0 h

theorem fixed_of_grows {units next : List CodeUnit} (hgrows : List.Forall₂ Grows units next)
    (h : ∀ u ∈ units, u.Fixed) : ∀ v ∈ next, v.Fixed := by
  induction hgrows with
  | nil => simp
  | cons huv _ ih =>
    intro v hv
    rcases List.mem_cons.mp hv with rfl | hv
    · exact (h _ List.mem_cons_self).grows huv
    · exact ih (fun u hu => h u (List.mem_cons_of_mem _ hu)) v hv

theorem grows_trans {units next last : List CodeUnit} (h : List.Forall₂ Grows units next)
    (h' : List.Forall₂ Grows next last) : List.Forall₂ Grows units last := by
  induction h generalizing last with
  | nil =>
    cases h'
    exact .nil
  | cons huv _ ih =>
    cases h' with
    | cons hvw hrest => exact .cons (huv.trans hvw) (ih hrest)

theorem grows_getElem? {units next : List CodeUnit} (h : List.Forall₂ Grows units next) {n : Nat}
    {u v : CodeUnit} (hu : units[n]? = some u) (hv : next[n]? = some v) : u.Grows v := by
  obtain ⟨hn, rfl⟩ := List.getElem?_eq_some_iff.mp hu
  obtain ⟨hn', rfl⟩ := List.getElem?_eq_some_iff.mp hv
  exact h.get hn hn'

/-- **So does any number of passes.** -/
theorem grows_after (hbank : settings.bank = none) : ∀ (passes : Nat) {units : List CodeUnit},
    (∀ u ∈ units, u.Fixed) → List.Forall₂ Grows units (after settings passes units)
  | 0, units, _ => List.forall₂_same.mpr fun u _ => Grows.refl u
  | passes + 1, units, h => by
    have hpass := grows_pass hbank h
    exact grows_trans hpass (grows_after hbank passes (fixed_of_grows hpass h))

theorem after_add : ∀ (j k : Nat) (units : List CodeUnit),
    after settings (j + k) units = after settings k (after settings j units)
  | 0, k, units => by rw [Nat.zero_add, after]
  | j + 1, k, units => by
    rw [Nat.succ_add, after, after, after_add j k]

/-! ## The number of passes -/

/-- The number of units without a size. -/
def unsized (units : List CodeUnit) : Nat := units.countP fun u => u.size == 0

/-- **The units whose sizes change are those that no longer lack one.** -/
theorem changes_add_unsized {units next : List CodeUnit} (h : List.Forall₂ Grows units next) :
    changes units next + unsized next = unsized units := by
  induction h with
  | nil => rfl
  | @cons u v units next huv _ ih =>
    simp only [changes, unsized, List.zip_cons_cons, List.countP_cons] at ih ⊢
    by_cases hsame : v.size = u.size
    · simp only [hsame, bne_self_eq_false, Bool.false_eq_true, if_false]
      omega
    · obtain ⟨hzero, _⟩ := huv.size.resolve_left hsame
      have hsized : v.size ≠ 0 := hzero ▸ hsame
      simp only [hzero, bne_iff_ne, ne_eq, hsized.symm, not_false_eq_true, if_true,
        beq_self_eq_true, beq_iff_eq, hsized, if_false]
      omega

/-- With more passes than units that have no size, passes settle. -/
theorem passes_settle (hbank : settings.bank = none) : ∀ (limit : Nat) {units : List CodeUnit},
    (∀ u ∈ units, u.Fixed) → unsized units < limit →
      ∃ k ≤ unsized units,
        (passes (CodeUnit.compile settings) limit units).settled?
          = some (after settings (k + 1) units)
  | limit + 1, units, h, hlimit => by
    have hgrows := grows_pass hbank h
    have hmeasure := changes_add_unsized hgrows
    simp only [passes]
    split
    · exact ⟨0, Nat.zero_le _, rfl⟩
    · next hchanged =>
      obtain ⟨k, hk, hsettled⟩ :=
        passes_settle hbank limit (fixed_of_grows hgrows h) (by omega)
      exact ⟨k + 1, by omega, hsettled⟩

/-- The passes that are counted are those of `after`. -/
theorem changes_passes : ∀ (limit : Nat) (units : List CodeUnit),
    (passes (CodeUnit.compile settings) limit units).changes
      = (List.range (passes (CodeUnit.compile settings) limit units).changes.length).map
          fun k => changes (after settings k units) (after settings (k + 1) units)
  | 0, _ => rfl
  | limit + 1, units => by
    simp only [passes]
    split
    · rfl
    · have ih := changes_passes limit (passWith (CodeUnit.compile settings) units)
      simp only [List.length_cons, List.range_succ_eq_map, List.map_cons, List.map_map]
      congr 1

/-- Passes leave the units, and each unit's size changes at most once: from nothing to the size that
its tokens decide. -/
structure SizedOnce (settings : Settings) (units : List CodeUnit) : Prop where
  length : ∀ k, (after settings k units).length = units.length
  once : ∀ (n : Nat) (u v w : CodeUnit) (j k : Nat), j ≤ k → units[n]? = some u →
    (after settings j units)[n]? = some v → (after settings k units)[n]? = some w →
      w.size = v.size ∨ v.size = 0 ∧ w.size = u.content.ownSize

theorem sizedOnce (hbank : settings.bank = none) {units : List CodeUnit}
    (h : ∀ u ∈ units, u.Fixed) : SizedOnce settings units where
  length := fun k => (grows_after hbank k h).length_eq.symm
  once := by
    intro n u v w j k hjk hu hv hw
    have hbefore := grows_after hbank j h
    have hafter := grows_after hbank (k - j) (fixed_of_grows hbefore h)
    rw [← after_add, Nat.add_sub_cancel' hjk] at hafter
    rw [← (grows_getElem? hbefore hu hv).ownSize]
    exact (grows_getElem? hafter hv hw).size

end Layout

/-! ## Programs -/

/-- Only two names stand for instructions that choose their length. -/
theorem Instruction.isFixed_of_name {i : Instruction} {name : Mnemonic}
    (hi : CodeUnit.instruction? name = some i)
    (hname : name.name ≠ Text.ofString "jmp" ∧ name.name ≠ Text.ofString "call") :
    i.family.isFixed = true := by
  have hall : ∀ i ∈ all, i.name = "jmp" ∨ i.name = "call" ∨ i.family.isFixed = true := by
    decide
  unfold CodeUnit.instruction? at hi
  split at hi
  · cases hi
  · have hsame : Text.ofString i.name = name.name := by
      simpa using List.find?_some hi
    rcases hall i (List.mem_of_find?_eq_some hi) with hjmp | hcall | hfixed
    · exact absurd (hjmp ▸ hsame.symm) hname.1
    · exact absurd (hcall ▸ hsame.symm) hname.2
    · exact hfixed

theorem fixed_segment {tokens : List Token}
    (hnames : ∀ m, .mnemonic m ∈ tokens →
      m.name ≠ Text.ofString "jmp" ∧ m.name ≠ Text.ofString "call") :
    ∀ u ∈ (segment tokens).units, u.Fixed := by
  intro u hu
  refine ⟨?_, .inl (unseen_segment tokens u hu).size⟩
  cases hc : u.content with
  | data d => rfl
  | instruction name ops =>
    have hmem : name ∈ tokens.filterMap Token.mnemonic? := by
      rw [← mnemonics_segment]
      exact List.mem_filterMap.mpr ⟨u, hu, by rw [CodeUnit.mnemonic?, hc]⟩
    obtain ⟨t, ht, htname⟩ := List.mem_filterMap.mp hmem
    have hname := hnames name (Token.eq_of_mnemonic? htname ▸ ht)
    rw [Content.isFixed, Option.all_eq_true]
    exact fun i hi => Instruction.isFixed_of_name hi hname

/-- **Layout of fixed-length programs settles.** Without a register bank, and without the generic
jump and call, the size of each unit changes at most once: from nothing to a size that its own
tokens decide. If as many passes are allowed as there are units, there is a program. -/
theorem assemble_converges (settings : Settings) (hbank : settings.bank = none)
    (tokens : List Token)
    (hnames : ∀ m, .mnemonic m ∈ tokens →
      m.name ≠ Text.ofString "jmp" ∧ m.name ≠ Text.ofString "call")
    (report : Report) :
    Layout.SizedOnce settings (segment tokens).units ∧
    ((Assembly.assemble settings tokens report).changes
      = (List.range (Assembly.assemble settings tokens report).changes.length).map fun k =>
          Layout.changes (Layout.after settings k (segment tokens).units)
            (Layout.after settings (k + 1) (segment tokens).units)) ∧
    (1 ≤ settings.maxPasses → (segment tokens).units.length ≤ settings.maxPasses →
      ∃ k ≤ (segment tokens).units.length,
        (Assembly.assemble settings tokens report).program
          = .ok (Program.ofUnits (Layout.after settings (k + 1) (segment tokens).units))) := by
  have hfixed := fixed_segment hnames
  refine ⟨Layout.sizedOnce hbank hfixed, ?_, ?_⟩
  · have hchanges : (Assembly.assemble settings tokens report).changes
        = (Layout.run settings (segment tokens).units).changes := by
      unfold Assembly.assemble Assembly.assembleWith
      simp only
      split <;> rfl
    rw [hchanges]
    exact Layout.changes_passes _ _
  · intro hone hmax
    have hlimit : Layout.limit settings = settings.maxPasses := if_neg (by omega)
    have hunsized : Layout.unsized (segment tokens).units ≤ (segment tokens).units.length :=
      List.countP_le_length
    obtain ⟨k, hk, hsettled⟩ := Layout.passes_settle hbank ((Layout.limit settings).toNat + 1)
      hfixed (by omega)
    refine ⟨k, Nat.le_trans hk hunsized, ?_⟩
    rw [← Layout.run] at hsettled
    simp only [Assembly.assemble, Assembly.assembleWith, hsettled]

/-- A jump that does not reach its target, references ahead and reserved space. -/
def labelsAhead : List Text :=
  [Text.ofString "mov dptr, #table", Text.ofString "start: sjmp there", Text.ofString ".ds 200",
    Text.ofString "there: djnz r2, start", Text.ofString "table: .db 1, 2"]

theorem assemble_converges_labelsAhead :
    Layout.SizedOnce { maxPasses := 5 }
      (segment (readSource [] labelsAhead).reading.tokens).units ∧
    ∃ k ≤ 5, (Assembly.assemble { maxPasses := 5 } (readSource [] labelsAhead).reading.tokens
        {}).program
      = .ok (Program.ofUnits (Layout.after { maxPasses := 5 } (k + 1)
          (segment (readSource [] labelsAhead).reading.tokens).units)) := by
  have hnames : ((readSource [] labelsAhead).reading.tokens.filterMap Token.mnemonic?).all
      (fun m => m.name != Text.ofString "jmp" && m.name != Text.ofString "call") = true := by
    decide +kernel
  have hlength : (segment (readSource [] labelsAhead).reading.tokens).units.length = 5 := by
    decide +kernel
  obtain ⟨hsizes, _, hprogram⟩ := assemble_converges { maxPasses := 5 } rfl
    (readSource [] labelsAhead).reading.tokens
    (fun m hm => by
      simpa using List.all_eq_true.mp hnames m (List.mem_filterMap.mpr ⟨.mnemonic m, hm, rfl⟩)) {}
  rw [hlength] at hprogram
  exact ⟨hsizes, hprogram (by decide) (by decide)⟩

end Mcs51
