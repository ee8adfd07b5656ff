import Mcs51.Proofs.LostInstructions
import Mcs51.Proofs.SourceData

/-!
# Programs lie in code memory

Addresses are computed with 32 bits, and a unit that ends past code memory is an error. A unit could
leave code memory unnoticed only by going around all addresses, and no unit of a source is large
enough for that. So in a program without errors addresses add up as numbers do.

* `Draft.Bounded` is kept by every token, so the origins and the data of units are bounded.
* `Layout.Measured` is kept by every pass, so the sizes of units are bounded.
* `Consecutive.inMemory`: of consecutive units, the first that leaves code memory is noticed.
* `Assembly.exists_measured`: what sizes and addresses the settled units of a source have.
* `assemble_inMemory`: the units of a program without errors lie in code memory.
-/

namespace Mcs51

/-! ## Bounds of units -/

/-- A number of 32 bits is not changed by taking it as a word. -/
theorem toNat_toWord {n : Int} (hleast : 0 ≤ n) (hmost : n < 4294967296) :
    ((toWord n).toNat : Int) = n := by
  have hsize : UInt32.size = 4294967296 := rfl
  rw [toWord, Int.emod_eq_of_lt hleast hmost, Nat.toUInt32_eq, UInt32.toNat_ofNat_of_lt' (by omega)]
  omega

/-- The unit belongs to a segment that starts in code memory, and its data has at most `n` bytes. -/
structure CodeUnit.Bounded (n : Nat) (u : CodeUnit) : Prop where
  origin : u.origin.toNat ≤ wordLimit
  data : ∀ d, u.content = .data d → d.Sized n

theorem CodeUnit.bounded_bare {n : Nat} {u : CodeUnit} (h : u.bare.Bounded n) : u.Bounded n := by
  refine ⟨h.origin, fun d hd => h.data d ?_⟩
  rw [bare, hd]
  rfl

namespace Draft

/-- What holds of a draft after tokens whose directives have at most `n` bytes. -/
structure Bounded (n : Nat) (d : Draft) : Prop where
  origin : d.origin.toNat ≤ wordLimit
  units : ∀ u ∈ d.units, u.Bounded n

variable {n : Nat} {d : Draft}

theorem Bounded.note (h : d.Bounded n) (f : Finding) : (d.note f).Bounded n := ⟨h.origin, h.units⟩

theorem Bounded.openUnit (h : d.Bounded n) {content : Content}
    (hcontent : ∀ dir, content = .data dir → dir.Sized n) (takesOperands : Bool) :
    (d.openUnit content takesOperands).Bounded n := by
  refine ⟨h.origin, fun u hu => ?_⟩
  rcases List.mem_cons.mp hu with rfl | hu
  · exact ⟨h.origin, hcontent⟩
  · exact h.units u hu

theorem Bounded.addOperand (h : d.Bounded n) (op : Operand) : (d.addOperand op).Bounded n := by
  unfold Draft.addOperand
  split
  · next u units _ hunits =>
    split
    · next name ops hcontent =>
      refine ⟨h.origin, fun v hv => ?_⟩
      rcases List.mem_cons.mp hv with rfl | hv
      · exact ⟨(h.units u (hunits ▸ List.mem_cons_self)).origin, nofun⟩
      · exact h.units v (hunits ▸ List.mem_cons_of_mem u hv)
    · exact h.note _
  · exact h.note _

theorem Bounded.addDirective (h : d.Bounded n) {dir : Directive} (hdir : dir.Sized n) :
    (d.addDirective dir).Bounded n := by
  have hclosed : Bounded n { d with takesOperands := false } := ⟨h.origin, h.units⟩
  unfold Draft.addDirective
  split
  · refine ⟨?_, h.units⟩
    have hmost := hdir.most
    have hword := toNat_toWord hdir.least (Int.lt_of_le_of_lt hmost (by decide))
    show (toWord dir.number).toNat ≤ wordLimit
    omega
  · split
    · exact hclosed.openUnit (fun _ heq => by cases heq; exact hdir) false
    · exact hclosed

/-- A token keeps a draft bounded. -/
theorem Bounded.add (h : d.Bounded n) {t : Token} (ht : ∀ dir, t = .directive dir → dir.Sized n) :
    (d.add t).Bounded n := by
  cases t with
  | mnemonic m =>
    simp only [Draft.add]
    split
    · exact (h.note _).openUnit (by rintro _ ⟨⟩) true
    · exact h.openUnit (by rintro _ ⟨⟩) true
  | operand op => exact h.addOperand op
  | label l =>
    simp only [Draft.add]
    split <;> exact ⟨h.origin, h.units⟩
  | directive dir => exact h.addDirective (ht dir rfl)

theorem Bounded.addAll : ∀ {tokens : List Token} {d : Draft}, d.Bounded n →
    (∀ dir, .directive dir ∈ tokens → dir.Sized n) → (tokens.foldl Draft.add d).Bounded n
  | [], _, h, _ => h
  | t :: tokens, d, h, hall => by
    have hfirst : (d.add t).Bounded n :=
      h.add fun dir heq => hall dir (heq ▸ List.mem_cons_self)
    exact hfirst.addAll fun dir hdir => hall dir (List.mem_cons_of_mem t hdir)

end Draft

/-- **The directives of tokens bound the units that are made of them.** -/
theorem bounded_segment {n : Nat} {tokens : List Token}
    (h : ∀ dir, .directive dir ∈ tokens → dir.Sized n) :
    ∀ u ∈ (segment tokens).units, u.Bounded n := by
  have hempty : Draft.Bounded n {} := ⟨Nat.zero_le _, nofun⟩
  exact fun u hu => (hempty.addAll h).units u (List.mem_reverse.mp hu)

/-! ## Bounds of sizes -/

/-- A machine instruction has at most three bytes. -/
theorem Machine.length_le_of_decode {code : List UInt8} {m : Decoded} (h : decode code = some m) :
    code.length ≤ 3 := by
  obtain ⟨opcode, shape, _, hshape, _, hlength⟩ := length_of_decode h
  have hall : ∀ k < 256, ∀ shape ∈ shape? (UInt8.ofNat k), shape.length ≤ 3 := by decide +kernel
  exact Nat.le_trans (Nat.le_of_eq hlength) (of_shape? hall hshape)

/-- The bytes of a directive are its data. -/
theorem Directive.Sized.length_bytes {n : Nat} {d : Directive} (h : d.Sized n)
    (hk : d.kind ≠ .ds) : d.bytes.length ≤ n := by
  have hdata := h.data
  unfold Directive.bytes
  split
  · exact hdata
  · exact hdata
  · next hds => exact absurd hds hk
  · exact Nat.zero_le _
  · exact Nat.zero_le _
  · exact Nat.zero_le _

namespace CodeUnit

/-- The unit has a size from zero to `n`. -/
structure Small (n : Nat) (u : CodeUnit) : Prop where
  least : 0 ≤ u.size
  most : u.size ≤ n

variable {settings : Settings} {n : Nat} {u : CodeUnit}

theorem Small.recompile (h : u.Small n) (hbounded : u.Bounded n) (hn : wordLimit ≤ n) :
    (u.recompile settings).Small n := by
  cases hc : u.content with
  | data d =>
    have hsized := hbounded.data d hc
    by_cases hk : d.kind = .ds
    · rw [recompile_reservation hc hk]
      exact ⟨hsized.least, Int.le_trans hsized.most (Int.ofNat_le.mpr hn)⟩
    · rw [recompile_data hc hk]
      exact ⟨Int.natCast_nonneg _, Int.ofNat_le.mpr (hsized.length_bytes hk)⟩
  | instruction name ops =>
    cases hi : instruction? name with
    | none =>
      rw [recompile_unknown hc hi]
      exact ⟨h.least, h.most⟩
    | some i =>
      rw [recompile_known hc hi]
      cases hresult : (i.encode ⟨settings, u.point, name⟩ ops).result with
      -- a unit that is not encoded keeps the size of an earlier pass
      | none => exact ⟨h.least, h.most⟩
      | some code =>
        obtain ⟨_, _, _, hdecode, _⟩ := Instruction.encodes (mem_all_of_instruction? hi) hresult
        have hthree := Machine.length_le_of_decode hdecode
        have hword : 3 ≤ wordLimit := by decide
        exact ⟨Int.natCast_nonneg _, Int.ofNat_le.mpr (by omega)⟩

theorem Small.compile (h : u.Small n) (hbounded : u.Bounded n) (hn : wordLimit ≤ n) :
    (u.compile settings).Small n := by
  unfold CodeUnit.compile
  split
  · exact h
  · exact h.recompile hbounded hn

end CodeUnit

namespace Layout

variable {settings : Settings} {start units : List CodeUnit} {n : Nat}

/-- What holds of units after any number of passes, where no unit has more than `n` bytes. -/
structure Measured (settings : Settings) (start : List CodeUnit) (n : Nat)
    (units : List CodeUnit) : Prop where
  reached : Reached settings start units
  small : ∀ u ∈ units, u.Small n

theorem Reached.bounded (h : Reached settings start units) (hstart : ∀ u ∈ start, u.Bounded n) :
    ∀ u ∈ units, u.Bounded n := fun _ hu =>
  CodeUnit.bounded_bare (hstart _ (h.bare ▸ List.mem_map_of_mem hu))

theorem measured_start (h : ∀ u ∈ start, u.Initial) : Measured settings start n start := by
  refine ⟨.refl h, fun u hu => ?_⟩
  rw [← (h u hu).bare]
  exact ⟨Int.le_refl 0, Int.natCast_nonneg n⟩

/-- A pass keeps sizes bounded. -/
theorem Measured.pass (h : Measured settings start n units) (hstart : ∀ u ∈ start, u.Bounded n)
    (hn : wordLimit ≤ n) :
    Measured settings start n (passWith (CodeUnit.compile settings) units) := by
  refine ⟨h.reached.pass, fun v hv => ?_⟩
  rw [passWith_eq] at hv
  obtain ⟨w, hw, rfl⟩ := List.mem_map.mp hv
  obtain ⟨u, hu, here, rfl⟩ := mem_placeFrom hw
  have hsmall := h.small u hu
  have hbounded := h.reached.bounded hstart u hu
  refine CodeUnit.Small.compile ?_ (CodeUnit.bounded_bare ?_) hn
  · rw [CodeUnit.resolve_eq]
    exact ⟨hsmall.least, hsmall.most⟩
  · rw [CodeUnit.bare_resolve, CodeUnit.bare_placeAt]
    exact hstart _ (h.reached.bare ▸ List.mem_map_of_mem hu)

end Layout

/-! ## Code memory -/

/-- The unit lies in code memory. -/
structure CodeUnit.InMemory (u : CodeUnit) : Prop where
  least : 0 ≤ u.size
  most : u.point.toNat + u.size ≤ codeSize

theorem CodeUnit.toNat_endPoint {u : CodeUnit} (hleast : 0 ≤ u.size)
    (hmost : u.point.toNat + u.size < 4294967296) :
    (u.endPoint.toNat : Int) = u.point.toNat + u.size := by
  have hword := toNat_toWord hleast (by omega)
  rw [endPoint, UInt32.toNat_add]
  omega

/-- **Of consecutive units, the first that leaves code memory is noticed**: up to it addresses do
not wrap, so that it is its own end that lies past code memory. -/
theorem Layout.Consecutive.inMemory {n : Nat} (hn : n + codeSize < 4294967296) :
    ∀ {units : List CodeUnit} {origin : UInt32}, Consecutive origin units →
      origin.toNat ≤ codeSize → (∀ u ∈ units, u.Small n) →
      (∀ u ∈ units, u.size ≠ 0 → u.endPoint.toNat ≤ codeSize) → ∀ u ∈ units, u.InMemory
  | [], _, _, _, _, _, _, hu => by cases hu
  | u :: units, origin, ⟨hpoint, hrest⟩, horigin, hsmall, hends, v, hv => by
    obtain ⟨hleast, hmost⟩ := hsmall u List.mem_cons_self
    have hend := CodeUnit.toNat_endPoint hleast (by rw [hpoint]; omega)
    -- an empty unit is not checked, but ends where the one before it does
    have hinside : u.endPoint.toNat ≤ codeSize := by
      by_cases hzero : u.size = 0
      · rw [hzero, hpoint] at hend
        omega
      · exact hends u List.mem_cons_self hzero
    rcases List.mem_cons.mp hv with rfl | hv
    · exact ⟨hleast, by omega⟩
    · exact hrest.inMemory hn hinside (fun w hw => hsmall w (List.mem_cons_of_mem u hw))
        (fun w hw => hends w (List.mem_cons_of_mem u hw)) v hv

theorem Program.mem_ofUnits {units : List CodeUnit} {u : CodeUnit} :
    u ∈ (Program.ofUnits units).units ↔ u ∈ units := (List.mergeSort_perm units _).mem_iff

/-- A check without errors has seen no unit that ends past code memory. -/
theorem Program.endPoint_le_of_checkFrom : ∀ {units : List CodeUnit} {reach : UInt32}
    {last? : Option CodeUnit}, (∀ f ∈ checkFrom reach last? units, f.severity ≠ .error) →
      ∀ u ∈ units, u.size ≠ 0 → u.endPoint.toNat ≤ codeSize
  | [], _, _, _, _, hu, _ => by cases hu
  | v :: units, reach, last?, hclean, u, hu, hsize => by
    unfold checkFrom at hclean
    split at hclean
    · next hzero =>
      rcases List.mem_cons.mp hu with rfl | hu
      · exact absurd hzero hsize
      · exact endPoint_le_of_checkFrom hclean u hu hsize
    · simp only [List.mem_append] at hclean
      rcases List.mem_cons.mp hu with rfl | hu
      · refine Nat.le_of_not_lt fun hpast => ?_
        exact hclean _ (.inl (.inr (by rw [if_pos hpast]; exact List.mem_singleton_self _))) rfl
      · exact endPoint_le_of_checkFrom (fun f hf => hclean f (.inr hf)) u hu hsize

/-- A compiled unit has code of its size, or none. -/
theorem CodeUnit.length_code {settings : Settings} {u : CodeUnit} (hhonest : u.Honest settings)
    (hfixed : u.recompile settings = u) : u.code = [] ∨ (u.code.length : Int) = u.size := by
  cases hc : u.content with
  | data d =>
    by_cases hk : d.kind = .ds
    · rw [recompile_reservation hc hk] at hfixed
      rw [← hfixed]
      exact .inl rfl
    · rw [recompile_data hc hk] at hfixed
      rw [← hfixed]
      exact .inr rfl
  | instruction name ops =>
    cases hi : instruction? name with
    | none => exact .inl (hhonest.unknown name ops hc hi)
    | some i =>
      rw [recompile_known hc hi] at hfixed
      rw [← hfixed]
      cases (i.encode ⟨settings, u.point, name⟩ ops).result with
      | none => exact .inl rfl
      | some code => exact .inr rfl

/-- The number of bytes that a line of a source is shorter than. -/
def lineBound : Nat := 0x40000000

/-- What is known of the settled units of a source whose directives have at most `n` bytes. -/
theorem Assembly.exists_measured {settings : Settings} {path : Text} {lines : List Text}
    {report : Report} {p : Program} {n : Nat} (hn : wordLimit ≤ n)
    (hsized : ∀ d, .directive d ∈ (readSource path lines).reading.tokens → d.Sized n)
    (h : (assemble settings (readSource path lines).reading.tokens report).program = .ok p) :
    ∃ units, p = Program.ofUnits units ∧
      (∀ u ∈ units, u.Small n ∧ u.origin.toNat ≤ wordLimit) ∧
      (∀ u ∈ units, u.code = [] ∨ (u.code.length : Int) = u.size) ∧
      ∀ u ∈ units, Layout.Consecutive u.origin (units.filter fun v => v.segment == u.segment) := by
  have hstart := sourceOrder_segment (fresh_readSource path lines)
  have hbounded := bounded_segment hsized
  obtain ⟨units, hrun, rfl, _⟩ := assemble_ok h
  obtain ⟨last, hmeasured, hfinal, hsame⟩ := Layout.passes_settled
    (Layout.Measured settings _ n) (fun _ hus => hus.pass hbounded hn) _ _
    (Layout.measured_start hstart.initial) hrun
  have hpass := hmeasured.pass hbounded hn
  rw [← hfinal] at hpass
  refine ⟨units, rfl, fun u hu => ?_, fun u hu => ?_, ?_⟩
  · exact ⟨hpass.small u hu, (hpass.reached.bounded hbounded u hu).origin⟩
  · exact CodeUnit.length_code (hpass.reached.honest u hu)
      (Layout.last_recompile hmeasured.reached hfinal u hu)
  · exact Layout.last_points hstart hmeasured.reached hfinal hsame

/-- **The units of a program without errors lie in code memory**, each with the code that fills it
or with none. -/
theorem Assembly.assemble_inMemory {settings : Settings} {path : Text} {lines : List Text}
    {report : Report} {p : Program} (hlines : ∀ line ∈ lines, line.length < lineBound)
    (h : (assemble settings (readSource path lines).reading.tokens report).program = .ok p)
    (hclean : (assemble settings (readSource path lines).reading.tokens report).report.hasErrors
      = false) :
    ∀ u ∈ p.units, u.InMemory ∧ (u.code = [] ∨ (u.code.length : Int) = u.size) := by
  have hsized : ∀ d, .directive d ∈ (readSource path lines).reading.tokens →
      d.Sized (3 * lineBound) := fun d hd =>
    (sized_readSource (n := lineBound - 1) (fun line hline => Nat.le_pred_of_lt (hlines line hline))
      hd).mono (by decide)
  obtain ⟨_, _, _, hreport⟩ := assemble_ok h
  rw [hreport] at hclean
  simp only [Report.hasErrors_addFindings, Bool.or_eq_false_iff, List.any_eq_false, beq_iff_eq]
    at hclean
  obtain ⟨units, rfl, hsmall, hcode, hpoints⟩ := exists_measured (by decide) hsized h
  intro u hu
  rw [Program.mem_ofUnits] at hu
  refine ⟨?_, hcode u hu⟩
  -- the units of one segment are consecutive; the check has looked at all units
  refine (hpoints u hu).inMemory (n := 3 * lineBound) (by decide) ?_ ?_ ?_ u ?_
  · exact Nat.le_trans (hsmall u hu).2 (by decide)
  · exact fun v hv => (hsmall v (List.mem_filter.mp hv).1).1
  · exact fun v hv => Program.endPoint_le_of_checkFrom hclean.2 v
      (Program.mem_ofUnits.mpr (List.mem_filter.mp hv).1)
  · exact List.mem_filter.mpr ⟨hu, beq_self_eq_true u.segment⟩

end Mcs51
