import Mcs51.Assembly
import Mcs51.Proofs.SourceUnits

/-!
# A settled layout is a fixed point

Passes are repeated until one changes no size. Sizes, addresses, label offsets and operand values
are then consistent with each other, although each of them was computed at another time and static
units were skipped.

* `Instruction.encode_at`: what is not position sensitive encodes alike at every address.
* `CodeUnit.Honest` is the invariant of a unit: skipping it loses nothing. Every step of a pass
  keeps it, so in a pass `compile` is `recompile` (`Honest.compile_eq`).
* `passes_settled`: what holds before the first pass and is kept by passes holds before the last.
* `assemble_settled`: the layout, labels, references and encodings of a program agree.
-/

namespace Mcs51

/-! ## Encoding at different addresses -/

theorem Family.encode_at {f : Family} (h : f.isPositionSensitive = false) (settings : Settings)
    (p q : UInt32) (name : Mnemonic) (ops : List Operand) :
    f.encode ⟨settings, p, name⟩ ops = f.encode ⟨settings, q, name⟩ ops := by
  cases f <;> first | rfl | cases h

theorem Instruction.encodeReadings_at {i : Instruction} (h : i.isPositionSensitive = false)
    (settings : Settings) (p q : UInt32) (name : Mnemonic) (ops : List Operand) :
    i.encodeReadings ⟨settings, p, name⟩ ops = i.encodeReadings ⟨settings, q, name⟩ ops := by
  have hfamily := Family.encode_at (f := i.family) h settings p q name
  unfold encodeReadings
  simp only [hfamily]
  rfl

/-- **An instruction that is not position sensitive encodes alike at every address.** -/
theorem Instruction.encode_at {i : Instruction} (h : i.isPositionSensitive = false)
    (settings : Settings) (p q : UInt32) (name : Mnemonic) (ops : List Operand) :
    i.encode ⟨settings, p, name⟩ ops = i.encode ⟨settings, q, name⟩ ops := by
  unfold encode
  simp only [encodeReadings_at h settings p q name]

namespace CodeUnit

variable (settings : Settings)

/-! ## What compiling does -/

variable {settings} in
theorem recompile_reservation {u : CodeUnit} {d : Directive} (hc : u.content = .data d)
    (hk : d.kind = .ds) :
    u.recompile settings
      = { u with code := [], size := d.number, settled := true, findings? := some [] } := by
  simp [recompile, hc, hk]

variable {settings} in
theorem recompile_data {u : CodeUnit} {d : Directive} (hc : u.content = .data d)
    (hk : d.kind ≠ .ds) :
    u.recompile settings
      = { u with
          code := d.bytes, size := d.bytes.length, settled := true, findings? := some [] } := by
  simp [recompile, hc, hk]

variable {settings} in
theorem recompile_unknown {u : CodeUnit} {name : Mnemonic} {ops : List Operand}
    (hc : u.content = .instruction name ops) (hi : instruction? name = none) :
    u.recompile settings = { u with settled := true, findings? := some [] } := by
  simp [recompile, hc, hi]

variable {settings} in
theorem recompile_known {u : CodeUnit} {name : Mnemonic} {ops : List Operand} {i : Instruction}
    (hc : u.content = .instruction name ops) (hi : instruction? name = some i) :
    u.recompile settings
      = { u with
          code := (i.encode ⟨settings, u.point, name⟩ ops).result.getD []
          size := ((i.encode ⟨settings, u.point, name⟩ ops).result.map
            fun code => (code.length : Int)).getD u.size
          settled := !i.isPositionSensitive && !ops.any Operand.isReference
          findings? := some (i.encode ⟨settings, u.point, name⟩ ops).findings } := by
  simp only [recompile, hc, hi]
  cases (i.encode ⟨settings, u.point, name⟩ ops).result <;> rfl

/-- Compiling computes the code, the size, the findings and whether they can change. -/
theorem recompile_frame (u : CodeUnit) : ∃ code size findings? settled,
    u.recompile settings = { u with code, size, findings?, settled } := by
  unfold recompile
  split
  · split <;> exact ⟨_, _, _, _, rfl⟩
  · split <;> exact ⟨_, _, _, _, rfl⟩

@[simp] theorem recompile_content (u : CodeUnit) : (u.recompile settings).content = u.content := by
  obtain ⟨_, _, _, _, h⟩ := recompile_frame settings u
  rw [h]

theorem compile_frame (u : CodeUnit) : ∃ code size findings? settled,
    u.compile settings = { u with code, size, findings?, settled } := by
  unfold compile
  split
  · exact ⟨u.code, u.size, u.findings?, u.settled, rfl⟩
  · exact recompile_frame settings u

@[simp] theorem compile_content (u : CodeUnit) : (u.compile settings).content = u.content := by
  obtain ⟨_, _, _, _, h⟩ := compile_frame settings u
  rw [h]

@[simp] theorem compile_labels (u : CodeUnit) : (u.compile settings).labels = u.labels := by
  obtain ⟨_, _, _, _, h⟩ := compile_frame settings u
  rw [h]

@[simp] theorem compile_origin (u : CodeUnit) : (u.compile settings).origin = u.origin := by
  obtain ⟨_, _, _, _, h⟩ := compile_frame settings u
  rw [h]

@[simp] theorem compile_segment (u : CodeUnit) : (u.compile settings).segment = u.segment := by
  obtain ⟨_, _, _, _, h⟩ := compile_frame settings u
  rw [h]

@[simp] theorem compile_point (u : CodeUnit) : (u.compile settings).point = u.point := by
  obtain ⟨_, _, _, _, h⟩ := compile_frame settings u
  rw [h]

@[simp] theorem bare_compile (u : CodeUnit) : (u.compile settings).bare = u.bare := by
  simp [bare]

end CodeUnit

/-! ## What placing and resolving keep -/

theorem Operand.bare_resolve (value : Int) (op : Operand) : (op.resolve value).bare = op.bare := by
  unfold resolve
  split
  · split <;> simp_all [bare, Form.bare]
  · rfl

@[simp] theorem Operand.symbolName_resolve (value : Int) (op : Operand) :
    (op.resolve value).symbolName = op.symbolName := by
  unfold resolve
  split
  · split <;> simp_all [symbolName]
  · rfl

/-- A reference has the value that it is resolved to. -/
theorem Operand.number_resolve {op : Operand} (h : op.isReference = true) (value : Int) :
    (op.resolve value).number = value := by
  unfold resolve
  rw [if_pos h]
  split
  · rfl
  · rfl
  · simp_all [isReference, symbolName]

/-- The operand as resolution leaves it, where `value?` knows some symbols. -/
def Operand.resolveBy (value? : Text → Option UInt32) (op : Operand) : Operand :=
  if op.isReference then
    match value? op.symbolName with
    | some address => op.resolve address.toNat
    | none => op
  else op

/-- The content as resolution leaves it. -/
def Content.resolveBy (value? : Text → Option UInt32) : Content → Content
  | .instruction name ops => .instruction name (ops.map (Operand.resolveBy value?))
  | .data d => .data d

@[simp] theorem Operand.bare_resolveBy (value? : Text → Option UInt32) (op : Operand) :
    (op.resolveBy value?).bare = op.bare := by
  unfold resolveBy
  split
  · split
    · exact bare_resolve _ op
    · rfl
  · rfl

@[simp] theorem Operand.symbolName_resolveBy (value? : Text → Option UInt32) (op : Operand) :
    (op.resolveBy value?).symbolName = op.symbolName := by
  unfold resolveBy
  split
  · split
    · exact symbolName_resolve _ op
    · rfl
  · rfl

theorem Content.bare_resolveBy (value? : Text → Option UInt32) (content : Content) :
    (content.resolveBy value?).bare = content.bare := by
  cases content with
  | instruction name ops => simp [resolveBy, bare, Function.comp_def]
  | data d => rfl

namespace CodeUnit

/-- Resolving a unit resolves its operands and changes nothing else. -/
theorem resolve_eq (value? : Text → Option UInt32) (u : CodeUnit) :
    u.resolve value? = { u with content := u.content.resolveBy value? } := by
  obtain ⟨content, _⟩ := u
  cases content <;> rfl

@[simp] theorem bare_resolve (value? : Text → Option UInt32) (u : CodeUnit) :
    (u.resolve value?).bare = u.bare := by
  simp [resolve_eq, bare, Content.bare_resolveBy]

@[simp] theorem operands_resolve (value? : Text → Option UInt32) (u : CodeUnit) :
    (u.resolve value?).operands = u.operands.map (Operand.resolveBy value?) := by
  obtain ⟨content, _⟩ := u
  cases content <;> rfl

@[simp] theorem bare_placeAt (point : UInt32) (u : CodeUnit) : (u.placeAt point).bare = u.bare := by
  simp [bare, placeAt, Label.bare, Function.comp_def]

/-- Without references there is nothing to resolve. -/
theorem resolve_of_no_reference {value? : Text → Option UInt32} {u : CodeUnit}
    (h : u.operands.any Operand.isReference = false) : u.resolve value? = u := by
  obtain ⟨content, _⟩ := u
  cases content with
  | data d => rfl
  | instruction name ops =>
    have hops : ops.map (Operand.resolveBy value?) = ops.map id := by
      apply List.map_congr_left
      intro op hop
      have href : op.isReference = false := by
        simpa using List.any_eq_false.mp h op hop
      simp [Operand.resolveBy, href]
    simp only [resolve_eq, Content.resolveBy, hops, List.map_id]

/-! ## Skipping static units -/

variable {settings : Settings}

/-- Compiling twice is compiling once. -/
theorem recompile_recompile (settings : Settings) (u : CodeUnit) :
    (u.recompile settings).recompile settings = u.recompile settings := by
  have hkeep := recompile_content settings u
  cases hc : u.content with
  | data d =>
    by_cases hk : d.kind = .ds
    · rw [recompile_reservation (hkeep.trans hc) hk, recompile_reservation hc hk]
    · rw [recompile_data (hkeep.trans hc) hk, recompile_data hc hk]
  | instruction name ops =>
    cases hi : instruction? name with
    | none => rw [recompile_unknown (hkeep.trans hc) hi, recompile_unknown hc hi]
    | some i =>
      rw [recompile_known (hkeep.trans hc) hi, recompile_known hc hi]
      -- a failed attempt keeps the size, which is the size that was kept before
      cases (i.encode ⟨settings, u.point, name⟩ ops).result <;> rfl

/-- What the passes keep of a unit: compiling it again would not change it if it is static, and what
is no instruction has no code. -/
structure Honest (settings : Settings) (u : CodeUnit) : Prop where
  static : u.isStatic = true → u.recompile settings = u
  unknown : ∀ name ops, u.content = .instruction name ops → instruction? name = none → u.code = []

/-- **Skipping static units is unobservable**: compiling an honest unit encodes it. -/
theorem Honest.compile_eq {u : CodeUnit} (h : u.Honest settings) :
    u.compile settings = u.recompile settings := by
  unfold compile
  split
  · next hs => exact (h.static hs).symm
  · rfl

/-- Nothing of a unit that no pass has seen is static. -/
theorem Unseen.honest {u : CodeUnit} (h : u.Unseen) : u.Honest settings where
  static := by
    intro hs
    rw [isStatic, h.findings] at hs
    cases hs
  unknown := fun _ _ _ _ => h.code

theorem Initial.honest {u : CodeUnit} (h : u.Initial) : u.Honest settings where
  static := by
    rw [← h.bare]
    intro hs
    simp [isStatic, CodeUnit.bare] at hs
  unknown := by
    rw [← h.bare]
    exact fun _ _ _ _ => rfl

/-- The encoding of a static instruction depends neither on its address nor on a symbol. -/
theorem insensitive_of_static {u : CodeUnit} {name : Mnemonic} {ops : List Operand}
    {i : Instruction} (hc : u.content = .instruction name ops) (hi : instruction? name = some i)
    (hfixed : u.recompile settings = u) (hs : u.isStatic = true) :
    i.isPositionSensitive = false ∧ ops.any Operand.isReference = false := by
  have hsettled : u.settled = true := by
    simp only [isStatic, Bool.and_eq_true] at hs
    exact hs.2
  rw [← hfixed, recompile_known hc hi] at hsettled
  simpa using hsettled

/-- A unit that is encoded alike at every address may be placed before or after it is compiled. -/
theorem recompile_placeAt {u : CodeUnit} (point : UInt32)
    (h : ∀ name ops i, u.content = .instruction name ops → instruction? name = some i →
      i.isPositionSensitive = false) :
    (u.placeAt point).recompile settings = (u.recompile settings).placeAt point := by
  have hkeep : (u.placeAt point).content = u.content := rfl
  cases hc : u.content with
  | data d =>
    by_cases hk : d.kind = .ds
    · rw [recompile_reservation (hkeep.trans hc) hk, recompile_reservation hc hk]
      rfl
    · rw [recompile_data (hkeep.trans hc) hk, recompile_data hc hk]
      rfl
  | instruction name ops =>
    cases hi : instruction? name with
    | none =>
      rw [recompile_unknown (hkeep.trans hc) hi, recompile_unknown hc hi]
      rfl
    | some i =>
      rw [recompile_known (hkeep.trans hc) hi, recompile_known hc hi,
        Instruction.encode_at (h name ops i hc hi) settings (u.placeAt point).point u.point]
      rfl

theorem Honest.placeAt {u : CodeUnit} (h : u.Honest settings) (point : UInt32) :
    (u.placeAt point).Honest settings where
  static := by
    intro hs
    have hfixed : u.recompile settings = u := h.static hs
    rw [recompile_placeAt point fun name ops i hc hi => (insensitive_of_static hc hi hfixed hs).1,
      hfixed]
  unknown := h.unknown

theorem Honest.resolve {u : CodeUnit} (h : u.Honest settings) (value? : Text → Option UInt32) :
    (u.resolve value?).Honest settings := by
  cases hc : u.content with
  | data d =>
    have hsame : u.resolve value? = u := resolve_of_no_reference (by simp [operands, hc])
    rw [hsame]
    exact h
  | instruction name ops =>
    have hcontent : (u.resolve value?).content
        = .instruction name (ops.map (Operand.resolveBy value?)) := by
      simp [resolve_eq, hc, Content.resolveBy]
    constructor
    · intro hs
      have hs' : u.isStatic = true := by
        rw [resolve_eq] at hs
        exact hs
      have hfixed := h.static hs'
      cases hi : instruction? name with
      | none =>
        -- the operands of what is no instruction may change, and nothing else does
        rw [recompile_unknown hc hi] at hfixed
        rw [recompile_unknown hcontent hi, resolve_eq, ← hfixed]
      | some i =>
        have hrefs := (insensitive_of_static hc hi hfixed hs').2
        rw [resolve_of_no_reference (by simpa [operands, hc] using hrefs)]
        exact hfixed
    · intro name' ops' hc' hi
      rw [hcontent] at hc'
      cases hc'
      rw [resolve_eq]
      exact h.unknown name ops hc hi

theorem Honest.compile {u : CodeUnit} (h : u.Honest settings) :
    (u.compile settings).Honest settings := by
  rw [h.compile_eq]
  constructor
  · exact fun _ => recompile_recompile settings u
  · intro name ops hc hi
    rw [recompile_content] at hc
    rw [recompile_unknown hc hi]
    exact h.unknown name ops hc hi

end CodeUnit

namespace Layout

/-! ## Placing -/

/-- Placing keeps what does not depend on the address. -/
theorem map_placeFrom {α : Type} {f : CodeUnit → α} (hf : ∀ u point, f (u.placeAt point) = f u) :
    ∀ (units : List CodeUnit) (segment? : Option Nat) (point : UInt32),
      (placeFrom segment? point units).map f = units.map f
  | [], _, _ => rfl
  | u :: units, _, _ => by
    simp only [placeFrom, List.map_cons, hf]
    rw [map_placeFrom hf units]

theorem mem_placeFrom : ∀ {units : List CodeUnit} {segment? : Option Nat} {point : UInt32}
    {v : CodeUnit}, v ∈ placeFrom segment? point units → ∃ u ∈ units, ∃ here, v = u.placeAt here
  | [], _, _, _, h => by simp [placeFrom] at h
  | u :: units, _, _, v, h => by
    simp only [placeFrom, List.mem_cons] at h
    rcases h with h | h
    · exact ⟨u, List.mem_cons_self, _, h⟩
    · obtain ⟨w, hw, here, hv⟩ := mem_placeFrom h
      exact ⟨w, List.mem_cons_of_mem _ hw, here, hv⟩

/-- The units stand one after the other from `origin` on. -/
def Consecutive : UInt32 → List CodeUnit → Prop
  | _, [] => True
  | origin, u :: units => u.point = origin ∧ Consecutive (u.point + toWord u.size) units

/-- The units of segment `number` are placed one after the other. A segment that is open goes on at
`point`, another one starts at its origin. Segments come in the order of their numbers, so that a
segment which was left is not entered again. -/
theorem consecutive_placeFrom (number : Nat) (origin : UInt32) :
    ∀ (units : List CodeUnit) (segment? : Option Nat) (point : UInt32),
      units.Pairwise (fun u v => u.segment ≤ v.segment) →
      (∀ m, segment? = some m → ∀ u ∈ units, m ≤ u.segment) →
      (∀ u ∈ units, u.segment = number → u.origin = origin) →
      Consecutive (if segment? = some number then point else origin)
        ((placeFrom segment? point units).filter fun u => u.segment == number)
  | [], _, _, _, _, _ => trivial
  | u :: units, segment?, point, hsorted, hopen, horigin => by
    obtain ⟨hfirst, hrest⟩ := List.pairwise_cons.mp hsorted
    have ih := consecutive_placeFrom number origin units (some u.segment)
      ((if segment? = some u.segment then point else u.origin) + toWord u.size) hrest
      (fun m hm v hv => by cases hm; exact hfirst v hv)
      (fun v hv => horigin v (List.mem_cons_of_mem _ hv))
    by_cases hu : u.segment = number
    · have hhere : (u.placeAt (if segment? = some u.segment then point else u.origin)).segment
          = number := hu
      simp only [placeFrom]
      rw [List.filter_cons_of_pos (by simp [hhere])]
      rw [hu, if_pos rfl] at ih
      refine ⟨?_, by rw [hu]; exact ih⟩
      simp only [CodeUnit.placeAt, hu, horigin u List.mem_cons_self hu]
    · have hhere : (u.placeAt (if segment? = some u.segment then point else u.origin)).segment
          ≠ number := hu
      simp only [placeFrom]
      rw [List.filter_cons_of_neg (by simpa using hhere)]
      by_cases hs : segment? = some number
      · -- the open segment is left for a later one and has no more units
        have hlt : number < u.segment :=
          Nat.lt_of_le_of_ne (hopen number hs u List.mem_cons_self) (Ne.symm hu)
        have hnil : (placeFrom (some u.segment)
            ((if segment? = some u.segment then point else u.origin) + toWord u.size)
            units).filter (fun u => u.segment == number) = [] := by
          rw [List.filter_eq_nil_iff]
          intro v hv
          obtain ⟨w, hw, _, rfl⟩ := mem_placeFrom hv
          have hle : u.segment ≤ w.segment := hfirst w hw
          simp only [CodeUnit.placeAt, beq_iff_eq]
          omega
        rw [hnil]
        trivial
      · rw [if_neg hs]
        rw [if_neg (by simpa using hu)] at ih
        exact ih

/-! ## Passes -/

/-- What a pass does to a placed unit. -/
def finish (settings : Settings) (known : List (Text × UInt32)) (u : CodeUnit) : CodeUnit :=
  (u.resolve fun name => known.lookup name).compile settings

theorem passWith_eq (settings : Settings) (units : List CodeUnit) :
    passWith (CodeUnit.compile settings) units
      = (place units).map (finish settings (labels (place units))) := by
  simp [passWith, resolve, finish, Function.comp_def]

section finish

variable (settings : Settings) (known : List (Text × UInt32)) (u : CodeUnit)

@[simp] theorem finish_labels : (finish settings known u).labels = u.labels := by
  simp [finish, CodeUnit.resolve_eq]

@[simp] theorem finish_origin : (finish settings known u).origin = u.origin := by
  simp [finish, CodeUnit.resolve_eq]

@[simp] theorem finish_segment : (finish settings known u).segment = u.segment := by
  simp [finish, CodeUnit.resolve_eq]

@[simp] theorem finish_point : (finish settings known u).point = u.point := by
  simp [finish, CodeUnit.resolve_eq]

@[simp] theorem finish_bare : (finish settings known u).bare = u.bare := by
  simp [finish]

@[simp] theorem finish_operands : (finish settings known u).operands
    = u.operands.map (Operand.resolveBy fun name => known.lookup name) := by
  rw [← CodeUnit.operands_resolve]
  simp [finish, CodeUnit.operands]

end finish

/-- What holds of units after any number of passes over `start`. -/
structure Reached (settings : Settings) (start units : List CodeUnit) : Prop where
  bare : units.map CodeUnit.bare = start
  honest : ∀ u ∈ units, u.Honest settings

variable {settings : Settings} {start units : List CodeUnit}

theorem Reached.refl (h : ∀ u ∈ start, u.Initial) : Reached settings start start where
  bare := by
    rw [List.map_congr_left (g := id) fun u hu => (h u hu).bare]
    exact List.map_id start
  honest := fun u hu => (h u hu).honest

/-- **A pass keeps what holds of the units before it.** -/
theorem Reached.pass (h : Reached settings start units) :
    Reached settings start (passWith (CodeUnit.compile settings) units) := by
  rw [passWith_eq]
  constructor
  · rw [List.map_map, show CodeUnit.bare ∘ finish settings (labels (place units)) = CodeUnit.bare
      from funext fun u => finish_bare settings _ u]
    exact (map_placeFrom (fun u point => CodeUnit.bare_placeAt point u) units none 0).trans h.bare
  · intro v hv
    obtain ⟨w, hw, rfl⟩ := List.mem_map.mp hv
    obtain ⟨u, hu, here, rfl⟩ := mem_placeFrom hw
    exact (((h.honest u hu).placeAt here).resolve _).compile

/-- Sizes are the same if none differs. -/
theorem sizes_eq_of_changes_eq_zero : ∀ {before after : List CodeUnit},
    before.length = after.length → changes before after = 0 →
      before.map CodeUnit.size = after.map CodeUnit.size
  | [], [], _, _ => rfl
  | u :: before, v :: after, hlen, h => by
    simp only [changes, List.zip_cons_cons, List.countP_cons] at h
    obtain ⟨hrest, hfirst⟩ := Nat.add_eq_zero_iff.mp h
    have hsize : u.size = v.size := by simpa using hfirst
    have ih : before.map CodeUnit.size = after.map CodeUnit.size :=
      sizes_eq_of_changes_eq_zero (Nat.succ.inj hlen) hrest
    rw [List.map_cons, List.map_cons, hsize, ih]

/-- **What passes keep holds before the last pass**, which changes no size. -/
theorem passes_settled {compile : CodeUnit → CodeUnit} (Keeps : List CodeUnit → Prop)
    (step : ∀ us, Keeps us → Keeps (passWith compile us)) {final : List CodeUnit} :
    ∀ (limit : Nat) (us : List CodeUnit), Keeps us →
      (passes compile limit us).settled? = some final →
      ∃ last, Keeps last ∧ final = passWith compile last ∧ changes last final = 0
  | 0, _, _, h => by simp [passes] at h
  | limit + 1, us, hus, h => by
    simp only [passes] at h
    split at h
    · next hzero =>
      cases h
      exact ⟨us, hus, rfl, hzero⟩
    · exact passes_settled Keeps step limit (passWith compile us) (step us hus) h

/-! ## The last pass -/

theorem Reached.origins (h : Reached settings start units) (hstart : ∀ u ∈ start, u.Initial)
    {u : CodeUnit} (hu : u ∈ units) {l : Label} (hl : l ∈ u.labels) :
    l.origin? = some u.origin := by
  have hbare : u.bare ∈ start := h.bare ▸ List.mem_map_of_mem hu
  exact (hstart u.bare hbare).origins l.bare (List.mem_map_of_mem hl)

theorem Reached.labelNames (h : Reached settings start units) :
    labelNames units = labelNames start := by
  simp [← h.bare, Mcs51.labelNames, CodeUnit.bare, List.flatMap_map, Label.bare, Function.comp_def]

theorem Reached.ordered (h : Reached settings start units)
    (hstart : start.Pairwise fun u v => v.Follows u) : units.Pairwise fun u v => v.Follows u := by
  rw [← h.bare] at hstart
  exact List.pairwise_map.mp hstart

/-- A label of a unit that is placed has the address of the unit. -/
theorem address_placeAt {u : CodeUnit} (horigins : ∀ l ∈ u.labels, l.origin? = some u.origin)
    {point : UInt32} {l : Label} (hl : l ∈ (u.placeAt point).labels) : l.address = point := by
  obtain ⟨m, hm, rfl⟩ := List.mem_map.mp hl
  simp only [Label.address, Label.origin, horigins m hm, Option.getD_some]
  rw [UInt32.add_comm, UInt32.sub_add_cancel]

/-- The labels of placed units, with the addresses of the units. -/
theorem Reached.labels_place (h : Reached settings start units)
    (hstart : ∀ u ∈ start, u.Initial) :
    labels (place units)
      = (place units).flatMap fun u => u.labels.map fun l => (l.name, u.point) := by
  simp only [labels, List.flatMap_def]
  congr 1
  apply List.map_congr_left
  intro v hv
  obtain ⟨u, hu, here, rfl⟩ := mem_placeFrom hv
  apply List.map_congr_left
  intro l hl
  rw [address_placeAt (fun l hl => h.origins hstart hu hl) hl]
  rfl

/-- The value of a name that occurs once in a table. -/
theorem lookup_of_mem {table : List (Text × UInt32)} (hnodup : (table.map Prod.fst).Nodup)
    {name : Text} {address : UInt32} (hmem : (name, address) ∈ table) :
    table.lookup name = some address := by
  obtain ⟨before, after, rfl⟩ := List.append_of_mem hmem
  rw [List.lookup_eq_some_iff]
  refine ⟨before, after, rfl, fun entry hentry => ?_⟩
  rw [List.map_append, List.map_cons] at hnodup
  have hne := (List.nodup_append.mp hnodup).2.2 entry.1 (List.mem_map_of_mem hentry) name
    List.mem_cons_self
  simpa using fun heq => hne heq.symm

theorem map_fst_labels (units : List CodeUnit) :
    (labels units).map Prod.fst = labelNames units := by
  simp [labels, labelNames, List.map_flatMap, Function.comp_def]

/-- The units after a pass are placed as the ones before it say. -/
theorem consecutive_pass (hordered : units.Pairwise fun u v => v.Follows u) {number : Nat}
    {origin : UInt32} (horigin : ∀ u ∈ units, u.segment = number → u.origin = origin) :
    Consecutive origin ((place units).filter fun u => u.segment == number) := by
  have h := consecutive_placeFrom number origin units none 0
    (hordered.imp fun hfollows => hfollows.1) (by simp) horigin
  rwa [if_neg (by simp)] at h

/-- Being consecutive is a matter of addresses and sizes. -/
theorem Consecutive.map {f : CodeUnit → CodeUnit} : ∀ {units : List CodeUnit} {origin : UInt32},
    (∀ u ∈ units, (f u).point = u.point ∧ (f u).size = u.size) → Consecutive origin units →
      Consecutive origin (units.map f)
  | [], _, _, _ => trivial
  | u :: units, origin, hf, ⟨hpoint, hrest⟩ => by
    obtain ⟨hp, hs⟩ := hf u List.mem_cons_self
    refine ⟨hp.trans hpoint, ?_⟩
    rw [hp, hs]
    exact hrest.map fun v hv => hf v (List.mem_cons_of_mem _ hv)

/-- Units of one segment have one origin. -/
theorem origin_eq_of_segment_eq (hordered : units.Pairwise fun u v => v.Follows u) {u v : CodeUnit}
    (hu : u ∈ units) (hv : v ∈ units) (hsegment : u.segment = v.segment) : u.origin = v.origin := by
  have hpairs : units.Pairwise fun u v => u.segment = v.segment → u.origin = v.origin :=
    hordered.imp fun hfollows => hfollows.2
  have hflip : units.Pairwise
      (flip fun u v : CodeUnit => u.segment = v.segment → u.origin = v.origin) :=
    hpairs.imp fun h heq => (h heq.symm).symm
  exact List.Pairwise.forall_of_forall_of_flip (fun _ _ _ => rfl) hpairs hflip hu hv hsegment

section last

variable {last final : List CodeUnit}

/-- A pass that changes no size leaves the size of every unit. -/
theorem size_finish (hfinal : final = passWith (CodeUnit.compile settings) last)
    (hsame : changes last final = 0) :
    ∀ v ∈ place last, (finish settings (labels (place last)) v).size = v.size := by
  rw [passWith_eq] at hfinal
  have hplace : (place last).map CodeUnit.size = last.map CodeUnit.size :=
    map_placeFrom (fun _ _ => rfl) last none 0
  have hlength : last.length = final.length := by
    rw [hfinal, List.length_map]
    simpa using (congrArg List.length hplace).symm
  have hsizes := sizes_eq_of_changes_eq_zero hlength hsame
  rw [← hplace, hfinal, List.map_map, List.map_inj_left] at hsizes
  exact fun v hv => (hsizes v hv).symm

theorem last_points (hstart : SourceOrder start) (hreached : Reached settings start last)
    (hfinal : final = passWith (CodeUnit.compile settings) last) (hsame : changes last final = 0) :
    ∀ u ∈ final, Consecutive u.origin (final.filter fun v => v.segment == u.segment) := by
  have hsize := size_finish hfinal hsame
  rw [passWith_eq] at hfinal
  subst hfinal
  intro u hu
  obtain ⟨w, hw, rfl⟩ := List.mem_map.mp hu
  obtain ⟨v, hv, here, rfl⟩ := mem_placeFrom hw
  have hordered := hreached.ordered hstart.ordered
  have hplaced := consecutive_pass hordered fun x hx => origin_eq_of_segment_eq hordered hx hv
  rw [List.filter_map]
  refine Consecutive.map (fun x hx => ?_) ?_
  · exact ⟨finish_point _ _ x, hsize x (List.mem_filter.mp hx).1⟩
  · simpa [Function.comp_def, CodeUnit.placeAt] using hplaced

theorem last_labels (hstart : SourceOrder start) (hreached : Reached settings start last)
    (hfinal : final = passWith (CodeUnit.compile settings) last) :
    labels final = final.flatMap fun u => u.labels.map fun l => (l.name, u.point) := by
  rw [passWith_eq] at hfinal
  subst hfinal
  have hplaced := hreached.labels_place hstart.initial
  simpa [labels, List.flatMap_map] using hplaced

theorem last_references (hstart : SourceOrder start) (hreached : Reached settings start last)
    (hfinal : final = passWith (CodeUnit.compile settings) last) {u : CodeUnit} (hu : u ∈ final)
    {op : Operand} (hop : op ∈ u.operands) (href : op.isReference = true) {address : UInt32}
    (hmem : (op.symbolName, address) ∈ labels final) : op.number = address.toNat := by
  have hnames : (labels final).map Prod.fst = labelNames start := by
    rw [map_fst_labels, hfinal, hreached.pass.labelNames]
  have hlookup := lookup_of_mem (hnames ▸ hstart.nodup) hmem
  have hknown : labels final = labels (place last) := by
    rw [hfinal, passWith_eq]
    simp [labels, List.flatMap_map]
  rw [hfinal, passWith_eq] at hu
  obtain ⟨v, hv, rfl⟩ := List.mem_map.mp hu
  rw [finish_operands] at hop
  obtain ⟨op, _, rfl⟩ := List.mem_map.mp hop
  rw [Operand.symbolName_resolveBy, hknown] at hlookup
  have href' : op.isReference = true := by
    simpa [Operand.isReference] using href
  rw [Operand.resolveBy, if_pos href', hlookup]
  exact Operand.number_resolve href' _

/-- **Compiling a unit of the last pass again does not change it.** -/
theorem last_recompile (hreached : Reached settings start last)
    (hfinal : final = passWith (CodeUnit.compile settings) last) :
    ∀ u ∈ final, u.recompile settings = u := by
  intro u hu
  rw [hfinal, passWith_eq] at hu
  obtain ⟨w, hw, rfl⟩ := List.mem_map.mp hu
  obtain ⟨v, hv, here, rfl⟩ := mem_placeFrom hw
  have hhonest := ((hreached.honest v hv).placeAt here).resolve
    fun name => (labels (place last)).lookup name
  rw [finish, hhonest.compile_eq]
  exact CodeUnit.recompile_recompile settings _

/-- How a layout settles: by a pass that changes no size, over units that passes have reached. -/
theorem run_settled (hstart : SourceOrder start) (h : (run settings start).settled? = some final) :
    ∃ last, Reached settings start last ∧ final = passWith (CodeUnit.compile settings) last ∧
      changes last final = 0 :=
  passes_settled (Reached settings start) (fun _ => Reached.pass) _ start
    (Reached.refl hstart.initial) h

end last

end Layout

/-! ## Programs -/

/-- The unit compiled for the first time, where it stands and with the operands it has. -/
def CodeUnit.anew (settings : Settings) (u : CodeUnit) : CodeUnit :=
  compile settings { content := u.content, point := u.point }

/-- A unit that compiling does not change has the code and the findings of its first compilation. -/
theorem CodeUnit.eq_anew {settings : Settings} {u : CodeUnit} (h : u.Honest settings)
    (hfixed : u.recompile settings = u) :
    u.code = (u.anew settings).code ∧ u.findings? = (u.anew settings).findings? := by
  have hanew : u.anew settings = recompile settings { content := u.content, point := u.point } :=
    rfl
  rw [hanew]
  cases hc : u.content with
  | data d =>
    by_cases hk : d.kind = .ds
    · rw [recompile_reservation hc hk] at hfixed
      rw [← hfixed, recompile_reservation rfl hk]
      exact ⟨rfl, rfl⟩
    · rw [recompile_data hc hk] at hfixed
      rw [← hfixed, recompile_data rfl hk]
      exact ⟨rfl, rfl⟩
  | instruction name ops =>
    cases hi : instruction? name with
    | none =>
      rw [h.unknown name ops hc hi, recompile_unknown rfl hi]
      rw [recompile_unknown hc hi] at hfixed
      rw [← hfixed]
      exact ⟨rfl, rfl⟩
    | some i =>
      rw [recompile_known hc hi] at hfixed
      rw [← hfixed, recompile_known rfl hi]
      exact ⟨rfl, rfl⟩

/-- **The units of the last pass have the code and the problems of their first compilation.** -/
theorem Layout.last_anew {settings : Settings} {start last final : List CodeUnit}
    (hreached : Reached settings start last)
    (hfinal : final = passWith (CodeUnit.compile settings) last) :
    ∀ u ∈ final, u.code = (u.anew settings).code ∧ u.problems = (u.anew settings).problems := by
  intro u hu
  have hhonest : u.Honest settings := hreached.pass.honest u (hfinal ▸ hu)
  obtain ⟨hcode, hfindings⟩ := CodeUnit.eq_anew hhonest (last_recompile hreached hfinal u hu)
  have hposition : (u.anew settings).position = u.position := by
    simp [CodeUnit.anew, CodeUnit.position]
  exact ⟨hcode, by rw [CodeUnit.problems, CodeUnit.problems, hfindings, hposition]⟩

theorem Assembly.program_of_settled {settings : Settings} {tokens : List Token}
    {units : List CodeUnit}
    (h : (Layout.run settings (segment tokens).units).settled? = some units) (report : Report) :
    (assemble settings tokens report).program = .ok (Program.ofUnits units) := by
  simp only [assemble, assembleWith, h]

/-- A layout that does not settle leaves an error, and what was said about the tokens. -/
theorem Assembly.assemble_of_unsettled {settings : Settings} {tokens : List Token}
    (h : (Layout.run settings (segment tokens).units).settled? = none) (report : Report) :
    (assemble settings tokens report).program = .error ⟨Layout.limit settings⟩ ∧
      (assemble settings tokens report).report = report.addFindings (segment tokens).findings := by
  simp only [assemble, assembleWith, h]
  exact ⟨trivial, trivial⟩

/-- What a program is made of: settled units, and a report that has their problems. -/
theorem Assembly.assemble_ok {settings : Settings} {tokens : List Token} {report : Report}
    {p : Program} (h : (assemble settings tokens report).program = .ok p) :
    ∃ units, (Layout.run settings (segment tokens).units).settled? = some units ∧
      p = Program.ofUnits units ∧
      (assemble settings tokens report).report
        = ((report.addFindings (segment tokens).findings).merge
            (units.flatMap CodeUnit.problems)).addFindings p.check := by
  unfold assemble assembleWith at h ⊢
  simp only at h ⊢
  split at h
  · cases h
  · next units hunits =>
    cases h
    rw [hunits]
    exact ⟨units, rfl, rfl, rfl⟩

/-- The units, the program and the report of an assembly agree with each other. -/
structure FixedPoint (settings : Settings) (tokens : List Token) (before after : Report)
    (units : List CodeUnit) (p : Program) : Prop where
  /-- The units are those of the source, in source order. -/
  source : units.map CodeUnit.bare = (segment tokens).units
  program : p = Program.ofUnits units
  /-- The units of a segment stand one after the other from its origin on. -/
  points : ∀ u ∈ units,
    Layout.Consecutive u.origin (units.filter fun v => v.segment == u.segment)
  /-- The labels are those of the units, each with the address of its unit. -/
  labels : p.labels = units.flatMap fun u => u.labels.map fun l => (l.name, u.point)
  nodup : (p.labels.map Prod.fst).Nodup
  declared : (p.labels.map Prod.fst).Perm (declaredNames tokens)
  /-- A reference to a label has the label's address as its value. -/
  references : ∀ u ∈ units, ∀ op ∈ u.operands, ∀ address, op.isReference = true →
    (op.symbolName, address) ∈ p.labels → op.number = address.toNat
  /-- Compiling a unit for the first time where it stands gives its code and its problems. -/
  encodings : ∀ u ∈ units, u.code = (u.anew settings).code ∧
    u.problems = (u.anew settings).problems
  /-- The problems of the units are reported, and nothing else about them. -/
  report : after = ((before.addFindings (segment tokens).findings).merge
    (units.flatMap fun u => (u.anew settings).problems)).addFindings p.check

/-- **The layout of a program is a fixed point.** Addresses, sizes, labels, operand values and
encodings agree, whatever the source, the settings and the number of passes. -/
theorem assemble_settled (settings : Settings) (path : Text) (lines : List Text) (report : Report)
    (p : Program)
    (h : (Assembly.assemble settings (readSource path lines).reading.tokens report).program
      = .ok p) :
    ∃ units, FixedPoint settings (readSource path lines).reading.tokens report
      (Assembly.assemble settings (readSource path lines).reading.tokens report).report
      units p := by
  have hfresh := fresh_readSource path lines
  generalize (readSource path lines).reading.tokens = tokens at h hfresh ⊢
  have hstart := sourceOrder_segment hfresh
  obtain ⟨units, hrun, rfl, hreport⟩ := Assembly.assemble_ok h
  obtain ⟨last, hreached, hfinal, hsame⟩ := Layout.run_settled hstart hrun
  have hunits : Layout.Reached settings (segment tokens).units units := hfinal ▸ hreached.pass
  have hanew := Layout.last_anew hreached hfinal
  have hnames : (Layout.labels units).map Prod.fst = labelNames (segment tokens).units := by
    rw [Layout.map_fst_labels, hunits.labelNames]
  refine ⟨units, ?_⟩
  constructor
  case source => exact hunits.bare
  case program => rfl
  case points => exact Layout.last_points hstart hreached hfinal hsame
  case labels => exact Layout.last_labels hstart hreached hfinal
  case nodup => exact hnames ▸ hstart.nodup
  case declared => exact hnames ▸ (declaredNames_perm hfresh).symm
  case references =>
    intro u hu op hop address href hmem
    exact Layout.last_references hstart hreached hfinal hu hop href hmem
  case encodings => exact hanew
  case report =>
    rw [hreport]
    congr 2
    simp only [List.flatMap_def]
    congr 1
    exact List.map_congr_left fun u hu => (hanew u hu).2

/-- A forward jump that becomes a long one, over reserved space, and a jump back that fails. -/
def jumpsAcross : List Text :=
  [Text.ofString ".org 0x7f0", Text.ofString "front: jmp back", Text.ofString ".ds 300",
    Text.ofString "back: sjmp front", Text.ofString "mov dptr, #back"]

theorem assemble_settled_jumpsAcross : ∃ p,
    (Assembly.assemble {} (readSource [] jumpsAcross).reading.tokens {}).program = .ok p ∧
      ∃ units, FixedPoint {} (readSource [] jumpsAcross).reading.tokens {}
        (Assembly.assemble {} (readSource [] jumpsAcross).reading.tokens {}).report units p := by
  have hok :
      (Assembly.assemble {} (readSource [] jumpsAcross).reading.tokens {}).program.isOk = true := by
    decide +kernel
  cases hp : (Assembly.assemble {} (readSource [] jumpsAcross).reading.tokens {}).program with
  | error e => rw [hp] at hok; cases hok
  | ok p => exact ⟨p, rfl, assemble_settled {} [] jumpsAcross {} p hp⟩

end Mcs51
