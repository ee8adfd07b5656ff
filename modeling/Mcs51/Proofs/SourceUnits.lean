import Mcs51.Proofs.OperandReading
import Mcs51.Segment
import Mcs51.Token.Reader

/-!
# The units of a source

What holds of the units that `segment` makes of the tokens of a source, before any pass.

* `fresh_readSource`: the tokens of a source hold nothing that only a layout can know. Labels have
  no origin and symbols have no value.
* `Draft.Sound` is kept by every token (`Draft.Sound.add`), so it holds after all of them.
* `sourceOrder_segment`: units are bare, the segments are numbered in source order, each has one
  origin, and no two labels share a name.
* `declaredNames_perm`: the labels of units are the labels that are declared and not orphaned.
* `mnemonics_segment`: there is one instruction for each instruction name, in the same order.
* `forall_segment`: what holds of the units that tokens open holds of all units.
* `unseen_segment`: whatever the tokens are, units have no code and no size at first.
-/

namespace Mcs51

/-! ## Without what passes compute -/

/-- The label without its place in the segment. -/
def Label.bare (l : Label) : Label := { l with offset := 0 }

/-- The content without the values that resolution gives. -/
def Content.bare : Content → Content
  | .instruction name ops => .instruction name (ops.map Operand.bare)
  | .data d => .data d

/-- The unit without everything that passes compute. -/
def CodeUnit.bare (u : CodeUnit) : CodeUnit :=
  { content := u.content.bare
    labels := u.labels.map Label.bare
    origin := u.origin
    segment := u.segment }

/-- The token holds nothing that only a layout can know. -/
def Token.Fresh : Token → Prop
  | .label l => l.origin? = none ∧ l.offset = 0
  | .operand op => op.bare = op
  | .mnemonic _ | .directive _ => True

/-! ## Tokens of a source are fresh -/

namespace Line

theorem bare_readOperand {name item : Text} {pos : Position} {op : Operand}
    (h : (readOperand name pos item).result = some op) : op.bare = op := by
  unfold readOperand at h
  simp only at h
  split at h
  · cases h
  · exact Operand.bare_classify h

theorem fresh_readLabel (name : Text) (pos : Position) :
    ∀ t ∈ (readLabel name pos).tokens, t.Fresh := by
  intro t ht
  unfold readLabel at ht
  split at ht
  · simp at ht
  · split at ht
    · simp at ht
    · rw [List.mem_singleton.mp ht]
      exact ⟨rfl, rfl⟩

theorem fresh_readInstruction (name operands : Text) (pos : Position) :
    ∀ t ∈ (readInstruction name operands pos).tokens, t.Fresh := by
  intro t ht
  rcases List.mem_cons.mp ht with rfl | ht
  · trivial
  · obtain ⟨op, hop, rfl⟩ := List.mem_map.mp ht
    obtain ⟨attempt, hattempt, hresult⟩ := List.mem_filterMap.mp hop
    obtain ⟨item, _, rfl⟩ := List.mem_map.mp hattempt
    exact bare_readOperand hresult

theorem fresh_readStatement (line : Text) (pos : Position) :
    ∀ t ∈ (readStatement line pos).tokens, t.Fresh := by
  intro t ht
  unfold readStatement at ht
  split at ht
  · simp at ht
  · split at ht
    · obtain ⟨d, _, rfl⟩ := Option.map_eq_some_iff.mp (Option.mem_toList.mp ht)
      trivial
    · split at ht
      · exact fresh_readInstruction _ _ pos t ht
      · simp at ht

theorem fresh_read (text : Text) (pos : Position) : ∀ t ∈ (read text pos).tokens, t.Fresh := by
  intro t ht
  unfold read at ht
  simp only at ht
  split at ht
  · next name rest _ =>
    rcases List.mem_append.mp ht with ht | ht
    · exact fresh_readLabel name pos t ht
    · exact fresh_readStatement _ pos t ht
  · exact fresh_readStatement _ pos t ht

end Line

theorem fresh_readLinesFrom : ∀ (lines : List Text) (path : Text) (number : Int),
    ∀ t ∈ (readLinesFrom path number lines).reading.tokens, t.Fresh
  | [], path, number, t, ht => by simp [readLinesFrom] at ht
  | text :: lines, path, number, t, ht => by
    unfold readLinesFrom at ht
    simp only at ht
    split at ht
    · exact Line.fresh_read text _ t ht
    · rcases List.mem_append.mp ht with ht | ht
      · exact Line.fresh_read text _ t ht
      · exact fresh_readLinesFrom lines _ _ t ht

/-- **The tokens of a source are fresh.** -/
theorem fresh_readSource (path : Text) (lines : List Text) :
    ∀ t ∈ (readSource path lines).reading.tokens, t.Fresh :=
  fresh_readLinesFrom lines path 1

/-! ## Drafts -/

/-- The names of the labels of units. -/
def labelNames (units : List CodeUnit) : List Text :=
  units.flatMap fun u => u.labels.map Label.name

@[simp] theorem labelNames_cons (u : CodeUnit) (units : List CodeUnit) :
    labelNames (u :: units) = u.labels.map Label.name ++ labelNames units := List.flatMap_cons

/-- Nothing in the unit is computed yet, and its labels know its segment. -/
structure CodeUnit.Initial (u : CodeUnit) : Prop where
  bare : u.bare = u
  origins : ∀ l ∈ u.labels, l.origin? = some u.origin

/-- `v` comes before `u` in the source: in an earlier segment, or in the same one. -/
def CodeUnit.Follows (u v : CodeUnit) : Prop :=
  v.segment ≤ u.segment ∧ (v.segment = u.segment → v.origin = u.origin)

/-- What holds of a draft after any fresh tokens. -/
structure Draft.Sound (d : Draft) : Prop where
  nodup : d.live.Nodup
  names : d.live.Perm (d.pending.map Label.name ++ labelNames d.units)
  pending : ∀ l ∈ d.pending, l.origin? = none ∧ l.offset = 0
  initial : ∀ u ∈ d.units, u.Initial
  current : ∀ u ∈ d.units,
    u.segment ≤ d.segment ∧ (u.segment = d.segment → u.origin = d.origin)
  ordered : d.units.Pairwise CodeUnit.Follows

namespace Draft

theorem sound_empty : Sound {} where
  nodup := List.nodup_nil
  names := .refl _
  pending := by simp
  initial := by simp
  current := by simp
  ordered := .nil

theorem Sound.note {d : Draft} (h : d.Sound) (f : Finding) : (d.note f).Sound :=
  ⟨h.nodup, h.names, h.pending, h.initial, h.current, h.ordered⟩

/-- The labels that wait get the origin of the segment when a unit is opened. -/
theorem Sound.opened_labels {d : Draft} (h : d.Sound) :
    (d.pending.reverse.map fun l => (l.setOrigin d.origin).toOption.getD l)
      = d.pending.reverse.map fun l => { l with origin? := some d.origin } := by
  apply List.map_congr_left
  intro l hl
  have hnone : l.origin? = none := (h.pending l (List.mem_reverse.mp hl)).1
  simp [Label.setOrigin, hnone, Except.toOption]

theorem Sound.openUnit {d : Draft} (h : d.Sound) {content : Content}
    (hbare : content.bare = content) (takesOperands : Bool) :
    (d.openUnit content takesOperands).Sound := by
  unfold Draft.openUnit
  rw [h.opened_labels]
  refine ⟨h.nodup, ?_, by simp, ?_, ?_, ?_⟩
  · simp only [List.map_nil, List.nil_append, labelNames_cons, List.map_map]
    refine h.names.trans (List.Perm.append_right _ ?_)
    exact ((List.reverse_perm d.pending).map Label.name).symm
  · intro u hu
    rcases List.mem_cons.mp hu with rfl | hu
    · constructor
      · simp only [CodeUnit.bare, hbare, List.map_map]
        congr 1
        apply List.map_congr_left
        intro l hl
        have hzero : l.offset = 0 := (h.pending l (List.mem_reverse.mp hl)).2
        simp [Label.bare, hzero]
      · intro l hl
        obtain ⟨_, _, rfl⟩ := List.mem_map.mp hl
        rfl
    · exact h.initial u hu
  · intro u hu
    rcases List.mem_cons.mp hu with rfl | hu
    · exact ⟨Nat.le_refl _, fun _ => rfl⟩
    · exact h.current u hu
  · exact List.pairwise_cons.mpr ⟨h.current, h.ordered⟩

/-- Forgetting the labels that wait leaves the names of the labels of units. -/
theorem Sound.orphan {d : Draft} (h : d.Sound) : d.orphan.Sound := by
  refine ⟨h.nodup.filter _, ?_, by simp [Draft.orphan], h.initial, h.current, h.ordered⟩
  have hdisjoint := (List.nodup_append.mp (h.names.nodup_iff.mp h.nodup)).2.2
  have hwaiting : ∀ name,
      (d.pending.reverse.any fun l => l.name == name) = true ↔ name ∈ d.pending.map Label.name := by
    intro name
    simp [List.any_eq_true]
  refine (h.names.filter _).trans ?_
  rw [List.filter_append]
  have hpending : (d.pending.map Label.name).filter
      (fun name => !d.pending.reverse.any fun l => l.name == name) = [] := by
    rw [List.filter_eq_nil_iff]
    intro name hname
    simp [(hwaiting name).mpr hname]
  have hattached : (labelNames d.units).filter
      (fun name => !d.pending.reverse.any fun l => l.name == name) = labelNames d.units := by
    rw [List.filter_eq_self]
    intro name hname
    cases hw : d.pending.reverse.any fun l => l.name == name with
    | false => rfl
    | true => exact absurd rfl (hdisjoint name ((hwaiting name).mp hw) name hname)
  rw [hpending, hattached]
  exact .refl _

theorem Sound.addOperand {d : Draft} (h : d.Sound) {op : Operand} (hop : op.bare = op) :
    (d.addOperand op).Sound := by
  unfold Draft.addOperand
  split
  · next u units _ hunits =>
    split
    · next name ops hcontent =>
      have hinit := h.initial
      have hcurrent := h.current
      have hordered := h.ordered
      have hnames := h.names
      rw [hunits] at hinit hcurrent hordered hnames
      obtain ⟨hu, hrest⟩ := List.pairwise_cons.mp hordered
      refine ⟨h.nodup, hnames, h.pending, ?_, ?_, List.pairwise_cons.mpr ⟨hu, hrest⟩⟩
      · intro v hv
        rcases List.mem_cons.mp hv with rfl | hv
        · have hbare := (hinit u List.mem_cons_self).bare
          have hops : ops.map Operand.bare = ops := by
            have hc := congrArg CodeUnit.content hbare
            simpa [CodeUnit.bare, hcontent, Content.bare] using hc
          refine ⟨?_, (hinit u List.mem_cons_self).origins⟩
          rw [← hbare]
          simp [CodeUnit.bare, Content.bare, hops, hop, Label.bare]
        · exact hinit v (List.mem_cons_of_mem _ hv)
      · intro v hv
        rcases List.mem_cons.mp hv with rfl | hv
        · exact hcurrent u List.mem_cons_self
        · exact hcurrent v (List.mem_cons_of_mem _ hv)
    · exact h.note _
  · exact h.note _

theorem Sound.addDirective {d : Draft} (h : d.Sound) (dir : Directive) :
    (d.addDirective dir).Sound := by
  unfold Draft.addDirective
  have hclosed : Sound { d with takesOperands := false } :=
    ⟨h.nodup, h.names, h.pending, h.initial, h.current, h.ordered⟩
  split
  · -- no unit is in the new segment yet
    have horphan := hclosed.orphan
    refine ⟨horphan.nodup, horphan.names, horphan.pending, horphan.initial, ?_, horphan.ordered⟩
    intro u hu
    have hle : u.segment ≤ d.segment := (horphan.current u hu).1
    exact ⟨Nat.le_succ_of_le hle, fun heq => absurd heq (Nat.ne_of_lt (Nat.lt_succ_of_le hle))⟩
  · split
    · exact hclosed.openUnit rfl false
    · exact hclosed

/-- **A fresh token keeps a draft sound.** -/
theorem Sound.add {d : Draft} (h : d.Sound) {t : Token} (ht : t.Fresh) : (d.add t).Sound := by
  cases t with
  | mnemonic m =>
    simp only [Draft.add]
    split
    · exact (h.note _).openUnit rfl true
    · exact h.openUnit rfl true
  | operand op => exact h.addOperand ht
  | label l =>
    simp only [Draft.add]
    split
    · exact h.note _
    · next hlive =>
      have hnot : l.name ∉ d.live := by simpa using hlive
      refine ⟨List.nodup_cons.mpr ⟨hnot, h.nodup⟩, h.names.cons _, ?_, h.initial, h.current,
        h.ordered⟩
      intro m hm
      rcases List.mem_cons.mp hm with rfl | hm
      · exact ht
      · exact h.pending m hm
  | directive dir => exact h.addDirective dir

theorem Sound.addAll {tokens : List Token} : ∀ {d : Draft}, d.Sound → (∀ t ∈ tokens, t.Fresh) →
    (tokens.foldl Draft.add d).Sound := by
  induction tokens with
  | nil => exact fun h _ => h
  | cons t tokens ih =>
    intro d h hfresh
    exact ih (h.add (hfresh t List.mem_cons_self))
      fun t' ht' => hfresh t' (List.mem_cons_of_mem _ ht')

end Draft

/-! ## Units in source order -/

/-- What holds of units in source order before any pass. -/
structure SourceOrder (units : List CodeUnit) : Prop where
  initial : ∀ u ∈ units, u.Initial
  ordered : units.Pairwise fun u v => v.Follows u
  nodup : (labelNames units).Nodup

/-- The names of the labels that are declared in tokens, without orphans. -/
def declaredNames (tokens : List Token) : List Text := (tokens.foldl Draft.add {}).orphan.live

theorem sound_draft {tokens : List Token} (h : ∀ t ∈ tokens, t.Fresh) :
    (tokens.foldl Draft.add {}).orphan.Sound :=
  (Draft.sound_empty.addAll h).orphan

theorem labelNames_reverse (units : List CodeUnit) :
    (labelNames units.reverse).Perm (labelNames units) :=
  (List.reverse_perm units).flatMap_right _

/-- **The labels of units are the labels that are declared.** -/
theorem declaredNames_perm {tokens : List Token} (h : ∀ t ∈ tokens, t.Fresh) :
    (declaredNames tokens).Perm (labelNames (segment tokens).units) :=
  (sound_draft h).names.trans (labelNames_reverse _).symm

/-- **The units of fresh tokens are bare, in the order of their segments, and their labels have
different names.** -/
theorem sourceOrder_segment {tokens : List Token} (h : ∀ t ∈ tokens, t.Fresh) :
    SourceOrder (segment tokens).units where
  initial := fun u hu => (sound_draft h).initial u (List.mem_reverse.mp hu)
  ordered := List.pairwise_reverse.mpr (sound_draft h).ordered
  nodup := (declaredNames_perm h).nodup_iff.mp (sound_draft h).nodup

/-! ## Instruction names -/

/-- The instruction name of a token. -/
def Token.mnemonic? : Token → Option Mnemonic
  | .mnemonic m => some m
  | _ => none

theorem Token.eq_of_mnemonic? {t : Token} {m : Mnemonic} (h : t.mnemonic? = some m) :
    t = .mnemonic m := by
  cases t <;> cases h
  rfl

/-- The instruction name of a unit. -/
def CodeUnit.mnemonic? (u : CodeUnit) : Option Mnemonic :=
  match u.content with
  | .instruction name _ => some name
  | .data _ => none

@[simp] theorem CodeUnit.mnemonic?_bare (u : CodeUnit) : u.bare.mnemonic? = u.mnemonic? := by
  obtain ⟨content, _⟩ := u
  cases content <;> rfl

namespace Draft

/-- The names of the instructions of a draft, the last one first. -/
def mnemonics (d : Draft) : List Mnemonic := d.units.filterMap CodeUnit.mnemonic?

theorem mnemonics_addOperand (d : Draft) (op : Operand) :
    (d.addOperand op).mnemonics = d.mnemonics := by
  unfold addOperand
  split
  · next u units _ hunits =>
    split
    · next name ops hcontent =>
      simp [mnemonics, hunits, CodeUnit.mnemonic?, hcontent]
    · rfl
  · rfl

theorem mnemonics_addDirective (d : Draft) (dir : Directive) :
    (d.addDirective dir).mnemonics = d.mnemonics := by
  unfold addDirective
  split
  · rfl
  · split
    · exact List.filterMap_cons_none rfl
    · rfl

/-- Only the name of an instruction adds one. -/
theorem mnemonics_add (d : Draft) (t : Token) :
    (d.add t).mnemonics = t.mnemonic?.toList ++ d.mnemonics := by
  cases t with
  | mnemonic m =>
    simp only [add]
    split <;> simp [mnemonics, openUnit, note, Token.mnemonic?, CodeUnit.mnemonic?]
  | operand op => exact mnemonics_addOperand d op
  | label l =>
    simp only [add]
    split <;> rfl
  | directive dir => exact mnemonics_addDirective d dir

theorem mnemonics_addAll : ∀ (tokens : List Token) (d : Draft),
    (tokens.foldl add d).mnemonics = (tokens.filterMap Token.mnemonic?).reverse ++ d.mnemonics
  | [], _ => rfl
  | t :: tokens, d => by
    rw [List.foldl_cons, mnemonics_addAll tokens, mnemonics_add]
    cases h : t.mnemonic? with
    | none => simp [List.filterMap_cons_none h]
    | some m => simp [List.filterMap_cons_some h]

end Draft

/-- **There is one instruction for each name, in the same order.** -/
theorem mnemonics_segment (tokens : List Token) :
    (segment tokens).units.filterMap CodeUnit.mnemonic? = tokens.filterMap Token.mnemonic? := by
  have h := Draft.mnemonics_addAll tokens {}
  have hempty : ({} : Draft).mnemonics = [] := rfl
  rw [hempty, List.append_nil] at h
  show (tokens.foldl Draft.add {}).units.reverse.filterMap CodeUnit.mnemonic? = _
  rw [List.filterMap_reverse]
  exact List.reverse_eq_iff.mpr h

/-! ## Units are made before any pass -/

/-- The unit is one that the token opens, before it has any operands. -/
inductive Token.Opens : Token → CodeUnit → Prop
  | instruction (m : Mnemonic) (labels : List Label) (origin : UInt32) (segment : Nat) :
    Opens (.mnemonic m) { content := .instruction m [], labels, origin, segment }
  | data {dir : Directive} (h : dir.kind.isData = true) (labels : List Label) (origin : UInt32)
    (segment : Nat) : Opens (.directive dir) { content := .data dir, labels, origin, segment }

section Units

variable {P : CodeUnit → Prop}
  (hoperand : ∀ {u : CodeUnit} {name : Mnemonic} {ops : List Operand} (op : Operand),
    u.content = .instruction name ops → P u →
      P { u with content := .instruction name (ops ++ [op]) })

include hoperand

/-- What a token opens, or adds an operand to, is all that is new in a draft. -/
theorem Draft.forall_add {d : Draft} (h : ∀ u ∈ d.units, P u) {t : Token}
    (hopen : ∀ u, t.Opens u → P u) : ∀ u ∈ (d.add t).units, P u := by
  cases t with
  | mnemonic m =>
    simp only [add]
    split <;> exact List.forall_mem_cons.mpr ⟨hopen _ (.instruction m _ _ _), h⟩
  | operand op =>
    simp only [add, addOperand]
    split
    · next u units _ hunits =>
      rw [hunits, List.forall_mem_cons] at h
      split
      · next name ops hcontent =>
        exact List.forall_mem_cons.mpr ⟨hoperand op hcontent h.1, h.2⟩
      · rw [note, hunits]
        exact List.forall_mem_cons.mpr h
    · exact h
  | label l =>
    simp only [add]
    split <;> exact h
  | directive dir =>
    simp only [add, addDirective]
    split
    · exact h
    · split
      · next hdata => exact List.forall_mem_cons.mpr ⟨hopen _ (.data hdata _ _ _), h⟩
      · exact h

theorem Draft.forall_addAll : ∀ {tokens : List Token} {d : Draft}, (∀ u ∈ d.units, P u) →
    (∀ t ∈ tokens, ∀ u, t.Opens u → P u) → ∀ u ∈ (tokens.foldl add d).units, P u
  | [], _, h, _ => h
  | t :: tokens, d, h, hopen => by
    rw [List.foldl_cons]
    exact forall_addAll (forall_add hoperand h (hopen t List.mem_cons_self))
      fun t' ht' => hopen t' (List.mem_cons_of_mem t ht')

/-- **What holds of each unit that a token opens, and stays when operands are added, holds of all
units of the tokens.** -/
theorem forall_segment {tokens : List Token} (hopen : ∀ t ∈ tokens, ∀ u, t.Opens u → P u) :
    ∀ u ∈ (segment tokens).units, P u := by
  intro u hu
  have hnone : ∀ u ∈ ({} : Draft).units, P u := by simp
  exact Draft.forall_addAll hoperand hnone hopen u (List.mem_reverse.mp hu)

end Units

/-- No pass has seen the unit. -/
structure CodeUnit.Unseen (u : CodeUnit) : Prop where
  code : u.code = []
  size : u.size = 0
  findings : u.findings? = none

/-- Whatever the tokens are, units are not compiled when they are made. -/
theorem unseen_segment (tokens : List Token) : ∀ u ∈ (segment tokens).units, u.Unseen := by
  refine forall_segment (fun _ _ hu => ⟨hu.code, hu.size, hu.findings⟩) fun t _ u hu => ?_
  cases hu with
  | instruction m => exact ⟨rfl, rfl, rfl⟩
  | data => exact ⟨rfl, rfl, rfl⟩

/-! ## Unknown instructions are reported -/

namespace Draft

theorem findings_subset_addDirective (d : Draft) (dir : Directive) :
    d.findings ⊆ (d.addDirective dir).findings := by
  unfold addDirective
  split
  · exact List.subset_append_right _ _
  · split <;> exact fun _ hf => hf

theorem findings_subset_add (d : Draft) (t : Token) : d.findings ⊆ (d.add t).findings := by
  cases t with
  | mnemonic m =>
    simp only [add]
    split
    · exact List.subset_cons_self _ _
    · exact fun _ hf => hf
  | operand op =>
    simp only [add, addOperand]
    split
    · split
      · exact fun _ hf => hf
      · exact List.subset_cons_self _ _
    · exact List.subset_cons_self _ _
  | label l =>
    simp only [add]
    split
    · exact List.subset_cons_self _ _
    · exact fun _ hf => hf
  | directive dir => exact findings_subset_addDirective d dir

theorem findings_subset_addAll : ∀ (tokens : List Token) (d : Draft),
    d.findings ⊆ (tokens.foldl add d).findings
  | [], _ => fun _ hf => hf
  | t :: tokens, d => fun _ hf =>
    findings_subset_addAll tokens _ (findings_subset_add d t hf)

theorem unknown_mem_addAll {m : Mnemonic} (hunknown : Instruction.find? m.name = none)
    (hwhole : m.broken = false) : ∀ {tokens : List Token} {d : Draft}, .mnemonic m ∈ tokens →
      Finding.error (.unknownMnemonic m.name) m.name m.position
        ∈ (tokens.foldl add d).findings
  | t :: tokens, d, hm => by
    rcases List.mem_cons.mp hm with rfl | hm
    · apply findings_subset_addAll tokens
      simp [add, hunknown, hwhole, note, openUnit]
    · rw [List.foldl_cons]
      exact unknown_mem_addAll hunknown hwhole hm

end Draft

/-- **An instruction that does not exist is reported.** -/
theorem unknown_mem_segment {tokens : List Token} {m : Mnemonic} (hm : .mnemonic m ∈ tokens)
    (hunknown : Instruction.find? m.name = none) (hwhole : m.broken = false) :
    Finding.error (.unknownMnemonic m.name) m.name m.position ∈ (segment tokens).findings := by
  have hmem := Draft.unknown_mem_addAll hunknown hwhole (d := {}) hm
  exact List.mem_reverse.mpr (List.subset_append_right _ _ hmem)

end Mcs51
