import Mcs51.Proofs.SourceUnits

/-!
# Blocks of segments

Tokens that start with an `org` are segmented alike wherever they stand: the `org` forgets the
labels that wait and starts a segment, and nothing else of the tokens before it matters as long as
no label is declared twice. Only the numbers of segments go on counting.

* `Draft.Extends` — a draft is what it would be without the tokens before, in later segments
* `Draft.Extends.addAll` — tokens keep this
* `units_segment` — the units of blocks are the units of each block, in later segments
-/

namespace Mcs51

/-- The name of the label that a token declares. -/
def Token.labelName? : Token → Option Text
  | .label l => some l.name
  | .mnemonic _ | .operand _ | .directive _ => none

/-- The tokens start with an `org`. -/
def startsSegment : List Token → Bool
  | .directive dir :: _ => dir.kind == .org
  | _ => false

theorem exists_org {tokens : List Token} (h : startsSegment tokens = true) :
    ∃ dir rest, dir.kind = .org ∧ tokens = .directive dir :: rest := by
  unfold startsSegment at h
  split at h
  · next dir rest => exact ⟨dir, rest, beq_iff_eq.mp h, rfl⟩
  · cases h

/-- The unit in a segment that comes `k` segments later. -/
def CodeUnit.shift (k : Nat) (u : CodeUnit) : CodeUnit := { u with segment := u.segment + k }

namespace Draft

/-! ## Tokens before a segment -/

/-- The draft `d` is `e` after `k` segments with the given units, the last one first. -/
structure Extends (k : Nat) (units : List CodeUnit) (d e : Draft) : Prop where
  pending : d.pending = e.pending
  origin : d.origin = e.origin
  segment : d.segment = e.segment + k
  units : d.units = e.units.map (CodeUnit.shift k) ++ units
  takesOperands : d.takesOperands = e.takesOperands
  /-- What takes operands is a unit of `e`. -/
  isOpen : e.takesOperands = true → e.units ≠ []

variable {k : Nat} {units : List CodeUnit} {d e : Draft}

theorem Extends.note (h : Extends k units d e) (f : Finding) :
    Extends k units (d.note f) (e.note f) :=
  ⟨h.pending, h.origin, h.segment, h.units, h.takesOperands, h.isOpen⟩

theorem Extends.openUnit (h : Extends k units d e) (content : Content) (takesOperands : Bool) :
    Extends k units (d.openUnit content takesOperands) (e.openUnit content takesOperands) where
  pending := rfl
  origin := h.origin
  segment := h.segment
  units := by
    simp only [Draft.openUnit, h.pending, h.origin, h.segment, h.units, List.map_cons,
      List.cons_append, CodeUnit.shift]
  takesOperands := rfl
  isOpen := fun _ => List.cons_ne_nil _ _

theorem Extends.close (h : Extends k units d e) :
    Extends k units { d with takesOperands := false } { e with takesOperands := false } :=
  ⟨h.pending, h.origin, h.segment, h.units, rfl, by rintro ⟨⟩⟩

theorem Extends.addDirective (h : Extends k units d e) (dir : Directive) :
    Extends k units (d.addDirective dir) (e.addDirective dir) := by
  unfold Draft.addDirective
  split
  · refine ⟨rfl, rfl, ?_, h.units, rfl, by rintro ⟨⟩⟩
    simp only [orphan, h.segment]
    omega
  · split
    · exact h.close.openUnit _ _
    · exact h.close

theorem Extends.addOperand (h : Extends k units d e) (op : Operand) :
    Extends k units (d.addOperand op) (e.addOperand op) := by
  cases hopen : e.takesOperands with
  | false =>
    have hopen' := h.takesOperands.trans hopen
    simp only [Draft.addOperand, hopen, hopen']
    exact h.note _
  | true =>
    have hopen' := h.takesOperands.trans hopen
    obtain ⟨u, rest, hunits⟩ := List.exists_cons_of_ne_nil (h.isOpen hopen)
    have hunits' : d.units = u.shift k :: (rest.map (CodeUnit.shift k) ++ units) := by
      rw [h.units, hunits, List.map_cons, List.cons_append]
    have hcontent : (u.shift k).content = u.content := rfl
    simp only [Draft.addOperand, hopen, hopen', hunits, hunits', hcontent]
    cases u.content with
    | instruction name ops =>
      exact ⟨h.pending, h.origin, h.segment, rfl, rfl, fun _ => List.cons_ne_nil _ _⟩
    | data dir => exact h.note _

/-- **A token does the same to both drafts**, unless only one has met its label before. -/
theorem Extends.add (h : Extends k units d e) {t : Token}
    (hd : ∀ name ∈ t.labelName?, name ∉ d.live) (he : ∀ name ∈ t.labelName?, name ∉ e.live) :
    Extends k units (d.add t) (e.add t) := by
  cases t with
  | mnemonic m =>
    simp only [Draft.add]
    split
    · exact (h.note _).openUnit _ _
    · exact h.openUnit _ _
  | operand op => exact h.addOperand op
  | label l =>
    have hlabel : l.name ∈ (Token.label l).labelName? := rfl
    simp only [Draft.add]
    rw [if_neg (by simpa using hd _ hlabel), if_neg (by simpa using he _ hlabel)]
    exact ⟨congrArg (l :: ·) h.pending, h.origin, h.segment, h.units, h.takesOperands, h.isOpen⟩
  | directive dir => exact h.addDirective dir

/-- The labels of a draft were there before or are declared by the token. -/
theorem live_add (d : Draft) (t : Token) : (d.add t).live ⊆ t.labelName?.toList ++ d.live := by
  cases t with
  | mnemonic m =>
    simp only [Draft.add]
    split <;> exact List.Subset.refl _
  | operand op =>
    simp only [Draft.add, addOperand]
    split
    · split <;> exact List.Subset.refl _
    · exact List.Subset.refl _
  | label l =>
    simp only [Draft.add]
    split
    · exact List.subset_append_right _ _
    · exact List.Subset.refl _
  | directive dir =>
    simp only [Draft.add, addDirective]
    split
    · exact List.filter_sublist.subset
    · split <;> exact List.Subset.refl _

theorem live_addAll : ∀ (tokens : List Token) (d : Draft),
    (tokens.foldl Draft.add d).live ⊆ tokens.filterMap Token.labelName? ++ d.live
  | [], d => List.Subset.refl _
  | t :: tokens, d => by
    intro name hname
    rw [List.foldl_cons] at hname
    rcases List.mem_append.mp (live_addAll tokens (d.add t) hname) with hlater | hlive
    · obtain ⟨s, hs, hsname⟩ := List.mem_filterMap.mp hlater
      exact List.mem_append_left _ (List.mem_filterMap.mpr ⟨s, List.mem_cons_of_mem t hs, hsname⟩)
    · rcases List.mem_append.mp (live_add d t hlive) with hfirst | hbefore
      · exact List.mem_append_left _
          (List.mem_filterMap.mpr ⟨t, List.mem_cons_self, Option.mem_toList.mp hfirst⟩)
      · exact List.mem_append_right _ hbefore

/-- **So do tokens that declare no label twice.** -/
theorem Extends.addAll : ∀ {tokens : List Token} {d e : Draft}, Extends k units d e →
    (tokens.filterMap Token.labelName?).Nodup →
    (∀ name ∈ tokens.filterMap Token.labelName?, name ∉ d.live) →
    (∀ name ∈ tokens.filterMap Token.labelName?, name ∉ e.live) →
      Extends k units (tokens.foldl Draft.add d) (tokens.foldl Draft.add e)
  | [], _, _, h, _, _, _ => h
  | t :: tokens, d, e, h, hnodup, hd, he => by
    have hsplit : (t :: tokens).filterMap Token.labelName?
        = t.labelName?.toList ++ tokens.filterMap Token.labelName? := by
      cases hname : t.labelName? with
      | none => simp [List.filterMap_cons_none hname]
      | some name => simp [List.filterMap_cons_some hname]
    rw [hsplit] at hnodup hd he
    obtain ⟨_, hlater, hapart⟩ := List.nodup_append.mp hnodup
    -- a label that is declared later is neither live nor declared by this token
    have hstays : ∀ {c : Draft},
        (∀ name ∈ t.labelName?.toList ++ tokens.filterMap Token.labelName?, name ∉ c.live) →
        ∀ name ∈ tokens.filterMap Token.labelName?, name ∉ (c.add t).live := by
      intro c hc name hname hlive
      rcases List.mem_append.mp (live_add c t hlive) with hnow | hbefore
      · exact hapart name hnow name hname rfl
      · exact hc name (List.mem_append_right _ hname) hbefore
    rw [List.foldl_cons, List.foldl_cons]
    exact (h.add
      (fun name hname => hd name (List.mem_append_left _ (Option.mem_toList.mpr hname)))
      (fun name hname => he name (List.mem_append_left _ (Option.mem_toList.mpr hname)))).addAll
      hlater (hstays hd) (hstays he)

/-- After an `org`, a draft is one that starts with it, in later segments. -/
theorem extends_org (d : Draft) {dir : Directive} (h : dir.kind = .org) :
    Extends d.segment d.units (d.add (.directive dir)) (({} : Draft).add (.directive dir)) := by
  have hkind : (dir.kind == .org) = true := beq_iff_eq.mpr h
  simp only [Draft.add, addDirective, hkind, if_true]
  exact ⟨rfl, rfl, Nat.add_comm _ _, rfl, rfl, by rintro ⟨⟩⟩

/-- What a block does to a draft. -/
theorem extends_block (d : Draft) {tokens : List Token} (hstart : startsSegment tokens = true)
    (hnodup : (tokens.filterMap Token.labelName?).Nodup)
    (hlive : ∀ name ∈ tokens.filterMap Token.labelName?, name ∉ d.live) :
    Extends d.segment d.units (tokens.foldl Draft.add d) (tokens.foldl Draft.add {}) := by
  obtain ⟨dir, rest, hkind, rfl⟩ := exists_org hstart
  have hnames : (Token.directive dir :: rest).filterMap Token.labelName?
      = rest.filterMap Token.labelName? := List.filterMap_cons_none rfl
  rw [hnames] at hnodup hlive
  have hsubset : ∀ c : Draft, (c.add (.directive dir)).live ⊆ c.live := fun c => live_add c _
  refine (extends_org d hkind).addAll hnodup ?_ ?_
  · exact fun name hname h => hlive name hname (hsubset d h)
  · exact fun name _ h => absurd (hsubset {} h) List.not_mem_nil

/-! ## Numbers of segments -/

/-- The units of a draft are in segments from `least` on. -/
structure Numbered (least : Nat) (d : Draft) : Prop where
  segment : least ≤ d.segment
  units : ∀ u ∈ d.units, least ≤ u.segment ∧ u.segment ≤ d.segment

variable {least : Nat}

theorem Numbered.note (h : d.Numbered least) (f : Finding) : (d.note f).Numbered least :=
  ⟨h.segment, h.units⟩

theorem Numbered.openUnit (h : d.Numbered least) (content : Content) (takesOperands : Bool) :
    (d.openUnit content takesOperands).Numbered least := by
  refine ⟨h.segment, fun u hu => ?_⟩
  rcases List.mem_cons.mp hu with rfl | hu
  · exact ⟨h.segment, Nat.le_refl _⟩
  · exact h.units u hu

theorem Numbered.add (h : d.Numbered least) (t : Token) : (d.add t).Numbered least := by
  cases t with
  | mnemonic m =>
    simp only [Draft.add]
    split
    · exact (h.note _).openUnit _ _
    · exact h.openUnit _ _
  | operand op =>
    simp only [Draft.add, Draft.addOperand]
    split
    · next u rest _ hunits =>
      split
      · refine ⟨h.segment, fun v hv => ?_⟩
        rcases List.mem_cons.mp hv with rfl | hv
        · exact h.units u (hunits ▸ List.mem_cons_self)
        · exact h.units v (hunits ▸ List.mem_cons_of_mem u hv)
      · exact h.note _
    · exact h.note _
  | label l =>
    simp only [Draft.add]
    split
    · exact h.note _
    · exact ⟨h.segment, h.units⟩
  | directive dir =>
    simp only [Draft.add, addDirective]
    split
    · refine ⟨Nat.le_succ_of_le h.segment, fun u hu => ?_⟩
      obtain ⟨hleast, hmost⟩ := h.units u hu
      exact ⟨hleast, Nat.le_succ_of_le hmost⟩
    · split
      · exact Numbered.openUnit ⟨h.segment, h.units⟩ _ _
      · exact ⟨h.segment, h.units⟩

theorem Numbered.addAll : ∀ {tokens : List Token} {d : Draft}, d.Numbered least →
    (tokens.foldl Draft.add d).Numbered least
  | [], _, h => h
  | t :: tokens, _, h => by
    rw [List.foldl_cons]
    exact (h.add t).addAll

end Draft

/-! ## Blocks -/

/-- The units of a block, and the number of its segments. -/
structure Block where
  segments : Nat
  units : List CodeUnit

namespace Block

/-- The segments of the block are numbered from one on. -/
def Numbered (b : Block) : Prop := ∀ u ∈ b.units, 0 < u.segment ∧ u.segment ≤ b.segments

/-- The block that tokens are on their own. -/
def ofTokens (tokens : List Token) : Block :=
  ⟨(tokens.foldl Draft.add {}).segment, (Mcs51.segment tokens).units⟩

/-- The units of blocks one after the other, after `k` segments. -/
def join : Nat → List Block → List CodeUnit
  | _, [] => []
  | k, b :: blocks => b.units.map (CodeUnit.shift k) ++ join (k + b.segments) blocks

theorem numbered_ofTokens {tokens : List Token} (h : startsSegment tokens = true) :
    (ofTokens tokens).Numbered := by
  obtain ⟨dir, rest, hkind, rfl⟩ := exists_org h
  have hfirst : (({} : Draft).add (.directive dir)).Numbered 1 := by
    have hkind : (dir.kind == .org) = true := beq_iff_eq.mpr hkind
    simp only [Draft.add, Draft.addDirective, hkind, if_true]
    exact ⟨Nat.le_refl 1, by simp [Draft.orphan]⟩
  intro u hu
  have hnumbered : (rest.foldl Draft.add (({} : Draft).add (.directive dir))).Numbered 1 :=
    hfirst.addAll
  exact hnumbered.units u (List.mem_reverse.mp hu)

end Block

/-- Blocks add their units to those of a draft. -/
theorem Draft.units_addBlocks : ∀ {blocks : List (List Token)} {d : Draft},
    (∀ b ∈ blocks, startsSegment b = true) → (blocks.flatten.filterMap Token.labelName?).Nodup →
    (∀ name ∈ blocks.flatten.filterMap Token.labelName?, name ∉ d.live) →
      (blocks.flatten.foldl Draft.add d).units
        = (Block.join d.segment (blocks.map Block.ofTokens)).reverse ++ d.units
  | [], d, _, _, _ => rfl
  | b :: blocks, d, hstart, hnodup, hlive => by
    rw [List.flatten_cons, List.filterMap_append] at hnodup hlive
    obtain ⟨hfirst, hrest, hapart⟩ := List.nodup_append.mp hnodup
    have hblock := d.extends_block (hstart b List.mem_cons_self) hfirst
      fun name hname => hlive name (List.mem_append_left _ hname)
    have hlater : ∀ name ∈ blocks.flatten.filterMap Token.labelName?,
        name ∉ (b.foldl Draft.add d).live := by
      intro name hname hmem
      rcases List.mem_append.mp (live_addAll b d hmem) with hnow | hbefore
      · exact hapart name hnow name hname rfl
      · exact hlive name (List.mem_append_right _ hname) hbefore
    have ih := units_addBlocks (fun c hc => hstart c (List.mem_cons_of_mem b hc)) hrest hlater
    have hreverse : (Block.ofTokens b).units.reverse = (b.foldl Draft.add {}).units :=
      List.reverse_reverse _
    rw [List.flatten_cons, List.foldl_append, ih, hblock.units, hblock.segment, List.map_cons,
      Block.join, List.reverse_append, ← List.map_reverse, hreverse, List.append_assoc,
      Nat.add_comm d.segment]
    rfl

/-- **The units of blocks are the units of each block**, in later segments. -/
theorem units_segment {blocks : List (List Token)}
    (hstart : ∀ b ∈ blocks, startsSegment b = true)
    (hnodup : (blocks.flatten.filterMap Token.labelName?).Nodup) :
    (segment blocks.flatten).units = Block.join 0 (blocks.map Block.ofTokens) := by
  have h := Draft.units_addBlocks (d := {}) hstart hnodup fun _ _ => List.not_mem_nil
  have hunits : (segment blocks.flatten).units
      = (blocks.flatten.foldl Draft.add {}).units.reverse := rfl
  rw [hunits, h, List.append_nil, List.reverse_reverse]

end Mcs51
