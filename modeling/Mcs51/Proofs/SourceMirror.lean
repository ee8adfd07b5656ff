import Mcs51.Proofs.EncodingWarnings
import Mcs51.Proofs.LabelFates
import Mcs51.Proofs.SettledLayout

/-!
# A source and what is built of it

The units of a program mirror the lines of its source, and every label of the source has one of
three fates: it is refused, it belongs to a unit, or it is forgotten. Labels of a source stand on
different lines, so that what is said about a label, and a label of a unit, can be led back to one
place of the source.

* `split_unique` — the line of a label says where the label stands
* `Segmented.Fate` — the fates of a label, which exclude each other
* `fate_of_label` — every label has one of them
* `assemble_mirrors` — the units, the findings and the labels of a source mirror its lines
-/

namespace Mcs51

/-! ## The places of labels -/

/-- The label that a token declares. -/
def Token.label? : Token → Option Label
  | .label l => some l
  | .mnemonic _ | .operand _ | .directive _ => none

/-- The labels stand on different lines, in the order of the lines. -/
def Ascending (tokens : List Token) : Prop :=
  (tokens.filterMap Token.label?).Pairwise fun l m => l.position.line < m.position.line

theorem Line.label?_statement {statement : List Token} (h : Statement statement) :
    statement.filterMap Token.label? = [] := by
  cases h with
  | none => rfl
  | directive d => rfl
  | instruction m ops =>
    rw [List.filterMap_cons_none rfl, List.filterMap_map]
    exact List.filterMap_eq_nil_iff.mpr fun _ _ => rfl

/-- The label of a line, if there is one, stands on that line. -/
theorem Line.label?_read (text : Text) (pos : Position) :
    (read text pos).tokens.filterMap Token.label? = [] ∨
      ∃ l, (read text pos).tokens.filterMap Token.label? = [l] ∧ l.position = pos := by
  obtain ⟨heading, statement, htokens, hheading, hstatement⟩ := statement_read text pos
  rw [htokens, List.filterMap_append, label?_statement hstatement, List.append_nil]
  cases hheading with
  | none => exact .inl rfl
  | label name => exact .inr ⟨{ name, position := pos }, rfl, rfl⟩

theorem ascending_read (text : Text) (pos : Position) :
    Ascending (Line.read text pos).tokens ∧
      ∀ l ∈ (Line.read text pos).tokens.filterMap Token.label?, l.position.line = pos.line := by
  unfold Ascending
  rcases Line.label?_read text pos with hnone | ⟨l, hl, hpos⟩
  · rw [hnone]
    exact ⟨.nil, by simp⟩
  · rw [hl]
    refine ⟨List.pairwise_singleton _ _, ?_⟩
    intro m hm
    rw [List.mem_singleton.mp hm, hpos]

theorem ascending_lineTokensFrom : ∀ (lines : List Text) (path : Text) (number : Int),
    Ascending (lineTokensFrom path number lines).flatten ∧
      ∀ l ∈ (lineTokensFrom path number lines).flatten.filterMap Token.label?,
        number ≤ l.position.line
  | [], _, _ => ⟨.nil, by simp [lineTokensFrom]⟩
  | text :: lines, path, number => by
    obtain ⟨hline, hhere⟩ := ascending_read text ⟨path, number⟩
    unfold lineTokensFrom
    simp only
    split
    · rw [List.flatten_singleton]
      exact ⟨hline, fun l hl => Int.le_of_eq (hhere l hl).symm⟩
    · obtain ⟨hlines, hlater⟩ := ascending_lineTokensFrom lines
        (Line.pathAfter path (Line.read text ⟨path, number⟩).tokens) (number + 1)
      rw [List.flatten_cons, Ascending, List.filterMap_append]
      refine ⟨List.pairwise_append.mpr ⟨hline, hlines, ?_⟩, ?_⟩
      · intro l hl m hm
        rw [hhere l hl]
        exact hlater m hm
      · intro l hl
        rcases List.mem_append.mp hl with hl | hl
        · exact Int.le_of_eq (hhere l hl).symm
        · exact Int.le_of_lt (hlater l hl)

theorem ascending_readSource (path : Text) (lines : List Text) :
    Ascending (readSource path lines).reading.tokens := by
  rw [← flatten_lineTokens]
  exact (ascending_lineTokensFrom lines path 1).1

section Places

variable {tokens before after : List Token} {l : Label}

/-- **The line of a label says where the label stands.** -/
theorem split_unique (hplaces : Ascending tokens) (hsplit : tokens = before ++ .label l :: after)
    {before' after' : List Token} {l' : Label} (hsplit' : tokens = before' ++ .label l' :: after')
    (hposition : l'.position = l.position) : before' = before ∧ l' = l ∧ after' = after := by
  have happart : ∀ {b m a : List Token} {x y : Label},
      tokens = b ++ .label x :: (m ++ .label y :: a) → x.position.line < y.position.line := by
    intro b m a x y htokens
    have hfirst : Token.label? (.label x) = some x := rfl
    rw [Ascending, htokens, List.filterMap_append, List.filterMap_cons_some hfirst] at hplaces
    refine (List.pairwise_cons.mp (List.pairwise_append.mp hplaces).2.1).1 y ?_
    exact List.mem_filterMap.mpr ⟨.label y, by simp, rfl⟩
  rcases split_cases (hsplit'.symm.trans hsplit) with ⟨hb, hl, ha⟩ | ⟨mid, -, rfl⟩ | ⟨mid, -, rfl⟩
  · exact ⟨hb, Token.label.inj hl, ha⟩
  · have hlt := happart hsplit'
    rw [hposition] at hlt
    omega
  · have hlt := happart hsplit
    rw [hposition] at hlt
    omega

end Places

/-! ## The fates of labels -/

/-- What becomes of the label `l` that stands after `before` and is followed by `after`. -/
inductive Segmented.Fate (s : Segmented) (before : List Token) (l : Label) (after : List Token) :
    Prop
  /-- An earlier label, which is not refused itself and not forgotten, has the name: the label is
  reported as its duplicate. -/
  | refused
    (taken : SomeLabel (fun b m w => ¬ Live b m.name ∧ m.name = l.name ∧ w ≠ .forgotten) before)
    (reported : l.duplicate ∈ s.findings) (notForgotten : l.orphaned ∉ s.findings)
    (nowhere : ∀ u ∈ s.units, ∀ m ∈ u.labels, m.position ≠ l.position)
  /-- A unit follows with no `org` before it: the first such unit has the label, at the origin of
  the segment, and no other unit has it. -/
  | attached (u : CodeUnit) (free : ¬ Live before l.name)
    (follows : Wait.after after = .attached)
    (first : s.units[before.countP Token.opensUnit]? = some u)
    (origin : u.origin = originAt before) (label : { l with origin? := some u.origin } ∈ u.labels)
    (only : ∀ i v, s.units[i]? = some v → ∀ m ∈ v.labels, m.position = l.position →
      i = before.countP Token.opensUnit)
    (notRefused : l.duplicate ∉ s.findings) (notForgotten : l.orphaned ∉ s.findings)
  /-- No unit follows, or an `org` comes before it: the label is reported, and it is in no unit. If
  there is a label of its name, it is declared later. -/
  | forgotten (free : ¬ Live before l.name) (alone : Wait.after after ≠ .attached)
    (reported : l.orphaned ∈ s.findings) (notRefused : l.duplicate ∉ s.findings)
    (nowhere : ∀ u ∈ s.units, ∀ m ∈ u.labels, m.position ≠ l.position)
    (later : l.name ∈ labelNames s.units → ∃ m, .label m ∈ after ∧ m.name = l.name)

section Fates

variable {tokens before after : List Token} {l : Label}

theorem next_sourceEnd_attached {w : Wait} : w.next sourceEnd = .attached ↔ w = .attached := by
  cases w <;> decide

theorem next_sourceEnd_forgotten {w : Wait} : w.next sourceEnd = .forgotten ↔ w ≠ .attached := by
  cases w <;> decide

theorem length_units_segment (hfresh : ∀ t ∈ tokens, t.Fresh) :
    (segment tokens).units.length = tokens.countP Token.opensUnit := by
  obtain ⟨v, hrecords, hunits, -⟩ := records_segment hfresh
  have hlength := hrecords.length
  rwa [hunits, List.length_map, List.countP_append] at hlength

theorem mem_labels_iff (hfresh : ∀ t ∈ tokens, t.Fresh) {i : Nat} {u : CodeUnit}
    (hi : (segment tokens).units[i]? = some u) (m : Label) :
    m ∈ u.labels ↔ SomeLabel (Attaches i m) tokens := by
  obtain ⟨v, hrecords, hunits, -⟩ := records_segment hfresh
  have hentry : v.units[i]? = some u.labels := by
    rw [hunits, List.getElem?_map, hi]
    rfl
  rw [hrecords.units i _ hentry m, someLabel_next (by simp [sourceEnd])]
  refine someLabel_congr fun b l w => ?_
  exact ⟨fun h => { h with wait := next_sourceEnd_attached.mp h.wait },
    fun h => { h with wait := next_sourceEnd_attached.mpr h.wait }⟩

theorem mem_findings_iff (hfresh : ∀ t ∈ tokens, t.Fresh) {f : Finding}
    (hf : f.complaint.isAboutLabel = true) : f ∈ (segment tokens).findings ↔
      SomeLabel (fun b m w => (Live b m.name ∧ f = m.duplicate) ∨
        (¬ Live b m.name ∧ w ≠ .attached ∧ f = m.orphaned)) tokens := by
  obtain ⟨v, hrecords, -, hfindings⟩ := records_segment hfresh
  rw [hfindings f hf, hrecords.findings f, someLabel_next (by simp [sourceEnd])]
  refine someLabel_congr fun b m w => ?_
  rw [next_sourceEnd_forgotten]

/-- **A label is reported as a duplicate just if its name is taken.** -/
theorem duplicate_mem_iff (hfresh : ∀ t ∈ tokens, t.Fresh) (hplaces : Ascending tokens)
    (hsplit : tokens = before ++ .label l :: after) :
    l.duplicate ∈ (segment tokens).findings ↔ Live before l.name := by
  rw [mem_findings_iff hfresh rfl]
  constructor
  · rintro ⟨b, m, a, hsplit', ⟨hlive, heq⟩ | ⟨-, -, heq⟩⟩
    · have hposition : m.position = l.position := congrArg Finding.position heq.symm
      obtain ⟨rfl, rfl, rfl⟩ := split_unique hplaces hsplit hsplit' hposition
      exact hlive
    · cases congrArg Finding.complaint heq
  · exact fun hlive => ⟨before, l, after, hsplit, .inl ⟨hlive, rfl⟩⟩

/-- **A label is reported as an orphan just if its name was free and no unit took it.** -/
theorem orphaned_mem_iff (hfresh : ∀ t ∈ tokens, t.Fresh) (hplaces : Ascending tokens)
    (hsplit : tokens = before ++ .label l :: after) :
    l.orphaned ∈ (segment tokens).findings ↔
      ¬ Live before l.name ∧ Wait.after after ≠ .attached := by
  rw [mem_findings_iff hfresh rfl]
  constructor
  · rintro ⟨b, m, a, hsplit', ⟨-, heq⟩ | ⟨hfree, halone, heq⟩⟩
    · cases congrArg Finding.complaint heq
    · have hposition : m.position = l.position := congrArg Finding.position heq.symm
      obtain ⟨rfl, rfl, rfl⟩ := split_unique hplaces hsplit hsplit' hposition
      exact ⟨hfree, halone⟩
  · rintro ⟨hfree, halone⟩
    exact ⟨before, l, after, hsplit, .inr ⟨hfree, halone, rfl⟩⟩

/-- A label of a unit at the place of a label of the source is that label. -/
theorem attaches_of_mem_labels (hfresh : ∀ t ∈ tokens, t.Fresh) (hplaces : Ascending tokens)
    (hsplit : tokens = before ++ .label l :: after) {i : Nat} {u : CodeUnit}
    (hi : (segment tokens).units[i]? = some u) {m : Label} (hm : m ∈ u.labels)
    (hposition : m.position = l.position) :
    Attaches i m before l (Wait.after after) := by
  obtain ⟨b, l', a, hsplit', hattaches⟩ := (mem_labels_iff hfresh hi m).mp hm
  have hplace : l'.position = l.position := by rw [← hposition, hattaches.label]
  obtain ⟨rfl, rfl, rfl⟩ := split_unique hplaces hsplit hsplit' hplace
  exact hattaches

/-- A label whose name is that of a label without a unit is declared after it. -/
theorem exists_later (hfresh : ∀ t ∈ tokens, t.Fresh)
    (hsplit : tokens = before ++ .label l :: after) (hfree : ¬ Live before l.name)
    (halone : Wait.after after ≠ .attached) (hname : l.name ∈ labelNames (segment tokens).units) :
    ∃ m, .label m ∈ after ∧ m.name = l.name := by
  obtain ⟨u, hu, hnames⟩ := List.mem_flatMap.mp hname
  obtain ⟨m', hm', hname'⟩ := List.mem_map.mp hnames
  obtain ⟨i, hi⟩ := List.mem_iff_getElem?.mp hu
  obtain ⟨b, m, a, hsplit', hattaches⟩ := (mem_labels_iff hfresh hi m').mp hm'
  have hsame : m.name = l.name := by rw [← hname', hattaches.label]
  have hwait := hattaches.wait
  rcases split_cases (hsplit'.symm.trans hsplit) with ⟨-, -, rfl⟩ | ⟨mid, rfl, rfl⟩ | ⟨mid, -, rfl⟩
  · exact absurd hwait halone
  · -- a unit between the two would have kept the name taken
    rw [Wait.after_append, Wait.after_label] at hwait
    split at hwait
    · exact absurd hwait halone
    · exact absurd ⟨b, m, mid, rfl, hsame, by rw [hwait]; simp⟩ hfree
  · exact ⟨m, by simp, hsame⟩

/-- **Every label is refused, attached to the unit after it, or forgotten.** -/
theorem fate_of_label (hfresh : ∀ t ∈ tokens, t.Fresh) (hplaces : Ascending tokens)
    (hsplit : tokens = before ++ .label l :: after) : (segment tokens).Fate before l after := by
  have hduplicate := duplicate_mem_iff hfresh hplaces hsplit
  have horphaned := orphaned_mem_iff hfresh hplaces hsplit
  have hnowhere : (Live before l.name ∨ Wait.after after ≠ .attached) →
      ∀ u ∈ (segment tokens).units, ∀ m ∈ u.labels, m.position ≠ l.position := by
    intro hnot u hu m hm hposition
    obtain ⟨i, hi⟩ := List.mem_iff_getElem?.mp hu
    have hattaches := attaches_of_mem_labels hfresh hplaces hsplit hi hm hposition
    rcases hnot with hlive | halone
    · exact hattaches.free hlive
    · exact halone hattaches.wait
  by_cases hlive : Live before l.name
  · exact .refused hlive.exists_accepted (hduplicate.mpr hlive)
      (fun h => (horphaned.mp h).1 hlive) (hnowhere (.inl hlive))
  · have hnotRefused : l.duplicate ∉ (segment tokens).findings := fun h => hlive (hduplicate.mp h)
    by_cases hfollows : Wait.after after = .attached
    · have hlt := countP_of_attached hsplit hfollows
      rw [← length_units_segment hfresh] at hlt
      have hu := List.getElem?_eq_getElem hlt
      have hlabel := (mem_labels_iff hfresh hu _).mpr
        ⟨before, l, after, hsplit, hlive, hfollows, rfl, rfl⟩
      have horigin := (sourceOrder_segment hfresh).initial _ (List.mem_of_getElem? hu)
        |>.origins _ hlabel
      rw [Option.some.inj horigin] at hlabel
      exact .attached _ hlive hfollows hu (Option.some.inj horigin).symm hlabel
        (fun i v hi m hm hposition =>
          (attaches_of_mem_labels hfresh hplaces hsplit hi hm hposition).index.symm)
        hnotRefused (fun h => (horphaned.mp h).2 hfollows)
    · exact .forgotten hlive hfollows (horphaned.mpr ⟨hlive, hfollows⟩) hnotRefused
        (hnowhere (.inr hfollows)) (exists_later hfresh hsplit hlive hfollows)

end Fates

/-! ## What is said about a source -/

theorem Finding.taken_of_isEncoding {f : Finding} (h : f.complaint.isEncoding = true) :
    f.Taken := by
  intro t heq
  rw [heq] at h
  cases h

/-- No compilation finds an operand without an instruction. -/
theorem CodeUnit.taken_recompile (settings : Settings) (u : CodeUnit) :
    ∀ f ∈ (u.recompile settings).findings?.getD [], f.Taken := by
  intro f hf
  cases hc : u.content with
  | data d =>
    by_cases hk : d.kind = .ds
    · rw [recompile_reservation hc hk] at hf
      cases hf
    · rw [recompile_data hc hk] at hf
      cases hf
  | instruction name ops =>
    cases hi : instruction? name with
    | none =>
      rw [recompile_unknown hc hi] at hf
      cases hf
    | some i =>
      rw [recompile_known hc hi] at hf
      exact Finding.taken_of_isEncoding ((i.tame_encode _ ops).about f hf)

theorem Program.taken_checkFrom : ∀ (units : List CodeUnit) (reach : UInt32)
    (last? : Option CodeUnit), ∀ f ∈ checkFrom reach last? units, f.Taken
  | [], _, _, f, hf => by simp [checkFrom] at hf
  | u :: units, reach, last?, f, hf => by
    unfold checkFrom at hf
    split at hf
    · exact taken_checkFrom units _ _ f hf
    · simp only [List.mem_append] at hf
      rcases hf with (hf | hf) | hf
      · split at hf
        · split at hf
          · rw [List.mem_singleton.mp hf]
            exact fun t => by simp [Finding.warning]
          · cases hf
        · cases hf
      · split at hf
        · rw [List.mem_singleton.mp hf]
          exact fun t => by simp [Finding.error]
        · cases hf
      · exact taken_checkFrom units _ _ f hf

namespace Assembly

/-- All that assembling finds, each finding with the path that it has if it knows none: what is
found while units are made, then what the settled units found, and what is found about all of them.
-/
def said (settings : Settings) (tokens : List Token) (path : Text) : List (Text × Finding) :=
  ((segment tokens).findings.map fun f => (path, f)) ++
    match (Layout.run settings (segment tokens).units).settled? with
    | none => []
    | some units =>
      (units.flatMap fun u => (u.findings?.getD []).map fun f => (u.position.path, f))
        ++ (Program.ofUnits units).check.map fun f => (path, f)

/-- Assembling reports what it finds. -/
theorem problems_assemble (settings : Settings) (tokens : List Token) (report : Report) :
    (assemble settings tokens report).report.problems = report.problems ++
      (said settings tokens report.path).map fun e => Problem.ofFinding e.1 e.2 := by
  unfold assemble assembleWith said
  cases hrun : (Layout.run settings (segment tokens).units).settled? with
  | none => simp [hrun, Report.addFindings, Report.merge, Function.comp_def]
  | some units =>
    simp only [hrun, Report.addFindings, Report.merge, List.map_append, List.map_map,
      List.map_flatMap, Function.comp_def, List.append_assoc]
    rfl

/-- **Nothing that is found about a source is an operand without an instruction.** -/
theorem taken_said (settings : Settings) (path : Text) (lines : List Text) (reportPath : Text) :
    ∀ e ∈ said settings (readSource path lines).reading.tokens reportPath, e.2.Taken := by
  intro e he
  rcases List.mem_append.mp he with he | he
  · obtain ⟨f, hf, rfl⟩ := List.mem_map.mp he
    exact taken_segment path lines f hf
  · split at he
    · cases he
    · next units hunits =>
      rcases List.mem_append.mp he with he | he
      · obtain ⟨u, hu, he⟩ := List.mem_flatMap.mp he
        obtain ⟨f, hf, rfl⟩ := List.mem_map.mp he
        obtain ⟨last, hreached, hfinal, -⟩ :=
          Layout.run_settled (sourceOrder_segment (fresh_readSource path lines)) hunits
        rw [← Layout.last_recompile hreached hfinal u hu] at hf
        exact u.taken_recompile settings f hf
      · obtain ⟨f, hf, rfl⟩ := List.mem_map.mp he
        exact Program.taken_checkFrom _ _ _ f hf

end Assembly

/-! ## The mirror -/

/-- What is built of the tokens of some lines mirrors the lines. -/
structure Mirrors (settings : Settings) (path : Text) (lines : List Text) (tokens : List Token)
    (report : Report) : Prop where
  /-- The tokens are those of the lines, line by line. -/
  lineByLine : tokens = (lineTokens path lines).flatten
  /-- The units are those of the lines: one for each name of an instruction, with the operands of
  its line, and one for each directive with data. -/
  contents : (segment tokens).units.map CodeUnit.content
    = (lineTokens path lines).flatMap Line.contents
  /-- Every label is refused, attached to the unit after it, or forgotten. -/
  fates : ∀ before l after, tokens = before ++ .label l :: after →
    (segment tokens).Fate before l after
  /-- What is reported is what was found. -/
  reported : (Assembly.assemble settings tokens report).report.problems = report.problems ++
    (Assembly.said settings tokens report.path).map fun e => Problem.ofFinding e.1 e.2
  /-- No operand is without an instruction. -/
  taken : ∀ e ∈ Assembly.said settings tokens report.path, ∀ t, e.2.complaint ≠ .strayOperand t
  /-- A program has these units, compiled, and the labels of these units. -/
  program : ∀ p, (Assembly.assemble settings tokens report).program = .ok p →
    ∃ units, p = Program.ofUnits units ∧ units.map CodeUnit.bare = (segment tokens).units ∧
      p.labels.map Prod.fst = labelNames (segment tokens).units

theorem labels_of_assemble {settings : Settings} {tokens : List Token} {report : Report}
    {p : Program} (hfresh : ∀ t ∈ tokens, t.Fresh)
    (hp : (Assembly.assemble settings tokens report).program = .ok p) :
    ∃ units, p = Program.ofUnits units ∧ units.map CodeUnit.bare = (segment tokens).units ∧
      p.labels.map Prod.fst = labelNames (segment tokens).units := by
  obtain ⟨units, hrun, rfl, -⟩ := Assembly.assemble_ok hp
  obtain ⟨last, hreached, rfl, -⟩ := Layout.run_settled (sourceOrder_segment hfresh) hrun
  exact ⟨_, rfl, hreached.pass.bare,
    (Layout.map_fst_labels _).trans hreached.pass.labelNames⟩

/-- **A source is mirrored by what is built of it.** Operands go to the instruction of their line,
each instruction name and each data directive is one unit, in source order, and every label is a
duplicate, belongs to the first unit after it, or is reported and forgotten. -/
theorem assemble_mirrors (settings : Settings) (path : Text) (lines : List Text)
    (report : Report) :
    Mirrors settings path lines (readSource path lines).reading.tokens report where
  lineByLine := (flatten_lineTokens path lines).symm
  contents := contents_segment path lines
  fates _ _ _ hsplit :=
    fate_of_label (fresh_readSource path lines) (ascending_readSource path lines) hsplit
  reported := Assembly.problems_assemble settings _ report
  taken := Assembly.taken_said settings path lines report.path
  program _ hp := labels_of_assemble (fresh_readSource path lines) hp

/-- A name that is declared twice, then one that is forgotten at an `org` and declared again. -/
def redeclared : List Text :=
  [Text.ofString "up: nop", Text.ofString "up: mov r0, #1", Text.ofString "down:",
    Text.ofString ".org 16", Text.ofString "down: .db 1"]

theorem assemble_mirrors_redeclared :
    let tokens := (readSource [] redeclared).reading.tokens
    ∃ before l after, tokens = before ++ .label l :: after ∧
      (segment tokens).Fate before l after ∧ l.orphaned ∈ (segment tokens).findings ∧
      l.name ∈ labelNames (segment tokens).units := by
  intro tokens
  have hsplit : tokens = tokens.take 6
      ++ .label { name := Text.ofString "down", position := ⟨[], 3⟩ } :: tokens.drop 7 := by
    decide +kernel
  exact ⟨_, _, _, hsplit, (assemble_mirrors {} [] redeclared {}).fates _ _ _ hsplit,
    by decide +kernel, by decide +kernel⟩

end Mcs51
