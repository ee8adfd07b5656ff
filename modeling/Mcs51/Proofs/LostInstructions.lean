import Mcs51.Proofs.EncodingErrors
import Mcs51.Proofs.SettledLayout

/-!
# Lost instructions

What becomes of the instructions of a source about which no error is found. An instruction whose
operands could not be read, or that does not exist, is reported; so is one that cannot be encoded,
unless it is dropped in the sense of `Instruction.Drops`.

* `Line.Reading.Reported` — an instruction with an operand that could not be read is reported
* `exists_instruction` — an instruction that is read and segmented without errors exists
* `assemble_keeps_iff` — in a program without errors just the dropped instructions have no code
-/

namespace Mcs51

/-! ## Operands that cannot be read -/

namespace Line

/-- An operand is read, or reported as one error. -/
theorem decides_readOperand (name : Text) (pos : Position) (item : Text) :
    (readOperand name pos item).Decides pos := by
  unfold readOperand
  simp only
  split
  · exact Attempt.decides_error _ _ _
  · exact Operand.decides_classify _ _

/-- An instruction some of whose operands could not be read is reported. -/
def Reading.Reported (r : Reading) : Prop :=
  ∀ m, .mnemonic m ∈ r.tokens → m.broken = true → ∃ f ∈ r.findings, f.severity = .error

theorem Reading.Reported.append {r s : Reading} (hr : r.Reported) (hs : s.Reported) :
    (r ++ s).Reported := by
  intro m hm hbroken
  rcases List.mem_append.mp hm with hm | hm
  · obtain ⟨f, hf, herror⟩ := hr m hm hbroken
    exact ⟨f, List.mem_append_left _ hf, herror⟩
  · obtain ⟨f, hf, herror⟩ := hs m hm hbroken
    exact ⟨f, List.mem_append_right _ hf, herror⟩

theorem reported_of_tokens_eq_nil {r : Reading} (h : r.tokens = []) : r.Reported :=
  fun m hm => by rw [h] at hm; cases hm

theorem reported_readLabel (name : Text) (pos : Position) : (readLabel name pos).Reported := by
  unfold readLabel
  split
  · exact reported_of_tokens_eq_nil rfl
  · split
    · exact reported_of_tokens_eq_nil rfl
    · exact fun m hm => nomatch List.mem_singleton.mp hm

theorem reported_readInstruction (name operands : Text) (pos : Position) :
    (readInstruction name operands pos).Reported := by
  intro m hm hbroken
  rcases List.mem_cons.mp hm with heq | hm
  · cases heq
    obtain ⟨attempt, hattempt, hfails⟩ := List.any_eq_true.mp hbroken
    obtain ⟨item, _, rfl⟩ := List.mem_map.mp hattempt
    rw [Bool.not_eq_true', Attempt.succeeds, Option.isSome_eq_false_iff, Option.isNone_iff_eq_none]
      at hfails
    obtain ⟨f, hf, herror⟩ := (decides_readOperand name pos item).loud hfails
    exact ⟨f, List.mem_flatMap.mpr ⟨_, hattempt, hf⟩, herror⟩
  · obtain ⟨op, _, hop⟩ := List.mem_map.mp hm
    cases hop

theorem reported_readStatement (line : Text) (pos : Position) :
    (readStatement line pos).Reported := by
  unfold readStatement
  split
  · exact reported_of_tokens_eq_nil rfl
  · split
    · intro m hm
      obtain ⟨d, _, hd⟩ := Option.map_eq_some_iff.mp (Option.mem_toList.mp hm)
      cases hd
    · split
      · exact reported_readInstruction _ _ pos
      · exact reported_of_tokens_eq_nil rfl

theorem reported_read (text : Text) (pos : Position) : (read text pos).Reported := by
  unfold read
  simp only
  split
  · exact (reported_readLabel _ pos).append (reported_readStatement _ pos)
  · exact reported_readStatement _ pos

end Line

theorem reported_readLinesFrom : ∀ (lines : List Text) (path : Text) (number : Int),
    (readLinesFrom path number lines).reading.Reported
  | [], _, _ => Line.reported_of_tokens_eq_nil rfl
  | text :: lines, path, number => by
    unfold readLinesFrom
    simp only
    split
    · exact Line.reported_read text _
    · exact (Line.reported_read text _).append (reported_readLinesFrom lines _ _)

/-! ## Errors in a report -/

namespace Report

@[simp] theorem hasErrors_merge (r : Report) (problems : List Problem) :
    (r.merge problems).hasErrors = (r.hasErrors || problems.any (·.severity == .error)) := by
  have hany : ∀ ps : List Problem, (ps.countP (·.severity == .error) != 0) =
      ps.any (·.severity == .error) := by
    intro ps
    rw [Bool.eq_iff_iff, bne_iff_ne, List.any_eq_true, ← Nat.pos_iff_ne_zero, List.countP_pos_iff]
  unfold hasErrors count merge
  rw [hany, hany, List.any_append]

@[simp] theorem hasErrors_addFindings (r : Report) (findings : List Finding) :
    (r.addFindings findings).hasErrors = (r.hasErrors || findings.any (·.severity == .error)) := by
  rw [addFindings, hasErrors_merge, List.any_map]
  rfl

end Report

/-! ## Programs -/

/-- Assembles the lines of a source; the report has what reading them found. -/
def Assembly.ofLines (settings : Settings) (path : Text) (lines : List Text) (report : Report) :
    Assembly :=
  assemble settings (readSource path lines).reading.tokens
    (report.addFindings (readSource path lines).reading.findings)

/-- Encoded instructions have bytes, since they decode. -/
theorem Instruction.encode_ne_nil {i : Instruction} (hi : i ∈ all) {site : Site}
    {ops : List Operand} {code : Code} (h : (i.encode site ops).result = some code) :
    code ≠ [] := by
  obtain ⟨machine, _, values, hdecode, _⟩ := encodes hi h
  rintro rfl
  cases hdecode

namespace CodeUnit

variable {settings : Settings} {u : CodeUnit} {name : Mnemonic} {ops : List Operand}
  {i : Instruction}

theorem mem_all_of_instruction? (hi : instruction? name = some i) : i ∈ Instruction.all := by
  unfold instruction? at hi
  split at hi
  · cases hi
  · exact List.mem_of_find?_eq_some hi

/-- A compiled instruction has code of its size exactly where encoding has a result. -/
theorem kept_iff (hfixed : u.recompile settings = u) (hc : u.content = .instruction name ops)
    (hi : instruction? name = some i) :
    u.code ≠ [] ∧ u.size = u.code.length ↔
      (i.encode ⟨settings, u.point, name⟩ ops).result ≠ none := by
  rw [recompile_known hc hi] at hfixed
  have hcode := congrArg code hfixed
  have hsize := congrArg size hfixed
  simp only at hcode hsize
  cases hresult : (i.encode ⟨settings, u.point, name⟩ ops).result with
  | none =>
    rw [hresult, Option.getD_none] at hcode
    exact ⟨fun ⟨hne, _⟩ => absurd hcode.symm hne, fun hne => absurd rfl hne⟩
  | some code =>
    rw [hresult, Option.getD_some] at hcode
    rw [hresult, Option.map_some, Option.getD_some] at hsize
    have hne := Instruction.encode_ne_nil (mem_all_of_instruction? hi) hresult
    exact ⟨fun _ => nofun, fun _ => ⟨hcode ▸ hne, by rw [← hsize, hcode]⟩⟩

/-- The errors of a compiled instruction are errors of its encoding. -/
theorem error_problems (hfixed : u.recompile settings = u)
    (hc : u.content = .instruction name ops) (hi : instruction? name = some i)
    (h : (i.encode ⟨settings, u.point, name⟩ ops).HasError) :
    ∃ p ∈ u.problems, p.severity = .error := by
  rw [recompile_known hc hi] at hfixed
  have hfindings := congrArg findings? hfixed
  simp only at hfindings
  obtain ⟨f, hf, herror⟩ := h
  refine ⟨Problem.ofFinding u.position.path f, ?_, herror⟩
  rw [problems, ← hfindings]
  exact List.mem_map_of_mem hf

end CodeUnit

/-- Units that passes reach have the instruction names of the tokens. -/
theorem Layout.Reached.mnemonics {settings : Settings} {tokens : List Token}
    {units : List CodeUnit} (h : Reached settings (segment tokens).units units) :
    units.filterMap CodeUnit.mnemonic? = tokens.filterMap Token.mnemonic? := by
  rw [← mnemonics_segment, ← h.bare, List.filterMap_map]
  congr 1
  funext u
  exact (CodeUnit.mnemonic?_bare u).symm

/-- An instruction that is read and segmented without errors exists. -/
theorem exists_instruction {path : Text} {lines : List Text} {m : Mnemonic}
    (hm : .mnemonic m ∈ (readSource path lines).reading.tokens)
    (hread : ∀ f ∈ (readSource path lines).reading.findings, f.severity ≠ .error)
    (hsegment : ∀ f ∈ (segment (readSource path lines).reading.tokens).findings,
      f.severity ≠ .error) :
    ∃ i, CodeUnit.instruction? m = some i := by
  have hwhole : m.broken = false := by
    rw [← Bool.not_eq_true]
    intro hbroken
    obtain ⟨f, hf, herror⟩ := reported_readLinesFrom lines path 1 m hm hbroken
    exact hread f hf herror
  cases hfind : Instruction.find? m.name with
  | none => exact absurd rfl (hsegment _ (unknown_mem_segment hm hfind hwhole))
  | some i =>
    refine ⟨i, ?_⟩
    simp [CodeUnit.instruction?, hwhole, hfind]

/-- **No instruction is lost but those that are dropped.** If neither reading nor assembling a
source finds an error, every instruction name has its unit, in the same order, and the unit has code
of its size exactly where the instruction is not dropped. -/
theorem assemble_keeps_iff (settings : Settings) (path : Text) (lines : List Text)
    (report : Report) (p : Program)
    (h : (Assembly.ofLines settings path lines report).program = .ok p)
    (hclean : (Assembly.ofLines settings path lines report).report.hasErrors = false) :
    ∃ units, p = Program.ofUnits units ∧
      units.filterMap CodeUnit.mnemonic?
        = (readSource path lines).reading.tokens.filterMap Token.mnemonic? ∧
      ∀ u ∈ units, ∀ name ops, u.content = .instruction name ops →
        ∃ i, CodeUnit.instruction? name = some i ∧
          (u.code ≠ [] ∧ u.size = u.code.length ↔ ¬ i.Drops settings ops) := by
  unfold Assembly.ofLines at h hclean
  obtain ⟨units, hrun, rfl, hreport⟩ := Assembly.assemble_ok h
  obtain ⟨last, hreached, hfinal, _⟩ :=
    Layout.run_settled (sourceOrder_segment (fresh_readSource path lines)) hrun
  have hnames := (hfinal ▸ hreached.pass : Layout.Reached settings _ units).mnemonics
  -- No error comes from reading, from segmenting or from a unit.
  rw [hreport] at hclean
  simp only [Report.hasErrors_addFindings, Report.hasErrors_merge, Bool.or_eq_false_iff,
    List.any_eq_false, beq_iff_eq] at hclean
  obtain ⟨⟨⟨⟨_, hread⟩, hsegment⟩, hunits⟩, _⟩ := hclean
  refine ⟨units, rfl, hnames, fun u hu name ops hc => ?_⟩
  have hname : name ∈ units.filterMap CodeUnit.mnemonic? :=
    List.mem_filterMap.mpr ⟨u, hu, by rw [CodeUnit.mnemonic?, hc]⟩
  rw [hnames] at hname
  obtain ⟨t, ht, htname⟩ := List.mem_filterMap.mp hname
  have hm : .mnemonic name ∈ (readSource path lines).reading.tokens :=
    Token.eq_of_mnemonic? htname ▸ ht
  obtain ⟨i, hi⟩ := exists_instruction hm hread hsegment
  have hfixed := Layout.last_recompile hreached hfinal u hu
  have hquiet : ¬ (i.encode ⟨settings, u.point, name⟩ ops).HasError := by
    intro herror
    obtain ⟨q, hq, he⟩ := CodeUnit.error_problems hfixed hc hi herror
    exact hunits q (List.mem_flatMap.mpr ⟨u, hu, hq⟩) he
  refine ⟨i, hi, ?_⟩
  rw [CodeUnit.kept_iff hfixed hc hi, ← Instruction.lost_iff (CodeUnit.mem_all_of_instruction? hi)
    ⟨settings, u.point, name⟩ ops]
  exact ⟨fun hne hlost => hne hlost.1, fun hnot hnone => hnot ⟨hnone, hquiet⟩⟩

/-- The settings under which the omission of an operand is warned of. -/
def warnsOfOmission : Settings := { policy := Policy.standard.set .omittedOperand .warn }

/-- An omitted `A` before `A` itself, which can be its source as a byte only. -/
def omission : List Text := [Text.ofString "top: orl a"]

theorem assemble_keeps_iff_omission : ∃ p,
    (Assembly.ofLines warnsOfOmission [] omission {}).program = .ok p ∧
      (Assembly.ofLines warnsOfOmission [] omission {}).report.hasErrors = false ∧
      ∃ units, p = Program.ofUnits units ∧
        units.filterMap CodeUnit.mnemonic?
          = (readSource [] omission).reading.tokens.filterMap Token.mnemonic? ∧
        ∀ u ∈ units, ∀ name ops, u.content = .instruction name ops →
          ∃ i, CodeUnit.instruction? name = some i ∧
            (u.code ≠ [] ∧ u.size = u.code.length ↔ ¬ i.Drops warnsOfOmission ops) := by
  have hok : (Assembly.ofLines warnsOfOmission [] omission {}).program.isOk = true := by
    decide +kernel
  have hclean : (Assembly.ofLines warnsOfOmission [] omission {}).report.hasErrors = false := by
    decide +kernel
  cases hp : (Assembly.ofLines warnsOfOmission [] omission {}).program with
  | error e => rw [hp] at hok; cases hok
  | ok p => exact ⟨p, rfl, hclean, assemble_keeps_iff warnsOfOmission [] omission {} p hp hclean⟩

/-- `add dptr` is lost with a warning: no error is reported, and its unit has no code. -/
theorem dropped_instruction :
    (Assembly.ofLines warnsOfOmission [] [Text.ofString "add dptr"] {}).report.hasErrors = false ∧
      ∃ p, (Assembly.ofLines warnsOfOmission [] [Text.ofString "add dptr"] {}).program = .ok p ∧
        ∃ u ∈ p.units, u.mnemonic?.isSome = true ∧ u.code = [] := by
  refine ⟨by decide +kernel, ?_⟩
  have hlost : (match
      (Assembly.ofLines warnsOfOmission [] [Text.ofString "add dptr"] {}).program with
      | .ok p => p.units.any fun u => u.mnemonic?.isSome && u.code.isEmpty
      | .error _ => false) = true := by
    decide +kernel
  cases hp : (Assembly.ofLines warnsOfOmission [] [Text.ofString "add dptr"] {}).program with
  | error e => rw [hp] at hlost; cases hlost
  | ok p =>
    rw [hp] at hlost
    obtain ⟨u, hu, hcode⟩ := List.any_eq_true.mp hlost
    rw [Bool.and_eq_true, List.isEmpty_iff] at hcode
    exact ⟨p, rfl, u, hu, hcode⟩

end Mcs51
