import Mcs51.Proofs.SourceUnits

/-!
# Units mirror lines

A line gives at most one label, and then at most one statement: a directive, or the name of an
instruction with its operands. So operands always follow the name of their own line, and a line
gives the unit of its statement and no other.

* `Line.statement_read` — the shape of the tokens of a line
* `Draft.contents_addLine` — a line adds the contents of its statement to a draft
* `contents_segment` — the units of a source are those of its lines, in the order of the lines
* `taken_segment` — no operand of a source is left without an instruction
-/

namespace Mcs51

/-! ## Lines and their tokens -/

/-- The tokens of each line up to the one with `end`, the first of which has the given number. -/
def lineTokensFrom (path : Text) (number : Int) : List Text → List (List Token)
  | [] => []
  | text :: lines =>
    let tokens := (Line.read text ⟨path, number⟩).tokens
    if Line.endsSource tokens then [tokens]
    else tokens :: lineTokensFrom (Line.pathAfter path tokens) (number + 1) lines

/-- The tokens of each line of a source. -/
def lineTokens (path : Text) (lines : List Text) : List (List Token) := lineTokensFrom path 1 lines

theorem flatten_lineTokensFrom : ∀ (lines : List Text) (path : Text) (number : Int),
    (lineTokensFrom path number lines).flatten = (readLinesFrom path number lines).reading.tokens
  | [], _, _ => rfl
  | text :: lines, path, number => by
    unfold lineTokensFrom readLinesFrom
    simp only
    split
    · exact List.flatten_singleton
    · rw [List.flatten_cons, flatten_lineTokensFrom lines]
      rfl

theorem flatten_lineTokens (path : Text) (lines : List Text) :
    (lineTokens path lines).flatten = (readSource path lines).reading.tokens :=
  flatten_lineTokensFrom lines path 1

namespace Line

/-- The tokens declare at most one label, at the given place. -/
inductive Heading (pos : Position) : List Token → Prop
  | none : Heading pos []
  | label (name : Text) : Heading pos [.label { name, position := pos }]

/-- The tokens of what may follow the label of a line. -/
inductive Statement : List Token → Prop
  | none : Statement []
  | directive (d : Directive) : Statement [.directive d]
  | instruction (m : Mnemonic) (ops : List Operand) :
    Statement (.mnemonic m :: ops.map Token.operand)

theorem heading_readLabel (name : Text) (pos : Position) :
    Heading pos (readLabel name pos).tokens := by
  unfold readLabel
  split
  · exact .none
  · split
    · exact .none
    · exact .label name

theorem statement_readStatement (line : Text) (pos : Position) :
    Statement (readStatement line pos).tokens := by
  unfold readStatement
  split
  · exact .none
  · split
    · next name arguments _ =>
      cases hread : (Directive.read name arguments pos).result with
      | none => simpa only [hread] using .none
      | some d => simpa only [hread] using .directive d
    · split
      · exact .instruction _ _
      · exact .none

/-- **A line is a label and a statement**, both of which may be missing. -/
theorem statement_read (text : Text) (pos : Position) : ∃ heading statement,
    (read text pos).tokens = heading ++ statement ∧ Heading pos heading ∧ Statement statement := by
  unfold read
  simp only
  split
  · next name rest _ =>
    exact ⟨_, _, rfl, heading_readLabel name pos, statement_readStatement _ pos⟩
  · exact ⟨[], _, rfl, .none, statement_readStatement _ pos⟩

end Line

/-! ## The contents of a line -/

/-- The operand of a token. -/
def Token.operand? : Token → Option Operand
  | .operand op => some op
  | .mnemonic _ | .label _ | .directive _ => none

/-- The content of the unit that a token opens; an instruction takes the given operands. -/
def Token.content? (ops : List Operand) : Token → Option Content
  | .mnemonic m => some (.instruction m ops)
  | .directive d => if d.kind.isData then some (.data d) else none
  | .operand _ | .label _ => none

/-- What the tokens of a line put into code memory: one instruction for each name, which takes all
operands of the line, and one piece of data for each directive that has any. -/
def Line.contents (tokens : List Token) : List Content :=
  tokens.filterMap (Token.content? (tokens.filterMap Token.operand?))

theorem Line.contents_heading {pos : Position} {heading : List Token} (h : Heading pos heading)
    (statement : List Token) : contents (heading ++ statement) = contents statement := by
  cases h <;> rfl

theorem Line.contents_instruction (m : Mnemonic) (ops : List Operand) :
    contents (.mnemonic m :: ops.map Token.operand) = [.instruction m ops] := by
  have hops : (ops.map Token.operand).filterMap Token.operand? = ops := by
    rw [List.filterMap_map]
    exact List.filterMap_some
  have hname : (.mnemonic m :: ops.map Token.operand).filterMap Token.operand? = ops := hops
  have hnone : (ops.map Token.operand).filterMap (Token.content? ops) = [] := by
    simp [List.filterMap_map, Function.comp_def, Token.content?]
  have hfirst : Token.content? ops (.mnemonic m) = some (.instruction m ops) := rfl
  rw [contents, hname, List.filterMap_cons_some hfirst, hnone]

/-! ## What a line adds to a draft -/

/-- The finding is not about an operand without an instruction. -/
def Finding.Taken (f : Finding) : Prop := ∀ t, f.complaint ≠ .strayOperand t

namespace Draft

/-- The contents of the units, in source order. -/
def contents (d : Draft) : List Content := d.units.reverse.map CodeUnit.content

/-- No finding is about an operand without an instruction. -/
def Taken (d : Draft) : Prop := ∀ f ∈ d.findings, f.Taken

theorem Taken.note {d : Draft} (h : d.Taken) {f : Finding} (hf : f.Taken) : (d.note f).Taken := by
  intro g hg
  rcases List.mem_cons.mp hg with rfl | hg
  · exact hf
  · exact h g hg

theorem Taken.orphan {d : Draft} (h : d.Taken) : d.orphan.Taken := by
  intro f hf
  rcases List.mem_append.mp hf with hf | hf
  · obtain ⟨l, _, rfl⟩ := List.mem_map.mp (List.mem_reverse.mp hf)
    exact fun t => by simp [Finding.error]
  · exact h f hf

@[simp] theorem contents_openUnit (d : Draft) (content : Content) (takesOperands : Bool) :
    (d.openUnit content takesOperands).contents = d.contents ++ [content] := by
  simp [contents, openUnit]

/-- Operands go to the instruction that was opened last. -/
theorem addOperands_eq {m : Mnemonic} {us : List CodeUnit} : ∀ (more ops : List Operand)
    (d : Draft) (u : CodeUnit), d.takesOperands = true → d.units = u :: us →
      u.content = .instruction m ops →
      (more.map Token.operand).foldl add d
        = { d with units := { u with content := .instruction m (ops ++ more) } :: us }
  | [], ops, d, u, _, hunits, hcontent => by
    rw [List.append_nil, ← hcontent, ← hunits]
    rfl
  | op :: more, ops, d, u, hopen, hunits, hcontent => by
    have hadd : d.add (.operand op)
        = { d with units := { u with content := .instruction m (ops ++ [op]) } :: us } := by
      simp [add, addOperand, hopen, hunits, hcontent]
    have ih := addOperands_eq more (ops ++ [op]) (d.add (.operand op))
      { u with content := .instruction m (ops ++ [op]) } (by rw [hadd]; exact hopen)
      (by rw [hadd]) rfl
    rw [List.map_cons, List.foldl_cons, ih, hadd, List.append_assoc]
    rfl

theorem add_heading {pos : Position} {heading : List Token} (h : Line.Heading pos heading)
    {d : Draft} (hd : d.Taken) :
    (heading.foldl add d).contents = d.contents ∧ (heading.foldl add d).Taken := by
  cases h with
  | none => exact ⟨rfl, hd⟩
  | label name =>
    simp only [List.foldl_cons, List.foldl_nil, add]
    split
    · exact ⟨rfl, hd.note fun t => by simp [Finding.error]⟩
    · exact ⟨rfl, hd⟩

theorem add_directive (dir : Directive) {d : Draft} (hd : d.Taken) :
    (d.add (.directive dir)).contents = d.contents ++ Line.contents [.directive dir] ∧
      (d.add (.directive dir)).Taken := by
  have hclosed : Taken { d with takesOperands := false } := hd
  simp only [add, addDirective]
  split
  · next horg =>
    have hnone : Line.contents [.directive dir] = [] := by
      simp [Line.contents, Token.content?, beq_iff_eq.mp horg, DirectiveKind.isData]
    rw [hnone, List.append_nil]
    exact ⟨rfl, hclosed.orphan⟩
  · cases hdata : dir.kind.isData with
    | true =>
      simp only [if_true, contents_openUnit]
      exact ⟨by simp [Line.contents, Token.content?, hdata, contents], hclosed⟩
    | false =>
      simp only [Bool.false_eq_true, if_false]
      exact ⟨by simp [Line.contents, Token.content?, hdata, contents], hclosed⟩

theorem add_instruction (m : Mnemonic) (ops : List Operand) {d : Draft} (hd : d.Taken) :
    ((.mnemonic m :: ops.map Token.operand).foldl add d).contents
        = d.contents ++ [.instruction m ops] ∧
      ((.mnemonic m :: ops.map Token.operand).foldl add d).Taken := by
  -- what is said about the name comes before the unit is opened
  obtain ⟨e, he, hcontents, htaken⟩ : ∃ e : Draft,
      d.add (.mnemonic m) = e.openUnit (.instruction m []) true ∧ e.contents = d.contents ∧
        e.Taken := by
    simp only [add]
    split
    · exact ⟨_, rfl, rfl, hd.note fun t => by simp [Finding.error]⟩
    · exact ⟨_, rfl, rfl, hd⟩
  rw [List.foldl_cons, he, addOperands_eq ops [] _ _ rfl rfl rfl, List.nil_append, ← hcontents]
  exact ⟨by simp [contents], htaken⟩

/-- **A line adds the contents of its statement**, and leaves no operand without an instruction. -/
theorem contents_addLine {pos : Position} {heading statement : List Token}
    (hheading : Line.Heading pos heading) (hstatement : Line.Statement statement) {d : Draft}
    (hd : d.Taken) :
    ((heading ++ statement).foldl add d).contents
        = d.contents ++ Line.contents (heading ++ statement) ∧
      ((heading ++ statement).foldl add d).Taken := by
  obtain ⟨hcontents, htaken⟩ := add_heading hheading hd
  rw [List.foldl_append, Line.contents_heading hheading, ← hcontents]
  cases hstatement with
  | none => exact ⟨(List.append_nil _).symm, htaken⟩
  | directive dir => exact add_directive dir htaken
  | instruction m ops =>
    rw [Line.contents_instruction]
    exact add_instruction m ops htaken

theorem contents_addLines : ∀ (lines : List Text) (path : Text) (number : Int) {d : Draft},
    d.Taken →
    ((lineTokensFrom path number lines).flatten.foldl add d).contents
        = d.contents ++ (lineTokensFrom path number lines).flatMap Line.contents ∧
      ((lineTokensFrom path number lines).flatten.foldl add d).Taken
  | [], _, _, d, hd => ⟨(List.append_nil _).symm, hd⟩
  | text :: lines, path, number, d, hd => by
    obtain ⟨heading, statement, htokens, hheading, hstatement⟩ :=
      Line.statement_read text ⟨path, number⟩
    obtain ⟨hcontents, htaken⟩ := contents_addLine hheading hstatement hd
    rw [← htokens] at hcontents htaken
    unfold lineTokensFrom
    simp only
    split
    · rw [List.flatten_singleton, List.flatMap_singleton]
      exact ⟨hcontents, htaken⟩
    · rw [List.flatten_cons, List.foldl_append, List.flatMap_cons, ← List.append_assoc,
        ← hcontents]
      exact contents_addLines lines _ _ htaken

end Draft

/-- **The units of a source are those of its lines**, in the order of the lines. -/
theorem contents_segment (path : Text) (lines : List Text) :
    (segment (readSource path lines).reading.tokens).units.map CodeUnit.content
      = (lineTokens path lines).flatMap Line.contents := by
  have hempty : ({} : Draft).Taken := by simp [Draft.Taken]
  rw [← flatten_lineTokens]
  exact (Draft.contents_addLines lines path 1 hempty).1

/-- **No operand of a source is left without an instruction.** -/
theorem taken_segment (path : Text) (lines : List Text) :
    ∀ f ∈ (segment (readSource path lines).reading.tokens).findings, f.Taken := by
  have hempty : ({} : Draft).Taken := by simp [Draft.Taken]
  intro f hf
  rw [← flatten_lineTokens] at hf
  exact (Draft.contents_addLines lines path 1 hempty).2.orphan f (List.mem_reverse.mp hf)

end Mcs51
