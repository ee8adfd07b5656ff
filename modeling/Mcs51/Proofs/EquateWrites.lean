import Mcs51.Proofs.StringData

/-!
# Writing equates

When the text of a name changes while a source is prepared. Apart from the number of the line, a
line writes one name at most, and only if it is a well-formed definition of it (`Source.Defines`).
A name counts as defined as soon as its text is not empty. So a text that is not empty is written
once, and every later definition of its name is reported (`Source.prepare_writesOnce`); a name with
an empty text can be defined again, without a report (`Source.emptyEquate_redefined`).

* `Source.prepareLine_of_defines`: what a definition does
* `Source.prepareLine_cases`: nothing else writes a name
* `Source.get?_prepareFrom`: no source changes a text that is not empty
-/

namespace Mcs51

namespace Equates

variable {e : Equates} {name value : Text}

theorem get?_set (e : Equates) (name value : Text) : (e.set name value).get? name = some value := by
  rw [get?, set, List.lookup_cons, beq_self_eq_true]

theorem get?_atLine (e : Equates) (line : Int) (h : name ≠ lineName) :
    (e.atLine line).get? name = e.get? name :=
  get?_set_of_ne e _ h

theorem substitute_atLine (e : Equates) (line : Int) :
    (e.atLine line).substitute = e.substitute := by
  funext t
  rw [substitute, substitute, substituteWord_atLine]

/-! ## Definitions -/

/-- Three words define a name: the first of them or the second tells so. -/
theorem Line.ofWords?_eq_definition_iff {words : List Text} :
    Line.ofWords? words = some (.definition name value) ↔
      words = [Text.ofString ".equ", name, value] ∨
        name ≠ Text.ofString ".equ" ∧ words = [name, Text.ofString "equ", value] := by
  unfold Line.ofWords?
  rcases words with _ | ⟨first, rest⟩
  · simp
  · by_cases hfirst : first = Text.ofString ".equ"
    · subst hfirst
      rcases rest with _ | ⟨second, _ | ⟨third, _ | ⟨fourth, rest⟩⟩⟩ <;> simp
      rintro hne rfl
      exact absurd rfl hne
    · rcases rest with _ | ⟨second, rest⟩
      · simp [hfirst]
      · by_cases hsecond : second = Text.ofString "equ"
        · subst hsecond
          rcases rest with _ | ⟨third, _ | ⟨fourth, rest⟩⟩ <;> simp [hfirst]
          rintro rfl _
          exact hfirst
        · simp [hfirst, hsecond]

/-- A name is defined if it may be and has no text yet, or an empty one. -/
theorem refusal?_eq_none_iff : e.refusal? name = none ↔
    isSymbol name = true ∧ isReserved name = false ∧ (e.get? name).getD [] = [] := by
  unfold refusal?
  cases isSymbol name <;> cases isReserved name <;> simp

theorem refusal?_of_nonempty (hsymbol : isSymbol name = true) (hreserved : isReserved name = false)
    (h : (e.get? name).getD [] ≠ []) : e.refusal? name = some (.equateDuplicate name) := by
  have hempty : ((e.get? name).getD []).isEmpty = false := List.isEmpty_eq_false_iff.mpr h
  rw [refusal?, hsymbol, hreserved, hempty]
  rfl

theorem define?_of_words {line : Text} (h : Line.ofWords? (Text.wordsOf line)
    = some (.definition name value)) (pos : Position) :
    e.define? line pos = some (match e.refusal? name with
      | some complaint => (e, [.error complaint name pos])
      | none => (e.set name (e.substitute value), [])) := by
  rw [define?, h]
  rfl

/-- A line of a definition leaves the equates alone, unless the name is not refused. -/
theorem define?_cases {line : Text} {pos : Position} {equates : Equates} {findings : List Finding}
    (h : e.define? line pos = some (equates, findings)) :
    equates = e ∨ ∃ name value,
      Line.ofWords? (Text.wordsOf line) = some (.definition name value) ∧
      e.refusal? name = none ∧ equates = e.set name (e.substitute value) := by
  cases hwords : Line.ofWords? (Text.wordsOf line) with
  | none =>
    rw [define?, hwords] at h
    cases h
  | some shape =>
    cases shape with
    | malformed =>
      rw [define?, hwords] at h
      cases h
      exact Or.inl rfl
    | definition name value =>
      rw [define?_of_words hwords] at h
      cases hrefusal : e.refusal? name with
      | some complaint =>
        rw [hrefusal] at h
        cases h
        exact Or.inl rfl
      | none =>
        rw [hrefusal] at h
        cases h
        exact Or.inr ⟨name, value, rfl, hrefusal, rfl⟩

end Equates

namespace Source

section

variable {evaluate : Expression.Evaluator} {e : Equates} {line : Text} {pos : Position}
  {name value v : Text}

/-! ## One line -/

/-- The line after its expressions, for the equates before it. -/
def expanded (evaluate : Expression.Evaluator) (e : Equates) (line : Text) (pos : Position) :
    Expanded :=
  expand evaluate (e.atLine pos.line).numbers pos (normalize line)

/-- The line is a well-formed definition of the name: its expressions have values, it has three
words, and the name is a symbol that is not reserved. -/
structure Defines (evaluate : Expression.Evaluator) (e : Equates) (line : Text) (pos : Position)
    (name value : Text) : Prop where
  evaluated : (expanded evaluate e line pos).findings = []
  words : Text.wordsOf (expanded evaluate e line pos).text = [Text.ofString ".equ", name, value] ∨
    Text.wordsOf (expanded evaluate e line pos).text = [name, Text.ofString "equ", value]
  symbol : isSymbol name = true
  unreserved : isReserved name = false

theorem Defines.ofWords? (h : Defines evaluate e line pos name value) :
    Equates.Line.ofWords? (Text.wordsOf (expanded evaluate e line pos).text)
      = some (.definition name value) := by
  refine Equates.Line.ofWords?_eq_definition_iff.mpr (h.words.imp_right fun hwords => ⟨?_, hwords⟩)
  rintro rfl
  exact absurd h.symbol (by decide)

/-- An expression without a value keeps the line from defining anything. -/
theorem prepareLine_of_not_evaluated (h : (expanded evaluate e line pos).findings ≠ []) :
    prepareLine evaluate e line pos
      = ⟨[], e.atLine pos.line, (expanded evaluate e line pos).findings⟩ := by
  have hfindings := List.isEmpty_eq_false_iff.mpr h
  unfold expanded at hfindings ⊢
  simp only [prepareLine, hfindings, Bool.not_false, if_true]

theorem prepareLine_of_define? {equates : Equates} {findings : List Finding}
    (h : (expanded evaluate e line pos).findings = [])
    (hdefine : (e.atLine pos.line).define? (expanded evaluate e line pos).text pos
      = some (equates, findings)) :
    prepareLine evaluate e line pos = ⟨[], equates, findings⟩ := by
  unfold expanded at h hdefine
  simp only [prepareLine, h, hdefine, List.isEmpty_nil, Bool.not_true, Bool.false_eq_true,
    if_false]

theorem prepareLine_of_define?_eq_none (h : (expanded evaluate e line pos).findings = [])
    (hdefine : (e.atLine pos.line).define? (expanded evaluate e line pos).text pos = none) :
    prepareLine evaluate e line pos
      = ⟨(e.atLine pos.line).substitute (expanded evaluate e line pos).text,
          e.atLine pos.line, []⟩ := by
  unfold expanded at h hdefine ⊢
  simp only [prepareLine, h, hdefine, List.isEmpty_nil, Bool.not_true, Bool.false_eq_true,
    if_false]

/-- **A definition of a name without text gives it one.** -/
theorem prepareLine_of_defines (h : Defines evaluate e line pos name value)
    (hempty : ((e.atLine pos.line).get? name).getD [] = []) :
    prepareLine evaluate e line pos
      = ⟨[], (e.atLine pos.line).set name ((e.atLine pos.line).substitute value), []⟩ := by
  have hrefusal := Equates.refusal?_eq_none_iff.mpr ⟨h.symbol, h.unreserved, hempty⟩
  refine prepareLine_of_define? h.evaluated ?_
  rw [Equates.define?_of_words h.ofWords?, hrefusal]

/-- **A definition of a name with a text is reported, and does nothing else.** -/
theorem prepareLine_of_duplicate (h : Defines evaluate e line pos name value)
    (hfull : ((e.atLine pos.line).get? name).getD [] ≠ []) :
    prepareLine evaluate e line pos
      = ⟨[], e.atLine pos.line, [.error (.equateDuplicate name) name pos]⟩ := by
  have hrefusal := Equates.refusal?_of_nonempty h.symbol h.unreserved hfull
  refine prepareLine_of_define? h.evaluated ?_
  rw [Equates.define?_of_words h.ofWords?, hrefusal]

/-- **A line writes the number of the line, and perhaps a name that it defines and that had no
text.** -/
theorem prepareLine_cases (evaluate : Expression.Evaluator) (e : Equates) (line : Text)
    (pos : Position) :
    (prepareLine evaluate e line pos).equates = e.atLine pos.line ∨
      ∃ name value, Defines evaluate e line pos name value ∧
        ((e.atLine pos.line).get? name).getD [] = [] ∧
        (prepareLine evaluate e line pos).equates
          = (e.atLine pos.line).set name ((e.atLine pos.line).substitute value) := by
  by_cases hevaluated : (expanded evaluate e line pos).findings = []
  · cases hdefine : (e.atLine pos.line).define? (expanded evaluate e line pos).text pos with
    | none => exact Or.inl (by rw [prepareLine_of_define?_eq_none hevaluated hdefine])
    | some result =>
      obtain ⟨equates, findings⟩ := result
      rw [prepareLine_of_define? hevaluated hdefine]
      rcases Equates.define?_cases hdefine with rfl | ⟨name, value, hwords, hrefusal, rfl⟩
      · exact Or.inl rfl
      · obtain ⟨hsymbol, hreserved, hempty⟩ := Equates.refusal?_eq_none_iff.mp hrefusal
        have hshape := Equates.Line.ofWords?_eq_definition_iff.mp hwords
        refine Or.inr ⟨name, value, ⟨hevaluated, ?_, hsymbol, hreserved⟩, hempty, rfl⟩
        exact hshape.imp_right And.right
  · exact Or.inl (by rw [prepareLine_of_not_evaluated hevaluated])

/-- A line that does not define a name keeps its text. -/
theorem get?_prepareLine_of_not_defines (hname : name ≠ Equates.lineName)
    (hget : e.get? name = some v) (h : ∀ value, ¬ Defines evaluate e line pos name value) :
    (prepareLine evaluate e line pos).equates.get? name = some v := by
  rcases prepareLine_cases evaluate e line pos with hequates | ⟨other, value, hdefines, _, hequates⟩
  · rw [hequates, Equates.get?_atLine e _ hname, hget]
  · have hother : name ≠ other := by
      rintro rfl
      exact h value hdefines
    rw [hequates, Equates.get?_set_of_ne _ _ hother, Equates.get?_atLine e _ hname, hget]

/-- No line changes a text that is not empty. -/
theorem get?_prepareLine (hname : name ≠ Equates.lineName) (hget : e.get? name = some v)
    (hv : v ≠ []) : (prepareLine evaluate e line pos).equates.get? name = some v := by
  by_cases h : ∃ value, Defines evaluate e line pos name value
  · obtain ⟨value, hdefines⟩ := h
    have hfull : ((e.atLine pos.line).get? name).getD [] ≠ [] := by
      rwa [Equates.get?_atLine e _ hname, hget]
    rw [prepareLine_of_duplicate hdefines hfull]
    exact (Equates.get?_atLine e _ hname).trans hget
  · exact get?_prepareLine_of_not_defines hname hget (not_exists.mp h)

end

/-! ## Sources -/

section

variable {evaluate : Expression.Evaluator} {path name v : Text}

/-- Preparing goes on where it stopped. -/
theorem prepareFrom_append (lines more : List Text) (number : Int) (e : Equates) :
    prepareFrom evaluate path number e (lines ++ more)
      = let first := prepareFrom evaluate path number e lines
        let rest := prepareFrom evaluate path (number + lines.length) first.equates more
        ⟨first.lines ++ rest.lines, rest.equates, first.findings ++ rest.findings⟩ := by
  induction lines generalizing number e with
  | nil => simp [prepareFrom]
  | cons line lines ih =>
    have hnumber : number + 1 + (lines.length : Int) = number + (line :: lines).length := by
      rw [List.length_cons]
      omega
    simp only [List.cons_append, prepareFrom, ih, hnumber, List.append_assoc]

/-- **No source changes a text that is not empty.** -/
theorem get?_prepareFrom (hname : name ≠ Equates.lineName) (hv : v ≠ []) (lines : List Text) :
    ∀ (number : Int) (e : Equates), e.get? name = some v →
      (prepareFrom evaluate path number e lines).equates.get? name = some v := by
  induction lines with
  | nil => exact fun _ _ hget => hget
  | cons line lines ih => exact fun number e hget => ih _ _ (get?_prepareLine hname hget hv)

end

variable (evaluate : Expression.Evaluator) (path : Text) (predefined : Equates)

/-- The place of the line after the given ones. -/
def placeAfter (lines : List Text) : Position := ⟨path, 1 + lines.length⟩

/-- What one more line makes of the equates. -/
theorem equates_prepare_concat (lines : List Text) (line : Text) :
    (prepare path predefined (lines ++ [line]) evaluate).equates
      = (prepareLine evaluate (prepare path predefined lines evaluate).equates line
          (placeAfter path lines)).equates := by
  simp only [prepare, prepareFrom_append, prepareFrom, placeAfter]

/-- What one more line reports. -/
theorem findings_prepare_concat (lines : List Text) (line : Text) :
    (prepare path predefined (lines ++ [line]) evaluate).findings
      = (prepare path predefined lines evaluate).findings
        ++ (prepareLine evaluate (prepare path predefined lines evaluate).equates line
          (placeAfter path lines)).findings := by
  simp only [prepare, prepareFrom_append, prepareFrom, List.append_nil, placeAfter]

/-- More lines keep a text that is not empty. -/
theorem get?_prepare_append {before : List Text} (later : List Text) {name v : Text}
    (hname : name ≠ Equates.lineName) (hv : v ≠ [])
    (hget : (prepare path predefined before evaluate).equates.get? name = some v) :
    (prepare path predefined (before ++ later) evaluate).equates.get? name = some v := by
  simp only [prepare, prepareFrom_append] at hget ⊢
  exact get?_prepareFrom hname hv later _ _ hget

/-- **A text that is not empty is written once.** Let a name other than that of the line number have
the text `v` after some lines, which may be none. A line that is no well-formed definition of the
name keeps `v`. If `v` is not empty, all lines that follow keep it, and each well-formed definition
of the name among them adds one error, that the name is duplicated, and nothing else. If `v` is
empty, a well-formed definition adds no error and gives the name the text that it defines. -/
theorem prepare_writesOnce (before : List Text) (name v : Text) (hname : name ≠ Equates.lineName)
    (hget : (prepare path predefined before evaluate).equates.get? name = some v) :
    (∀ line, (∀ value, ¬ Defines evaluate (prepare path predefined before evaluate).equates line
        (placeAfter path before) name value) →
      (prepare path predefined (before ++ [line]) evaluate).equates.get? name = some v) ∧
    (v ≠ [] → ∀ later,
      (prepare path predefined (before ++ later) evaluate).equates.get? name = some v ∧
      ∀ line value, Defines evaluate (prepare path predefined (before ++ later) evaluate).equates
          line (placeAfter path (before ++ later)) name value →
        (prepare path predefined (before ++ later ++ [line]) evaluate).findings
          = (prepare path predefined (before ++ later) evaluate).findings
            ++ [.error (.equateDuplicate name) name (placeAfter path (before ++ later))]) ∧
    (v = [] → ∀ line value, Defines evaluate (prepare path predefined before evaluate).equates line
        (placeAfter path before) name value →
      (prepare path predefined (before ++ [line]) evaluate).equates.get? name
        = some ((prepare path predefined before evaluate).equates.substitute value) ∧
      (prepare path predefined (before ++ [line]) evaluate).findings
        = (prepare path predefined before evaluate).findings) := by
  refine ⟨fun line hline => ?_, fun hv later => ?_, fun hv line value hdefines => ?_⟩
  · rw [equates_prepare_concat]
    exact get?_prepareLine_of_not_defines hname hget hline
  · have hlater := get?_prepare_append evaluate path predefined later hname hv hget
    refine ⟨hlater, fun line value hdefines => ?_⟩
    have hfull : (((prepare path predefined (before ++ later) evaluate).equates.atLine
        (placeAfter path (before ++ later)).line).get? name).getD [] ≠ [] := by
      rwa [Equates.get?_atLine _ _ hname, hlater]
    rw [findings_prepare_concat, prepareLine_of_duplicate hdefines hfull]
  · have hempty : (((prepare path predefined before evaluate).equates.atLine
        (placeAfter path before).line).get? name).getD [] = [] := by
      rw [Equates.get?_atLine _ _ hname, hget, hv]
      rfl
    rw [equates_prepare_concat, findings_prepare_concat, prepareLine_of_defines hdefines hempty,
      List.append_nil, Equates.get?_set, Equates.substitute_atLine]
    exact ⟨rfl, rfl⟩

/-- A definition by an expression, after one of another name, is a duplicate. -/
theorem prepare_writesOnce_expression :
    let x := Text.ofString "x"
    let predefined := ({} : Equates).predefine (Text.ofString "Y") []
    let before := [Text.ofString ".equ x 5"]
    let later := [Text.ofString "y equ x"]
    let line := Text.ofString "X equ $(x + y)"
    (prepare [] predefined before).equates.get? x = some (Text.ofString "5") ∧
      Defines Expression.evaluate (prepare [] predefined (before ++ later)).equates line ⟨[], 3⟩ x
        (Text.ofString "10") ∧
      (prepare [] predefined (before ++ later)).equates.get? x = some (Text.ofString "5") ∧
      (prepare [] predefined (before ++ later ++ [line])).findings
        = [.error (.equateDuplicate x) x ⟨[], 3⟩] := by
  intro x predefined before later line
  have hget : (prepare [] predefined before).equates.get? x = some (Text.ofString "5") := by
    decide +kernel
  have hdefines : Defines Expression.evaluate (prepare [] predefined (before ++ later)).equates
      line ⟨[], 3⟩ x (Text.ofString "10") :=
    ⟨by decide +kernel, by decide +kernel, by decide, by decide⟩
  obtain ⟨_, honce, _⟩ := prepare_writesOnce Expression.evaluate [] predefined before x
    (Text.ofString "5") (by decide) hget
  obtain ⟨hlater, hduplicate⟩ := honce (by decide) later
  have hfindings : (prepare [] predefined (before ++ later)).findings = [] := by decide +kernel
  refine ⟨hget, hdefines, hlater, ?_⟩
  rw [hduplicate line _ hdefines, hfindings]
  rfl

/-- A name that is predefined with an empty text gets another one, and nothing is reported. -/
theorem emptyEquate_redefined :
    let x := Text.ofString "x"
    let predefined := ({} : Equates).predefine x []
    predefined.get? x = some [] ∧
      Defines Expression.evaluate predefined (Text.ofString ".equ x 1") ⟨[], 1⟩ x
        (Text.ofString "1") ∧
      (prepare [] predefined [Text.ofString ".equ x 1"]).equates.get? x
        = some (Text.ofString "1") ∧
      (prepare [] predefined [Text.ofString ".equ x 1"]).findings = [] :=
  ⟨by decide +kernel, ⟨by decide +kernel, by decide +kernel, by decide, by decide⟩,
    by decide +kernel, by decide +kernel⟩

end Source

end Mcs51
