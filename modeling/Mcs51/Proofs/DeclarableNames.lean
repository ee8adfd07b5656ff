import Mcs51.Proofs.PlainText

/-!
# Names that can be declared

A name is declared by a line with a colon after it, and referred to alone or after `#`. The three
are read by three functions, which look up the reserved names and the two tables of registers in
different orders. All of them come to one question: whether the name is free (`IsFree`), so a name
that can be declared is one that can be referred to.

* `Line.read_label`: a line with a name and a colon is read as the declaration of the name
* `Operand.symbolName_readSymbol`, `Operand.readConstant_of_isFree`: what refers to a name
* `declares_iff_refers`: these agree for every name
-/

namespace Mcs51

/-- The name means nothing of its own: it is not reserved, and no register or bit has it. -/
structure IsFree (name : Text) : Prop where
  unreserved : isReserved name = false
  unnamed : SpecialRegister.address? name = none

variable {name : Text} {pos : Position}

theorem isReserved_eq_false_iff : isReserved name = false ↔ Reserved.ofName? name = none := by
  rw [isReserved, Option.isSome_eq_false_iff, Option.isNone_iff_eq_none]

theorem SpecialRegister.address?_eq_none_iff :
    address? name = none ↔ byte? name = none ∧ bit? name = none := by
  rw [address?]
  cases byte? name <;> simp

/-! ## Declaring -/

namespace Line

/-- The reading of a label is that of the name if it is free, or else one error. -/
theorem readLabel_of_isFree (h : IsFree name) :
    readLabel name pos = { tokens := [.label { name, position := pos }] } := by
  rw [readLabel, h.unreserved, h.unnamed]
  rfl

theorem readLabel_of_not_isFree (h : ¬ IsFree name) :
    ∃ f : Finding, readLabel name pos = { findings := [f] } ∧ f.IsErrorAt pos := by
  unfold readLabel
  split
  · exact ⟨_, rfl, rfl, rfl⟩
  · next hreserved =>
    split
    · exact ⟨_, rfl, rfl, rfl⟩
    · next haddress =>
      refine absurd ⟨Bool.eq_false_iff.mpr hreserved, ?_⟩ h
      exact Option.not_isSome_iff_eq_none.mp haddress

/-- The line that declares a name. -/
def declaration (name : Text) : Text := name ++ Text.ofString ":"

theorem takeWhile_declaration (h : ∀ b ∈ name, Text.isNameByte b = true) :
    (declaration name).takeWhile Text.isNameByte = name ∧
      (declaration name).dropWhile Text.isNameByte = Text.ofString ":" := by
  rw [declaration, List.takeWhile_append_of_pos h, List.dropWhile_append_of_pos h]
  exact ⟨List.append_nil name, rfl⟩

/-- **A name with a colon is read as a declaration of the name and as nothing else.** -/
theorem read_label (h : isSymbol name = true) :
    read (declaration name) pos = readLabel name pos := by
  obtain ⟨_, hbytes⟩ := isNameByte_of_isSymbol h
  have hplain : ∀ b ∈ declaration name, Text.isPlain b = true := fun b hb =>
    (List.mem_append.mp hb).elim (fun hb => Text.isPlain_of_isNameByte (hbytes b hb))
      (List.all_eq_true.mp (by decide) b)
  have hnormal : normalize (declaration name) = declaration name := by
    rw [normalize_plain hplain, declaration, List.map_append,
      Text.map_lowerByte_of_isNameByte hbytes]
    rfl
  have hlabel : label? (declaration name) = some (name, []) := by
    obtain ⟨htake, hdrop⟩ := takeWhile_declaration hbytes
    cases name with
    | nil => cases h
    | cons b t =>
      have hstart := (Shape.isSymbol_cons.mp h).1
      have hline : declaration (b :: t) = b :: declaration t := rfl
      rw [hline] at htake hdrop ⊢
      simp only [label?, hstart, if_true, htake, hdrop]
      rfl
  have hrest : readStatement (Text.trim []) pos = {} := rfl
  simp only [read, hnormal, hlabel, hrest]
  show Reading.append _ _ = _
  simp only [Reading.append, List.append_nil]

end Line

/-- A source of one line is read as the line. -/
theorem reading_readSource_singleton (path line : Text) :
    (readSource path [line]).reading = Line.read line ⟨path, 1⟩ := by
  simp only [readSource, readLinesFrom]
  split
  · rfl
  · show Line.Reading.append _ _ = _
    simp only [Line.Reading.append, List.append_nil]

theorem readSource_declaration (h : isSymbol name = true) (path : Text) :
    (readSource path [Line.declaration name]).reading = Line.readLabel name ⟨path, 1⟩ := by
  rw [reading_readSource_singleton, Line.read_label h]

/-! ## Referring -/

namespace Operand

theorem read_of_isSymbol (h : isSymbol name = true) :
    read name pos = .ok ⟨name, pos, readSymbol name⟩ :=
  read_eq_ok.mpr ⟨.symbol, _, h, rfl, rfl⟩

/-- A symbol refers to its name if that is free, and to nothing otherwise. -/
theorem readSymbol_of_isFree (h : IsFree name) : readSymbol name = .symbol none := by
  obtain ⟨hbyte, hbit⟩ := SpecialRegister.address?_eq_none_iff.mp h.unnamed
  rw [readSymbol, isReserved_eq_false_iff.mp h.unreserved, hbyte, hbit]

theorem symbolName_readSymbol (h : ¬ IsFree name) :
    symbolName ⟨name, pos, readSymbol name⟩ = [] := by
  unfold readSymbol
  split
  · rfl
  · next hreserved =>
    split
    · rfl
    · next hbyte =>
      split
      · rfl
      · next hbit =>
        refine absurd ⟨isReserved_eq_false_iff.mpr hreserved, ?_⟩ h
        exact SpecialRegister.address?_eq_none_iff.mpr ⟨hbyte, hbit⟩

/-- What follows `#` is read as a constant. -/
theorem read_constant_eq_ok {inner : Text} {op : Operand} (hne : inner ≠ [])
    (h : ∀ b ∈ inner, Text.isNameByte b = true) :
    read ('#'.toUInt8 :: inner) pos = .ok op ↔
      ∃ form, (readConstant ('#'.toUInt8 :: inner) inner pos).result = some form ∧
        op = ⟨'#'.toUInt8 :: inner, pos, form⟩ := by
  have hline : Text.lineFeed ∉ inner := fun hmem => absurd (h _ hmem) (by decide)
  have hshape : Shape.of? ('#'.toUInt8 :: inner) = some .constant :=
    Shape.of?_eq_some_iff.mpr
      (Option.isSome_iff_exists.mpr ⟨inner, Shape.tagged?_eq_some_iff.mpr ⟨rfl, hne, hline⟩⟩)
  rw [read_eq_ok_iff, classify, hshape]
  refine Attempt.result_return_eq_some.trans (exists_congr fun form => and_congr_right' eq_comm)

/-- A symbol after `#` is a constant to be resolved if it is free. -/
theorem readConstant_of_isFree {text : Text} (hname : isSymbol name = true) (h : IsFree name) :
    readConstant text name pos = .done (.symbolConstant name none) := by
  rw [readConstant, (plain_of_isSymbol hname).2, hname, h.unreserved, h.unnamed]
  rfl

theorem symbolName_readConstant {text : Text} {form : Form} (hname : isSymbol name = true)
    (h : ¬ IsFree name) (hread : (readConstant text name pos).result = some form) :
    symbolName ⟨text, pos, form⟩ = [] := by
  rw [readConstant, (plain_of_isSymbol hname).2, hname] at hread
  cases hreserved : isReserved name with
  | true =>
    rw [hreserved] at hread
    cases hread
  | false =>
    cases haddress : SpecialRegister.address? name with
    | none => exact absurd ⟨hreserved, haddress⟩ h
    | some address =>
      rw [hreserved, haddress] at hread
      cases hread
      rfl

end Operand

/-! ## Names -/

/-- A line with the name and a colon gives a label of the name, and there is nothing wrong with
it. -/
def Declares (path name : Text) : Prop :=
  ∃ l : Label, (readSource path [Line.declaration name]).reading = { tokens := [.label l] } ∧
    l.name = name

/-- The text is read as an operand of the class that refers to the name. -/
def Refers (pos : Position) (text : Text) (kind : OperandClass) (name : Text) : Prop :=
  ∃ op, Operand.read text pos = .ok op ∧ op.operandClass = kind ∧ op.isReference = true ∧
    op.symbolName = name

/-- The text is read as an operand that refers to nothing, or is not read at all. -/
def NeverRefers (pos : Position) (text : Text) : Prop :=
  ∀ op, Operand.read text pos = .ok op → op.isReference = false

theorem Refers.not_neverRefers {text : Text} {kind : OperandClass}
    (h : Refers pos text kind name) : ¬ NeverRefers pos text := by
  intro hnever
  obtain ⟨op, hread, _, href, _⟩ := h
  rw [hnever op hread] at href
  cases href

/-- What a free name gives, in all three places. -/
theorem IsFree.everywhere (h : IsFree name) (hname : isSymbol name = true) (path : Text)
    (pos : Position) :
    Declares path name ∧ Refers pos name .name name ∧
      Refers pos ('#'.toUInt8 :: name) .constant name := by
  obtain ⟨hne, hbytes⟩ := isNameByte_of_isSymbol hname
  have href : (!name.isEmpty) = true := by
    rw [Bool.not_eq_true', List.isEmpty_eq_false_iff]
    exact hne
  refine ⟨⟨{ name, position := ⟨path, 1⟩ }, ?_, rfl⟩, ⟨_, Operand.read_of_isSymbol hname, ?_⟩, ?_⟩
  · rw [readSource_declaration hname, Line.readLabel_of_isFree h]
  · rw [Operand.readSymbol_of_isFree h]
    exact ⟨rfl, href, rfl⟩
  · refine ⟨⟨'#'.toUInt8 :: name, pos, .symbolConstant name none⟩, ?_, rfl, href, rfl⟩
    refine (Operand.read_constant_eq_ok hne hbytes).mpr ⟨_, ?_, rfl⟩
    rw [Operand.readConstant_of_isFree hname h, Attempt.result_done]

/-- What a name that is not free gives. -/
theorem not_isFree_everywhere (h : ¬ IsFree name) (hname : isSymbol name = true) (path : Text)
    (pos : Position) :
    (∃ f : Finding, (readSource path [Line.declaration name]).reading = { findings := [f] } ∧
      f.IsErrorAt ⟨path, 1⟩) ∧
    NeverRefers pos name ∧ NeverRefers pos ('#'.toUInt8 :: name) := by
  refine ⟨?_, fun op hread => ?_, fun op hread => ?_⟩
  · rw [readSource_declaration hname]
    exact Line.readLabel_of_not_isFree h
  · rw [Operand.read_of_isSymbol hname, Except.ok.injEq] at hread
    rw [← hread, Operand.isReference, Operand.symbolName_readSymbol h]
    rfl
  · obtain ⟨hne, hbytes⟩ := isNameByte_of_isSymbol hname
    obtain ⟨form, hconstant, rfl⟩ := (Operand.read_constant_eq_ok hne hbytes).mp hread
    rw [Operand.isReference, Operand.symbolName_readConstant hname h hconstant]
    rfl

/-- **The names that can be declared are those that can be referred to.** A symbol is declared by a
line with a colon after it if and only if it is a reference to itself, and if and only if it is one
after `#`. Otherwise the line gives no token and one error, and neither operand refers to
anything. -/
theorem declares_iff_refers (name : Text) (hname : isSymbol name = true) (path : Text)
    (pos : Position) :
    (Declares path name ↔ Refers pos name .name name) ∧
    (Refers pos name .name name ↔ Refers pos ('#'.toUInt8 :: name) .constant name) ∧
    (¬ Declares path name →
      (∃ f : Finding, (readSource path [Line.declaration name]).reading = { findings := [f] } ∧
        f.IsErrorAt ⟨path, 1⟩) ∧
      NeverRefers pos name ∧ NeverRefers pos ('#'.toUInt8 :: name)) := by
  by_cases h : IsFree name
  · obtain ⟨hdeclares, hrefers, hconstant⟩ := h.everywhere hname path pos
    exact ⟨iff_of_true hdeclares hrefers, iff_of_true hrefers hconstant,
      fun hnot => absurd hdeclares hnot⟩
  · obtain ⟨⟨f, hf, herror⟩, hsymbol, hconstant⟩ := not_isFree_everywhere h hname path pos
    have hdeclares : ¬ Declares path name := by
      rintro ⟨l, hl, _⟩
      rw [hf] at hl
      cases hl
    have hnot {text : Text} {kind : OperandClass} (hnever : NeverRefers pos text) :
        ¬ Refers pos text kind name :=
      fun hrefers => hrefers.not_neverRefers hnever
    exact ⟨iff_of_false hdeclares (hnot hsymbol), iff_of_false (hnot hsymbol) (hnot hconstant),
      fun _ => ⟨⟨f, hf, herror⟩, hsymbol, hconstant⟩⟩

/-- A register number of 64 bits is too large for a register, so the name is free. -/
theorem declares_iff_refers_largeNumber :
    let name := Text.ofString "r9223372036854775808"
    isSymbol name = true ∧ Declares [] name ∧ Refers {} ('#'.toUInt8 :: name) .constant name := by
  intro name
  have hname : isSymbol name = true := by decide
  obtain ⟨hdeclares, hconstant, _⟩ := declares_iff_refers name hname [] {}
  have hrefers : Refers {} name .name name :=
    ⟨⟨name, {}, .symbol none⟩, by decide +kernel, rfl, rfl, rfl⟩
  exact ⟨hname, hdeclares.mpr hrefers, hconstant.mp hrefers⟩

end Mcs51
