import Mcs51.Proofs.DeclarableNames
import Mcs51.Proofs.EquateWrites
import Mcs51.Proofs.NameEvaluation
import Mcs51.Proofs.NumeralValues

/-!
# Equates in expressions and in operands

The text of an equate takes effect in two ways: as a number, where the name stands in an expression,
and as a text, where the name stands in an operand. For the first any literal will do; for the
second a literal must start with a digit, or it is taken for a name. So the two agree on every
literal that starts with a digit, and differ on those that start with a letter, which are
hexadecimal ones with `h` at the end (`Equates.evaluated_agrees`). Of the evaluator no more is asked
than that it gives names their integers.

* `Numeral.parse_map_lowerByte`: what becomes of a literal when its letters are folded
* `Numeral.hexadecimal_of_startsWithLetter`: which literals start with a letter
* `Source.prepareLine_nameConstant`, `Source.prepareLine_valueConstant`: what becomes of `#x` and
  `#$(x)`
-/

namespace Mcs51

/-! ## Literals -/

namespace Numeral

variable {t : Text} {n : Nat}

theorem written_of_parse (h : parse t = .ok n) :
    ∃ radix digits, Written (Text.lower t) radix digits := by
  refine Classical.byContradiction fun hnone => ?_
  rw [parse_of_not_written (marked_split _) hnone] at h
  cases h

theorem le_largest_of_parse (h : parse t = .ok n) : n ≤ largest := by
  obtain ⟨radix, digits, hwritten⟩ := written_of_parse h
  rw [parse_of_written hwritten, Except.ok.injEq] at h
  rw [← h]
  exact Nat.min_le_right _ _

/-- Every literal is an integer of 64 bits. -/
theorem isWord_of_parse (h : parse t = .ok n) : Expression.isWord n = true := by
  have hle : n ≤ 9223372036854775807 := le_largest_of_parse h
  have hmin : Text.minInt64 = -9223372036854775808 := rfl
  have hmax : Text.maxInt64 = 9223372036854775807 := rfl
  rw [Expression.isWord, hmin, hmax, Bool.and_eq_true, decide_eq_true_eq, decide_eq_true_eq]
  omega

theorem lower_of_parse (h : parse t = .ok n) : Text.lower t = t.map Text.lowerByte :=
  Text.lower_ascii (Text.ascii_of_lower (isNumeralByte_of_parse h))

/-- The bytes of a literal whose letters are folded, and its value. -/
theorem parse_map_lowerByte (h : parse t = .ok n) :
    parse (t.map Text.lowerByte) = .ok n ∧
      ∀ b ∈ t.map Text.lowerByte, Text.isLiteralByte b = true := by
  have hascii := Text.ascii_of_lower (isNumeralByte_of_parse h)
  have hbytes : ∀ b ∈ t.map Text.lowerByte, b < 0x80 ∧ Text.isUpper b = false := by
    intro b hb
    obtain ⟨c, hc, rfl⟩ := List.mem_map.mp hb
    obtain ⟨hlt, hupper, _⟩ := Text.lowerByte_ascii (hascii c hc)
    exact ⟨hlt, hupper⟩
  obtain ⟨radix, digits, hwritten⟩ := written_of_parse h
  have hlower : Text.lower (t.map Text.lowerByte) = Text.lower t := by
    rw [Text.lower_of_ascii hbytes, lower_of_parse h]
  have hparse : parse (t.map Text.lowerByte) = .ok n := by
    rw [← h, parse_of_written hwritten, parse_of_written (hlower ▸ hwritten)]
  exact ⟨hparse, isLiteralByte_of_parse (fun b hb => (hbytes b hb).2) hparse⟩

/-- The text starts with a letter. -/
def startsWithLetter : Text → Bool
  | [] => false
  | b :: _ => Text.isLower b || Text.isUpper b

/-- A literal starts with a digit or with a letter. -/
theorem looksNumeric_of_parse (h : parse t = .ok n) :
    looksNumeric t = !startsWithLetter t ∧
      looksNumeric (t.map Text.lowerByte) = looksNumeric t := by
  cases t with
  | nil => cases h
  | cons b t =>
    have hliteral := (parse_map_lowerByte h).2 (Text.lowerByte b) List.mem_cons_self
    revert hliteral
    exact Text.forall_byte (p := fun b => Text.isLiteralByte (Text.lowerByte b) = true →
      Text.isDigit b = !(Text.isLower b || Text.isUpper b) ∧
        Text.isDigit (Text.lowerByte b) = Text.isDigit b) (by decide +kernel) b

/-- **A literal that starts with a letter is hexadecimal and has `h` at the end.** -/
theorem hexadecimal_of_startsWithLetter (h : parse t = .ok n)
    (hletter : startsWithLetter t = true) :
    ∃ digits, Written (Text.lower t) .hexadecimal digits ∧
      Text.lower t = digits.map Text.digitByte ++ Text.ofString "h" := by
  obtain ⟨hnumeric, hfolded⟩ := looksNumeric_of_parse h
  rw [← lower_of_parse h, hnumeric, hletter] at hfolded
  obtain ⟨radix, digits, hwritten⟩ := written_of_parse h
  obtain ⟨d, rest, rfl⟩ := List.exists_cons_of_ne_nil hwritten.nonempty
  have hd := hwritten.below d List.mem_cons_self
  -- the first digit is a letter, so the radix has more than ten digits
  have hlarge {tail : Text} (htext : Text.lower t = (d :: rest).map Text.digitByte ++ tail) :
      ¬ d < 10 := by
    intro hsmall
    rw [htext] at hfolded
    exact absurd ((Text.isDigit_digitByte hsmall).1.symm.trans hfolded) (by decide)
  have hmarked := hwritten.marked
  generalize htext : (d :: rest).map Text.digitByte = text at hmarked
  cases hmarked with
  | front hzero =>
    rw [hzero] at hfolded
    cases hfolded
  | letter _ hlast _ hb =>
    have hten := hlarge (htext ▸ hlast)
    cases radix with
    | hexadecimal =>
      rw [List.mem_singleton.mp hb] at hlast
      exact ⟨d :: rest, hwritten, htext ▸ hlast⟩
    | binary => exact absurd (Nat.lt_of_lt_of_le hd (by decide)) hten
    | octal => exact absurd (Nat.lt_of_lt_of_le hd (by decide)) hten
    | decimal => exact absurd hd hten
  | none => exact absurd hd (hlarge (htext.symm.trans (List.append_nil _).symm))

end Numeral

/-! ## Names that are literals -/

/-- No register and no bit has a literal as its name. -/
theorem SpecialRegister.address?_of_parse {t : Text} {n : Nat} (h : Numeral.parse t = .ok n) :
    address? t = none := by
  have hnone {table : List (String × Nat)} (hall : ∀ entry ∈ table,
      (Numeral.parse (Text.ofString entry.1)).isOk = false) : find? table t = none := by
    refine Option.eq_none_iff_forall_not_mem.mpr fun address hfind => ?_
    obtain ⟨s, hmem, rfl⟩ := mem_of_find? hfind
    have hok := hall _ hmem
    rw [h] at hok
    cases hok
  rw [address?_eq_none_iff]
  exact ⟨hnone (by decide +kernel), hnone (by decide +kernel)⟩

/-- No reserved name ends with `h`. -/
theorem isReserved_concat (t : Text) : isReserved (t ++ Text.ofString "h") = false := by
  have hne {name : Text} (hname : name.getLast? ≠ some 'h'.toUInt8) :
      (t ++ Text.ofString "h" == name) = false := by
    refine beq_false_of_ne fun h => hname ?_
    rw [← h]
    exact List.getLast?_concat
  have hregister : registerNumber? (t ++ Text.ofString "h") = none := by
    cases t with
    | nil => rfl
    | cons b t =>
      have hdigits : (t ++ Text.ofString "h").all Text.isDigit = false := by
        rw [List.all_append]
        exact Bool.and_false _
      rw [List.cons_append, registerNumber?, hdigits, Bool.and_false]
      rfl
  rw [isReserved_eq_false_iff, Reserved.ofName?, hne (by decide), hne (by decide), hne (by decide),
    hne (by decide), hregister]
  rfl

/-- A literal that starts with a letter is a name that nothing else has, once its letters are
folded. -/
theorem Numeral.isFree_of_startsWithLetter {t : Text} {n : Nat} (h : parse t = .ok n)
    (hletter : startsWithLetter t = true) :
    isSymbol (t.map Text.lowerByte) = true ∧ IsFree (t.map Text.lowerByte) := by
  obtain ⟨hparse, hbytes⟩ := parse_map_lowerByte h
  obtain ⟨hnumeric, hfolded⟩ := looksNumeric_of_parse h
  obtain ⟨digits, _, htext⟩ := hexadecimal_of_startsWithLetter h hletter
  refine ⟨?_, ?_, SpecialRegister.address?_of_parse hparse⟩
  · rw [hnumeric, hletter] at hfolded
    generalize t.map Text.lowerByte = folded at hbytes hfolded hparse
    cases folded with
    | nil => cases hparse
    | cons b folded =>
      obtain ⟨hb, hrest⟩ := List.forall_mem_cons.mp hbytes
      have hdigit : Text.isDigit b = false := hfolded
      rw [Text.isLiteralByte, hdigit, Bool.or_false] at hb
      refine Shape.isSymbol_cons.mpr ⟨?_, fun c hc => isNameByte_of_isLiteralByte (hrest c hc)⟩
      rw [Text.isNameStart, hb]
      rfl
  · -- it ends with `h`, as no reserved name does
    rw [← lower_of_parse h, htext]
    exact isReserved_concat _

/-! ## Names in a line -/

theorem Text.mapRunsFrom_run {inRun : UInt8 → Bool} {image : Text → Text} {t : Text}
    (h : ∀ b ∈ t, inRun b = true) : ∀ run : Text, run.reverse ++ t ≠ [] →
    mapRunsFrom inRun image run t = image (run.reverse ++ t) := by
  induction t with
  | nil =>
    intro run hne
    rw [List.append_nil] at hne ⊢
    rw [mapRunsFrom, if_neg]
    rw [List.isEmpty_iff]
    rintro rfl
    exact hne rfl
  | cons b t ih =>
    intro run _
    obtain ⟨hb, ht⟩ := List.forall_mem_cons.mp h
    have hrun : (b :: run).reverse ++ t = run.reverse ++ b :: t := by simp
    rw [mapRunsFrom, if_pos hb, ih ht _ (by simp), hrun]

theorem Text.not_mem_tagged {b tag : UInt8} {word : Text} (htag : b ≠ tag)
    (hb : isNameByte b = false) (h : ∀ c ∈ word, isNameByte c = true) : b ∉ tag :: word := by
  intro hmem
  rcases List.mem_cons.mp hmem with heq | hword
  · exact htag heq
  · exact Bool.false_ne_true (hb.symm.trans (h b hword))

/-- A word after `#` is looked up as a whole. -/
theorem Equates.substitute_tagged (e : Equates) {word : Text} (hne : word ≠ [])
    (h : ∀ b ∈ word, Text.isNameByte b = true) :
    e.substitute ('#'.toUInt8 :: word) = '#'.toUInt8 :: e.substituteWord word := by
  have hquote : Text.doubleQuote ∉ '#'.toUInt8 :: word :=
    Text.not_mem_tagged (by decide) (by decide) h
  have htag : Text.isNameByte '#'.toUInt8 = false := by decide
  rw [substitute, Text.mapOutsideQuotes_of_not_mem hquote, Text.mapRuns, Text.mapRunsFrom, htag,
    Text.mapRunsFrom_run h [] hne]
  rfl

theorem Equates.substituteWord_of_get? {e : Equates} {x v : Text} (hx : isSymbol x = true)
    (hname : x ≠ lineName) (hget : e.get? x = some v) : e.substituteWord x = v := by
  rw [substituteWord, (plain_of_isSymbol hx).2, beq_false_of_ne hname, hget]
  rfl

namespace Source

variable {e : Equates} {x v : Text} {pos : Position}

/-- The operand `#x`, for a name. -/
def nameConstant (x : Text) : Text := '#'.toUInt8 :: x

/-- The operand `#$(x)`, for the value of a name. -/
def valueConstant (x : Text) : Text := Text.ofString "#$(" ++ x ++ Text.ofString ")"

/-- A text without double quotes is one part. -/
theorem expand_of_not_mem (evaluate : Expression.Evaluator) (bound : Expression.Bindings)
    {t : Text} (h : Text.doubleQuote ∉ t) :
    expand evaluate bound pos t = expandPart evaluate bound pos t := by
  have hfindings : [expandPart evaluate bound pos t].flatMap Expanded.findings =
      (expandPart evaluate bound pos t).findings := List.flatMap_singleton ..
  rw [expand, Text.mapParts_of_not_mem h, hfindings]
  rfl

/-- A line that is a word after `#` defines nothing; the word is looked up. -/
theorem prepareLine_of_expanded {evaluate : Expression.Evaluator} {line word : Text}
    (hexpanded : expanded evaluate e line pos = ⟨'#'.toUInt8 :: word, []⟩) (hne : word ≠ [])
    (h : ∀ b ∈ word, Text.isNameByte b = true) :
    prepareLine evaluate e line pos
      = ⟨'#'.toUInt8 :: e.substituteWord word, e.atLine pos.line, []⟩ := by
  have hplain : ∀ b ∈ '#'.toUInt8 :: word, Text.isPlain b = true :=
    List.forall_mem_cons.mpr ⟨by decide, fun b hb => Text.isPlain_of_isNameByte (h b hb)⟩
  have hequ : '#'.toUInt8 :: word ≠ Text.ofString ".equ" := fun heq =>
    absurd (List.cons.inj heq).1 (by decide)
  have hdefine := (e.atLine pos.line).define?_plain (List.cons_ne_nil _ _) hplain hequ pos
  rw [prepareLine_of_define?_eq_none (by rw [hexpanded]) (by rw [hexpanded]; exact hdefine),
    hexpanded, Equates.substitute_tagged _ hne h, Equates.substituteWord_atLine]

theorem prepareLine_nameConstant (evaluate : Expression.Evaluator) (hx : isSymbol x = true)
    (hname : x ≠ Equates.lineName) (hget : e.get? x = some v) :
    prepareLine evaluate e (nameConstant x) pos = ⟨'#'.toUInt8 :: v, e.atLine pos.line, []⟩ := by
  obtain ⟨hne, hbytes⟩ := isNameByte_of_isSymbol hx
  have hplain : ∀ b ∈ nameConstant x, Text.isPlain b = true :=
    List.forall_mem_cons.mpr ⟨by decide, fun b hb => Text.isPlain_of_isNameByte (hbytes b hb)⟩
  have hdollar : '$'.toUInt8 ∉ nameConstant x :=
    Text.not_mem_tagged (by decide) (by decide) hbytes
  have hfold : (nameConstant x).map Text.lowerByte = nameConstant x :=
    congrArg ('#'.toUInt8 :: ·) (Text.map_lowerByte_of_isNameByte hbytes)
  have hexpanded : expanded evaluate e (nameConstant x) pos = ⟨'#'.toUInt8 :: x, []⟩ := by
    rw [expanded, normalize_plain hplain, hfold,
      expand_of_not_mem _ _ (Text.not_mem_plain (by decide) hplain), expandPart,
      Text.splitOn_of_not_mem hdollar]
    simp [Expanded.concat, nameConstant]
  rw [prepareLine_of_expanded hexpanded hne hbytes, Equates.substituteWord_of_get? hx hname hget]

theorem expression?_parentheses (x : Text) :
    expression? ('('.toUInt8 :: x ++ Text.ofString ")") = some (x, []) := by
  have hreverse : (x ++ Text.ofString ")").reverse = ')'.toUInt8 :: x.reverse :=
    List.reverse_concat
  have hcut : Text.cut? ')'.toUInt8 (')'.toUInt8 :: x.reverse) = some ([], x.reverse) :=
    Text.cut?_eq_some_iff.mpr ⟨List.not_mem_nil, rfl⟩
  rw [List.cons_append, expression?, if_pos (beq_self_eq_true _), cutLast?, hreverse, hcut]
  simp

theorem prepareLine_valueConstant {evaluate : Expression.Evaluator} (hx : isSymbol x = true)
    {n : Nat} (h : evaluate (e.atLine pos.line).numbers x = .ok n) :
    prepareLine evaluate e (valueConstant x) pos
      = ⟨'#'.toUInt8 :: Text.ofNat n, e.atLine pos.line, []⟩ := by
  obtain ⟨_, hbytes⟩ := isNameByte_of_isSymbol hx
  obtain ⟨hne, hdigits⟩ := Text.digits_ofNat n
  have hplain : ∀ b ∈ valueConstant x, Text.isPlain b = true := by
    refine List.forall_mem_append.mpr ⟨List.forall_mem_append.mpr ⟨?_, ?_⟩, ?_⟩
    · exact List.all_eq_true.mp (by decide)
    · exact fun b hb => Text.isPlain_of_isNameByte (hbytes b hb)
    · exact List.all_eq_true.mp (by decide)
  have hfold : (valueConstant x).map Text.lowerByte = valueConstant x := by
    rw [valueConstant, List.map_append, List.map_append, Text.map_lowerByte_of_isNameByte hbytes]
    rfl
  have hdollar : '$'.toUInt8 ∉ '('.toUInt8 :: x ++ Text.ofString ")" := by
    intro hmem
    rcases List.mem_append.mp hmem with hmem | hmem
    · exact Text.not_mem_tagged (by decide) (by decide) hbytes hmem
    · exact absurd hmem (by decide)
  have hparts : Text.splitOn '$'.toUInt8 (valueConstant x)
      = [Text.ofString "#", '('.toUInt8 :: x ++ Text.ofString ")"] := by
    have htag : '$'.toUInt8 ∉ Text.ofString "#" := by decide
    rw [← Text.splitOn_of_not_mem hdollar]
    exact Text.splitOn_append _ htag
  have hvalue : Text.ofInt n = Text.ofNat n := if_neg (Int.not_lt.mpr (Int.natCast_nonneg n))
  have hexpanded : expanded evaluate e (valueConstant x) pos
      = ⟨'#'.toUInt8 :: Text.ofNat n, []⟩ := by
    rw [expanded, normalize_plain hplain, hfold,
      expand_of_not_mem _ _ (Text.not_mem_plain (by decide) hplain), expandPart, hparts]
    simp only [List.map_cons, List.map_nil, expandAfterDollar, expression?_parentheses, h]
    simp only [Expanded.concat, List.flatMap_cons, List.flatMap_nil, List.append_nil, hvalue]
    rfl
  -- the value starts with a digit, so it is not looked up in turn
  have hword : e.substituteWord (Text.ofNat n) = Text.ofNat n := by
    rw [Equates.substituteWord, Numeral.looksNumeric_ofNat]
    rfl
  rw [prepareLine_of_expanded hexpanded hne fun b hb =>
    Shape.isNameByte_of_isDigit (hdigits b hb), hword]

/-! ## Constants -/

/-- The fragment, as a line, is prepared without a finding, and read as an operand of the form. -/
def GivesForm (evaluate : Expression.Evaluator) (e : Equates) (pos : Position) (fragment : Text)
    (form : Form) : Prop :=
  (prepareLine evaluate e fragment pos).findings = [] ∧
    ∃ op, Operand.read (Line.normalize (prepareLine evaluate e fragment pos).text) pos = .ok op ∧
      op.form = form

variable {evaluate : Expression.Evaluator} {fragment w : Text} {form : Form} {equates : Equates}
  {m : Nat}

/-- A literal after `#` is read with its letters folded. -/
theorem givesForm_iff (h : prepareLine evaluate e fragment pos = ⟨'#'.toUInt8 :: w, equates, []⟩)
    (hparse : Numeral.parse w = .ok m) :
    GivesForm evaluate e pos fragment form ↔
      (Operand.readConstant ('#'.toUInt8 :: w.map Text.lowerByte) (w.map Text.lowerByte) pos).result
        = some form := by
  obtain ⟨hfolded, hliteral⟩ := Numeral.parse_map_lowerByte hparse
  have hplain : ∀ b ∈ '#'.toUInt8 :: w, Text.isPlain b = true := by
    refine List.forall_mem_cons.mpr ⟨by decide, fun b hb => ?_⟩
    have hbyte := hliteral _ (List.mem_map_of_mem hb)
    revert hbyte
    exact Text.forall_byte (p := fun b => Text.isLiteralByte (Text.lowerByte b) = true →
      Text.isPlain b = true) (by decide +kernel) b
  have hne : w.map Text.lowerByte ≠ [] := by
    intro hnil
    rw [hnil] at hfolded
    cases hfolded
  have hnormal : Line.normalize ('#'.toUInt8 :: w) = '#'.toUInt8 :: w.map Text.lowerByte :=
    Line.normalize_plain hplain
  have hname : ∀ b ∈ w.map Text.lowerByte, Text.isNameByte b = true := fun b hb =>
    isNameByte_of_isLiteralByte (hliteral b hb)
  rw [GivesForm, h, and_iff_right rfl, hnormal]
  simp only [Operand.read_constant_eq_ok hne hname]
  constructor
  · rintro ⟨op, ⟨found, hfound, rfl⟩, rfl⟩
    exact hfound
  · intro hform
    exact ⟨_, ⟨form, hform, rfl⟩, rfl⟩

/-- A literal that starts with a digit is a constant, if it is a word of 16 bits. -/
theorem givesForm_number (h : prepareLine evaluate e fragment pos = ⟨'#'.toUInt8 :: w, equates, []⟩)
    (hparse : Numeral.parse w = .ok m)
    (hnumeric : Numeral.looksNumeric w = true) :
    GivesForm evaluate e pos fragment form ↔ form = .constant m ∧ m ≤ wordLimit := by
  have hfolded := (Numeral.parse_map_lowerByte hparse).1
  rw [givesForm_iff h hparse, Operand.readConstant, (Numeral.looksNumeric_of_parse hparse).2,
    hnumeric, if_pos rfl, Attempt.result_return_eq_some]
  simp only [readNumber_eq_some, hfolded, Except.ok.injEq]
  constructor
  · rintro ⟨_, ⟨rfl, hle⟩, rfl⟩
    exact ⟨rfl, hle⟩
  · rintro ⟨rfl, hle⟩
    exact ⟨m, ⟨rfl, hle⟩, rfl⟩

/-- A literal that starts with a letter is a name to be resolved. -/
theorem givesForm_name (h : prepareLine evaluate e fragment pos = ⟨'#'.toUInt8 :: w, equates, []⟩)
    (hparse : Numeral.parse w = .ok m)
    (hletter : Numeral.startsWithLetter w = true) :
    GivesForm evaluate e pos fragment form ↔ form = .symbolConstant (Text.lower w) none := by
  obtain ⟨hsymbol, hfree⟩ := Numeral.isFree_of_startsWithLetter hparse hletter
  rw [givesForm_iff h hparse, Operand.readConstant_of_isFree hsymbol hfree, Attempt.result_done,
    Option.some.injEq, Numeral.lower_of_parse hparse, eq_comm]

end Source

/-! ## Agreement -/

namespace Equates

open Expression (EvaluatesNames lookupName)
open Source (GivesForm nameConstant valueConstant)

variable {e : Equates} {x v : Text}

/-- The number of a name in expressions is that of its text. -/
theorem numbers_eq_some_iff (hx : isSymbol x = true) (hget : e.get? x = some v) {n : Int} :
    e.numbers x = some n ↔ ∃ m : Nat, Numeral.parse v = .ok m ∧ n = m := by
  simp only [numbers, hx, if_true, hget]
  cases Numeral.parse v with
  | error f => simp
  | ok m => simp [eq_comm]

variable {evaluate : Expression.Evaluator} {IsIdentifier : Text → Prop}

theorem evaluate_numbers (hnames : EvaluatesNames evaluate IsIdentifier) (hx : isSymbol x = true)
    (hname : x ≠ lineName) (hget : e.get? x = some v) (line : Int) {n : Int} :
    evaluate (e.atLine line).numbers x = .ok n ↔
      IsIdentifier x ∧ ∃ m : Nat, Numeral.parse v = .ok m ∧ n = m := by
  have hnumber (n : Int) :=
    numbers_eq_some_iff hx ((get?_atLine e line hname).trans hget) (n := n)
  have hwords : ∀ n, (e.atLine line).numbers x = some n → Expression.isWord n = true := by
    intro n hn
    obtain ⟨m, hparse, rfl⟩ := (hnumber n).mp hn
    exact Numeral.isWord_of_parse hparse
  rw [hnames.symbol_iff hx hwords, hnumber]

/-- The value of a name is written in decimal, whatever the radix of its text. -/
theorem givesForm_valueConstant {pos : Position} {m : Nat} (hx : isSymbol x = true)
    (h : evaluate (e.atLine pos.line).numbers x = .ok (m : Int)) (hm : m ≤ Numeral.largest)
    (form : Form) :
    GivesForm evaluate e pos (valueConstant x) form ↔ form = .constant m ∧ m ≤ wordLimit :=
  Source.givesForm_number (Source.prepareLine_valueConstant hx h) (Numeral.parse_ofNat hm)
    (Numeral.looksNumeric_ofNat m)

/-- **Where the value of a name and its text agree**, for any evaluator that gives names their
integers. An expression that is a name has an integer as its value if and only if the name is an
identifier and its text is a literal, with the value of that literal. Unless the literal starts with
a letter, it looks like a number, and the name and its value are the same constants. If it starts
with a letter, it is a hexadecimal literal with `h` at the end, and the name after `#` refers to the
literal as to a name. -/
theorem evaluated_agrees (evaluate : Expression.Evaluator) (IsIdentifier : Text → Prop)
    (hnames : EvaluatesNames evaluate IsIdentifier) (e : Equates) (x v : Text)
    (hx : isSymbol x = true) (hname : x ≠ lineName) (hget : e.get? x = some v) (pos : Position)
    (n : Int) :
    (evaluate (e.atLine pos.line).numbers x = .ok n ↔
      IsIdentifier x ∧ ∃ m : Nat, Numeral.parse v = .ok m ∧ n = m) ∧
    (evaluate (e.atLine pos.line).numbers x = .ok n →
      (∀ form, GivesForm evaluate e pos (valueConstant x) form ↔
        form = .constant n ∧ n ≤ wordLimit) ∧
      (Numeral.startsWithLetter v = false → Numeral.looksNumeric v = true ∧
        ∀ form, GivesForm evaluate e pos (nameConstant x) form ↔
          GivesForm evaluate e pos (valueConstant x) form) ∧
      (Numeral.startsWithLetter v = true → Numeral.looksNumeric v = false ∧
        (∃ digits, Numeral.Written (Text.lower v) .hexadecimal digits ∧
          Text.lower v = digits.map Text.digitByte ++ Text.ofString "h") ∧
        ∀ form, GivesForm evaluate e pos (nameConstant x) form ↔
          form = .symbolConstant (Text.lower v) none)) := by
  have heval := evaluate_numbers hnames hx hname hget pos.line (n := n)
  refine ⟨heval, fun h => ?_⟩
  obtain ⟨_, m, hparse, rfl⟩ := heval.mp h
  have hlargest := Numeral.le_largest_of_parse hparse
  have hnumeric := (Numeral.looksNumeric_of_parse hparse).1
  have hvalue := givesForm_valueConstant hx h hlargest
  have hprepared : Source.prepareLine evaluate e (nameConstant x) pos
      = ⟨'#'.toUInt8 :: v, e.atLine pos.line, []⟩ :=
    Source.prepareLine_nameConstant evaluate hx hname hget
  refine ⟨fun form => ?_, fun hdigit => ?_, fun hletter => ?_⟩
  · rw [hvalue, Int.ofNat_le]
  · rw [hdigit] at hnumeric
    refine ⟨hnumeric, fun form => ?_⟩
    rw [hvalue, Source.givesForm_number hprepared hparse hnumeric]
  · rw [hletter] at hnumeric
    exact ⟨hnumeric, Numeral.hexadecimal_of_startsWithLetter hparse hletter,
      fun form => Source.givesForm_name hprepared hparse hletter⟩

/-- A literal with a leading zero and capital letters gives the same constant in both ways. -/
theorem evaluated_agrees_capitals :
    let x := Text.ofString "x"
    let e := ({} : Equates).predefine x (Text.ofString "0FFH")
    lookupName (e.atLine 1).numbers x = .ok 255 ∧
      GivesForm lookupName e ⟨[], 1⟩ (valueConstant x) (.constant 255) ∧
      GivesForm lookupName e ⟨[], 1⟩ (nameConstant x) (.constant 255) := by
  intro x e
  obtain ⟨heval, hagrees⟩ := evaluated_agrees lookupName (fun _ => True)
    Expression.evaluatesNames_lookupName e x (Text.ofString "0FFH") (by decide) (by decide)
    (by decide +kernel) ⟨[], 1⟩ 255
  have h : lookupName (e.atLine 1).numbers x = .ok 255 :=
    heval.mpr ⟨trivial, 255, by decide +kernel, rfl⟩
  obtain ⟨hvalue, hdigit, _⟩ := hagrees h
  have hconstant := (hvalue (.constant 255)).mpr ⟨rfl, by decide⟩
  exact ⟨h, hconstant, ((hdigit (by decide)).2 _).mpr hconstant⟩

/-- The text `fh` is the number 15 in an expression, for any evaluator to which `x` is an
identifier, and a name in an operand. -/
theorem letterEquate_disagrees :
    let x := Text.ofString "x"
    let e := ({} : Equates).predefine x (Text.ofString "fh")
    Numeral.looksNumeric (Text.ofString "fh") = false ∧
      ∀ evaluate IsIdentifier, EvaluatesNames evaluate IsIdentifier → IsIdentifier x →
        evaluate (e.atLine 1).numbers x = .ok 15 ∧
        GivesForm evaluate e ⟨[], 1⟩ (valueConstant x) (.constant 15) ∧
        GivesForm evaluate e ⟨[], 1⟩ (nameConstant x)
          (.symbolConstant (Text.ofString "fh") none) := by
  intro x e
  refine ⟨rfl, fun evaluate IsIdentifier hnames hidentifier => ?_⟩
  have hx : isSymbol x = true := by decide
  have hget : e.get? x = some (Text.ofString "fh") := by decide +kernel
  have hparse : Numeral.parse (Text.ofString "fh") = .ok 15 := by decide +kernel
  have hvalue : evaluate (e.atLine 1).numbers x = .ok 15 :=
    (evaluate_numbers hnames hx (by decide) hget 1).mpr ⟨hidentifier, 15, hparse, rfl⟩
  refine ⟨hvalue, ?_, ?_⟩
  · exact (givesForm_valueConstant hx hvalue (by decide) _).mpr ⟨rfl, by decide⟩
  · exact (Source.givesForm_name (Source.prepareLine_nameConstant evaluate hx (by decide) hget)
      hparse (by decide)).mpr (by decide +kernel)

end Equates

end Mcs51
