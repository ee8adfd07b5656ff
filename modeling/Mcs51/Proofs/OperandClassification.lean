import Mcs51.Proofs.OperandReading

/-!
# What an operand text is taken for

The first byte of a text, and whether there is a dot in it, leave one shape that the text may have
(`Shape.candidate`). So no text has two shapes, and the order in which shapes are tried does not
matter (`Shape.eq_of_matchesText`, `Shape.find?_eq_of?`). Reading gives an operand or one error; the
number of an operand is within the bounds of its class and its space (`Operand.bounds`).

* `readNumber_eq_some`, `Operand.readBit_eq_some` and the like: when reading a part succeeds
* `Operand.inBounds_readShape`: each shape gives numbers within bounds
* `Operand.read_classified`: all of this for any text
-/

namespace Mcs51

/-! ## Bytes and cuts -/

namespace Text

/-- A property of bytes that holds for all 256 of them. -/
theorem forall_byte {p : UInt8 → Prop} (h : ∀ k < 256, p (UInt8.ofNat k)) (b : UInt8) : p b := by
  have hb := h b.toNat b.toNat_lt
  rwa [UInt8.ofNat_toNat] at hb

theorem cut?_eq_none_iff {sep : UInt8} : ∀ {t : Text}, cut? sep t = none ↔ sep ∉ t
  | [] => by simp [cut?]
  | b :: t => by
    rw [cut?, List.mem_cons, not_or, ← cut?_eq_none_iff (t := t)]
    by_cases hb : b = sep
    · simp [hb]
    · simp [hb, Ne.symm hb]

/-- The first part of a cut has no separator, and the parts with it are the text. -/
theorem cut?_eq_some_iff {sep : UInt8} : ∀ {t first rest : Text},
    cut? sep t = some (first, rest) ↔ sep ∉ first ∧ t = first ++ sep :: rest
  | [], first, rest => by simp [cut?]
  | b :: t, first, rest => by
    by_cases hb : b = sep
    · subst hb
      cases first with
      | nil => simp [cut?]
      | cons c first =>
        simp only [cut?, beq_self_eq_true, if_true, Option.some.injEq, Prod.mk.injEq,
          List.mem_cons, not_or, List.cons_append, List.cons.injEq]
        constructor
        · rintro ⟨h, _⟩
          cases h
        · rintro ⟨⟨hne, _⟩, heq, _⟩
          exact absurd heq hne
    · cases first with
      | nil => simp [cut?, hb]
      | cons c first =>
        simp only [cut?, beq_eq_false_iff_ne.mpr hb, Bool.false_eq_true, if_false,
          Option.map_eq_some_iff, Prod.exists, Prod.mk.injEq, List.cons.injEq, List.mem_cons,
          not_or, List.cons_append]
        constructor
        · rintro ⟨x, y, h, ⟨rfl, rfl⟩, rfl⟩
          obtain ⟨hnot, rfl⟩ := cut?_eq_some_iff.mp h
          exact ⟨⟨Ne.symm hb, hnot⟩, rfl, rfl⟩
        · rintro ⟨⟨_, hnot⟩, rfl, rfl⟩
          exact ⟨first, rest, cut?_eq_some_iff.mpr ⟨hnot, rfl⟩, ⟨rfl, rfl⟩, rfl⟩

end Text

/-! ## One shape at most -/

namespace Shape

variable {text : Text}

/-- The only shape that a text with the first byte may have; `dotted` says if it has a dot. -/
def candidate (dotted : Bool) (b : UInt8) : Shape :=
  if b = '#'.toUInt8 then .constant
  else if b = '/'.toUInt8 then .negated
  else if b = '@'.toUInt8 then .indirect
  else if b = '+'.toUInt8 ∨ b = '-'.toUInt8 then .offset
  else if dotted then .bitAddress
  else if Text.isDigit b then .address
  else .symbol

/-- A byte of a name leaves the shapes that have no tag and no sign. -/
theorem candidate_of_isNameByte {b : UInt8} (h : Text.isNameByte b = true) (dotted : Bool) :
    candidate dotted b
      = if dotted then .bitAddress else if Text.isDigit b then .address else .symbol := by
  have hne : ∀ c, Text.isNameByte c = false → b ≠ c := by
    intro c hc heq
    rw [heq, hc] at h
    cases h
  unfold candidate
  rw [if_neg (hne _ (by decide)), if_neg (hne _ (by decide)), if_neg (hne _ (by decide)),
    if_neg (not_or.mpr ⟨hne _ (by decide), hne _ (by decide)⟩)]

/-- A text of bytes that are no dots has no dot. -/
theorem contains_dot_eq_false {p : UInt8 → Bool} (hp : p '.'.toUInt8 = false)
    (h : ∀ b ∈ text, p b = true) : text.contains '.'.toUInt8 = false := by
  refine Bool.eq_false_iff.mpr fun hmem => ?_
  have hdot := h _ (List.contains_iff_mem.mp hmem)
  rw [hp] at hdot
  cases hdot

/-! ### The parts of a shape -/

theorem tagged?_eq_some_iff {tag : UInt8} {inner : Text} : tagged? tag text = some inner ↔
    text = tag :: inner ∧ inner ≠ [] ∧ Text.lineFeed ∉ inner := by
  cases text with
  | nil => simp [tagged?]
  | cons b t =>
    simp only [tagged?, Option.ite_none_right_eq_some, Bool.and_eq_true, beq_iff_eq,
      Bool.not_eq_true', List.isEmpty_eq_false_iff, List.contains_eq_mem, decide_eq_false_iff_not,
      Option.some.injEq, List.cons.injEq]
    constructor
    · rintro ⟨⟨⟨hb, hne⟩, hline⟩, rfl⟩
      exact ⟨⟨hb, rfl⟩, hne, hline⟩
    · rintro ⟨⟨hb, rfl⟩, hne, hline⟩
      exact ⟨⟨⟨hb, hne⟩, hline⟩, rfl⟩

theorem bitParts?_eq_some_iff {byte bit : Text} : bitParts? text = some (byte, bit) ↔
    Text.cut? '.'.toUInt8 text = some (byte, bit) ∧
      byte ≠ [] ∧ (∀ b ∈ byte, Text.isNameByte b = true) ∧
      bit ≠ [] ∧ ∀ b ∈ bit, Text.isLiteralByte b = true := by
  unfold bitParts?
  cases hcut : Text.cut? '.'.toUInt8 text with
  | none => simp
  | some parts =>
    obtain ⟨x, y⟩ := parts
    simp only [Option.ite_none_right_eq_some, Bool.and_eq_true, Bool.not_eq_true',
      List.isEmpty_eq_false_iff, List.all_eq_true, Option.some.injEq, Prod.mk.injEq]
    constructor
    · rintro ⟨⟨⟨⟨hx, hxs⟩, hy⟩, hys⟩, rfl, rfl⟩
      exact ⟨⟨rfl, rfl⟩, hx, hxs, hy, hys⟩
    · rintro ⟨⟨rfl, rfl⟩, hx, hxs, hy, hys⟩
      exact ⟨⟨⟨⟨hx, hxs⟩, hy⟩, hys⟩, rfl, rfl⟩

theorem isLiteral_cons {b : UInt8} {t : Text} : isLiteral (b :: t) = true ↔
    Text.isDigit b = true ∧ ∀ c ∈ t, Text.isLiteralByte c = true := by
  rw [isLiteral, Bool.and_eq_true, List.all_eq_true]

/-- A literal is a text that looks like a number and has literal bytes only. -/
theorem isLiteral_iff {t : Text} : isLiteral t = true ↔
    Numeral.looksNumeric t = true ∧ ∀ b ∈ t, Text.isLiteralByte b = true := by
  cases t with
  | nil => simp [isLiteral, Numeral.looksNumeric]
  | cons b t =>
    rw [isLiteral_cons, List.forall_mem_cons]
    constructor
    · rintro ⟨hdigit, hrest⟩
      exact ⟨hdigit, by rw [Text.isLiteralByte, hdigit, Bool.or_true], hrest⟩
    · rintro ⟨hdigit, _, hrest⟩
      exact ⟨hdigit, hrest⟩

theorem isSymbol_cons {b : UInt8} {t : Text} : isSymbol (b :: t) = true ↔
    Text.isNameStart b = true ∧ ∀ c ∈ t, Text.isNameByte c = true := by
  rw [isSymbol, Bool.and_eq_true, List.all_eq_true]

theorem isNameByte_of_isDigit {b : UInt8} (h : Text.isDigit b = true) :
    Text.isNameByte b = true := by
  rw [Text.isNameByte, h, Bool.or_true]

theorem isNameByte_of_isNameStart {b : UInt8} (h : Text.isNameStart b = true) :
    Text.isNameByte b = true := by
  rw [Text.isNameByte, h, Bool.true_or]

/-- The bytes that may start a symbol are no digits. -/
theorem isDigit_of_isNameStart {b : UInt8} (h : Text.isNameStart b = true) :
    Text.isDigit b = false := by
  revert h
  exact Text.forall_byte
    (p := fun b => Text.isNameStart b = true → Text.isDigit b = false) (by decide +kernel) b

/-- **A text has no shape but the one that its first byte and its dots leave.** -/
theorem candidate_of_matchesText {s : Shape} (h : matchesText text s = true) :
    ∃ b t, text = b :: t ∧ candidate (text.contains '.'.toUInt8) b = s := by
  cases s with
  | constant =>
    obtain ⟨inner, hinner⟩ := Option.isSome_iff_exists.mp h
    exact ⟨_, inner, (tagged?_eq_some_iff.mp hinner).1, rfl⟩
  | negated =>
    obtain ⟨inner, hinner⟩ := Option.isSome_iff_exists.mp h
    exact ⟨_, inner, (tagged?_eq_some_iff.mp hinner).1, rfl⟩
  | indirect =>
    obtain ⟨inner, hinner⟩ := Option.isSome_iff_exists.mp h
    exact ⟨_, inner, (tagged?_eq_some_iff.mp hinner).1, rfl⟩
  | offset =>
    cases text with
    | nil => cases h
    | cons b t =>
      obtain ⟨parts, hparts⟩ := Option.isSome_iff_exists.mp h
      simp only [offsetParts?, Option.ite_none_right_eq_some, Bool.and_eq_true, Bool.or_eq_true,
        beq_iff_eq] at hparts
      refine ⟨b, t, rfl, ?_⟩
      rcases hparts.1.1 with rfl | rfl <;> rfl
  | bitAddress =>
    obtain ⟨⟨byte, bit⟩, hparts⟩ := Option.isSome_iff_exists.mp h
    obtain ⟨hcut, hne, hname, _, _⟩ := bitParts?_eq_some_iff.mp hparts
    obtain ⟨_, rfl⟩ := Text.cut?_eq_some_iff.mp hcut
    obtain ⟨b, t, rfl⟩ := List.exists_cons_of_ne_nil hne
    have hdot : (b :: t ++ '.'.toUInt8 :: bit).contains '.'.toUInt8 = true := by simp
    refine ⟨b, t ++ '.'.toUInt8 :: bit, rfl, ?_⟩
    rw [hdot, candidate_of_isNameByte (hname b List.mem_cons_self)]
    rfl
  | address =>
    cases text with
    | nil => cases h
    | cons b t =>
      obtain ⟨hdigit, hrest⟩ := isLiteral_cons.mp h
      have hname := isNameByte_of_isDigit hdigit
      have hdot : (b :: t).contains '.'.toUInt8 = false := by
        refine contains_dot_eq_false (p := Text.isLiteralByte) (by decide) ?_
        refine List.forall_mem_cons.mpr ⟨?_, hrest⟩
        rw [Text.isLiteralByte, hdigit, Bool.or_true]
      refine ⟨b, t, rfl, ?_⟩
      rw [hdot, candidate_of_isNameByte hname, hdigit]
      rfl
  | symbol =>
    cases text with
    | nil => cases h
    | cons b t =>
      obtain ⟨hstart, hrest⟩ := isSymbol_cons.mp h
      have hname := isNameByte_of_isNameStart hstart
      have hdot : (b :: t).contains '.'.toUInt8 = false :=
        contains_dot_eq_false (p := Text.isNameByte) (by decide)
          (List.forall_mem_cons.mpr ⟨hname, hrest⟩)
      refine ⟨b, t, rfl, ?_⟩
      rw [hdot, candidate_of_isNameByte hname, isDigit_of_isNameStart hstart]
      rfl

/-- **No text has two shapes.** -/
theorem eq_of_matchesText {s t : Shape} (hs : matchesText text s = true)
    (ht : matchesText text t = true) : s = t := by
  obtain ⟨b, rest, htext, rfl⟩ := candidate_of_matchesText hs
  obtain ⟨c, rest', htext', rfl⟩ := candidate_of_matchesText ht
  rw [htext] at htext'
  cases htext'
  rfl

/-- In a table of all shapes, the shape that is found is the one that the text has. -/
theorem find?_eq_some_iff {table : List Shape} (hall : ∀ s, s ∈ table) {s : Shape} :
    table.find? (matchesText text) = some s ↔ matchesText text s = true := by
  constructor
  · exact List.find?_some
  · intro hs
    cases hfind : table.find? (matchesText text) with
    | none => exact absurd hs (List.find?_eq_none.mp hfind s (hall s))
    | some t => rw [eq_of_matchesText (List.find?_some hfind) hs]

theorem mem_all (s : Shape) : s ∈ all := by
  cases s <;> decide

theorem of?_eq_some_iff {s : Shape} : of? text = some s ↔ matchesText text s = true :=
  find?_eq_some_iff mem_all

/-- **The order in which shapes are tried does not matter.** -/
theorem find?_eq_of? {table : List Shape} (hall : ∀ s, s ∈ table) :
    table.find? (matchesText text) = of? text := by
  ext s
  rw [find?_eq_some_iff hall, of?_eq_some_iff]

end Shape

/-! ## Reading the parts -/

/-- A value is kept if it is within the limit. -/
theorem keep_eq_some {v n limit : Nat} {f : Finding} :
    (if v ≤ limit then Attempt.done v else .fail f).result = some n ↔ v = n ∧ n ≤ limit := by
  split
  · next hle =>
    rw [Attempt.result_done, Option.some.injEq]
    constructor
    · rintro rfl
      exact ⟨rfl, hle⟩
    · exact And.left
  · next hgt =>
    simp only [Attempt.result_fail, reduceCtorEq, false_iff]
    rintro ⟨rfl, hle⟩
    exact hgt hle

theorem readNumber_eq_some {text : Text} {limit n : Nat} {pos : Position} :
    (readNumber text limit pos).result = some n ↔ Numeral.parse text = .ok n ∧ n ≤ limit := by
  unfold readNumber
  cases Numeral.parse text with
  | error e => simp
  | ok v => rw [Except.ok.injEq, keep_eq_some]

namespace SpecialRegister

/-- A name that is found stands in the table. -/
theorem mem_of_find? {table : List (String × Nat)} {name : Text} {n : Nat}
    (h : find? table name = some n) : ∃ s, (s, n) ∈ table ∧ Text.ofString s = name := by
  obtain ⟨⟨s, m⟩, hfind, rfl⟩ := Option.map_eq_some_iff.mp h
  have hname := List.find?_some hfind
  exact ⟨s, List.mem_of_find?_eq_some hfind, beq_iff_eq.mp hname⟩

theorem byte?_le {name : Text} {n : Nat} (h : byte? name = some n) : n ≤ 0xff := by
  obtain ⟨s, hmem, _⟩ := mem_of_find? h
  have hall : ∀ entry ∈ bytes, entry.2 ≤ 0xff := by decide
  exact hall _ hmem

theorem bit?_le {name : Text} {n : Nat} (h : bit? name = some n) : n ≤ 0xff := by
  obtain ⟨s, hmem, _⟩ := mem_of_find? h
  have hall : ∀ entry ∈ bits, entry.2 ≤ 0xff := by decide
  exact hall _ hmem

theorem address?_le {name : Text} {n : Nat} (h : address? name = some n) : n ≤ 0xff := by
  unfold address? at h
  cases hbyte : byte? name with
  | some m =>
    rw [hbyte] at h
    cases h
    exact byte?_le hbyte
  | none =>
    rw [hbyte] at h
    exact bit?_le h

/-- **A bit address is a byte.** The bits of memory come first, and those of registers after
them. -/
theorem bitAddress_bounds {address bit value : Int} (h : bitAddress address bit = .ok value) :
    0 ≤ value ∧ value ≤ 0xff := by
  unfold bitAddress at h
  split at h
  · cases h
  · next hbit =>
    simp only [Bool.or_eq_true, decide_eq_true_eq, not_or, Int.not_lt] at hbit
    split at h
    · cases h
    · next haddressable =>
      simp only [isBitAddressable, Bool.not_eq_true', Bool.not_eq_false, Bool.or_eq_true,
        Bool.and_eq_true, decide_eq_true_eq, beq_iff_eq] at haddressable
      split at h <;> (cases h; omega)

end SpecialRegister

namespace Operand

variable {text inner byte bit : Text} {pos : Position} {n : Nat}

theorem readBitNumber_eq_some : (readBitNumber text bit pos).result = some n ↔
    Numeral.looksNumeric bit = true ∧ Numeral.parse bit = .ok n ∧ n ≤ bitLimit := by
  unfold readBitNumber
  cases hnumeric : Numeral.looksNumeric bit with
  | false => simp
  | true =>
    cases Numeral.parse bit with
    | error e => simp
    | ok v => simp [keep_eq_some]

theorem readBitByte_eq_some : (readBitByte text byte pos).result = some n ↔
    if Numeral.looksNumeric byte then Numeral.parse byte = .ok n ∧ n ≤ byteLimit
    else SpecialRegister.byte? byte = some n := by
  unfold readBitByte
  split
  · exact readNumber_eq_some
  · cases SpecialRegister.byte? byte <;> simp

/-- A byte, which is a literal or the name of a register, and a bit number make a bit address. -/
def MakesBit (byte bit : Text) (v : Int) : Prop :=
  ∃ address number : Nat,
    (if Numeral.looksNumeric byte then Numeral.parse byte = .ok address ∧ address ≤ byteLimit
      else SpecialRegister.byte? byte = some address) ∧
    (Numeral.looksNumeric bit = true ∧ Numeral.parse bit = .ok number ∧ number ≤ bitLimit) ∧
    SpecialRegister.bitAddress address number = .ok v

theorem readBit_eq_some {v : Int} :
    (readBit text byte bit pos).result = some v ↔ MakesBit byte bit v := by
  constructor
  · intro h
    obtain ⟨address, hbyte, h⟩ := Attempt.result_bind_eq_some.mp h
    obtain ⟨number, hbit, h⟩ := Attempt.result_bind_eq_some.mp h
    refine ⟨address, number, readBitByte_eq_some.mp hbyte, readBitNumber_eq_some.mp hbit, ?_⟩
    split at h
    · next hv =>
      cases h
      exact hv
    · cases h
  · rintro ⟨address, number, hbyte, hbit, hv⟩
    refine Attempt.result_bind_eq_some.mpr ⟨address, readBitByte_eq_some.mpr hbyte, ?_⟩
    refine Attempt.result_bind_eq_some.mpr ⟨number, readBitNumber_eq_some.mpr hbit, ?_⟩
    simp only [hv, Attempt.result_done]

theorem readBit_bounds {v : Int} (h : (readBit text byte bit pos).result = some v) :
    0 ≤ v ∧ v ≤ 0xff := by
  obtain ⟨_, _, _, _, hv⟩ := readBit_eq_some.mp h
  exact SpecialRegister.bitAddress_bounds hv

/-! ## Bounds -/

/-- The least and the largest number of the operands of a class, in a space. -/
def bounds (op : Operand) : Int × Int :=
  match op.operandClass with
  | .constant => (0, 0xffff)
  | .address => match op.space with
    | .any => (0, 0xffff)
    | _ => (0, 0xff)
  | .negatedAddress => (0, 0xff)
  | .addressOffset => (-0xffff, 0xffff)
  | .name | .indirectName => (0, 0)

/-- The number of the operand is within the bounds of its class and its space, and zero if the
operand refers to a symbol. The space is one that a text can stand for. -/
structure InBounds (op : Operand) : Prop where
  least : op.bounds.1 ≤ op.number
  most : op.number ≤ op.bounds.2
  reference : op.isReference = true → op.number = 0
  space : op.space = .any ∨ op.space = .byte ∨ op.space = .bit

theorem natCast_between {n limit : Nat} (h : n ≤ limit) : 0 ≤ (n : Int) ∧ (n : Int) ≤ limit :=
  ⟨Int.natCast_nonneg n, Int.ofNat_le.mpr h⟩

section Bounds

variable {op : Operand} {least most : Int}

theorem InBounds.of_between (hbounds : op.bounds = (least, most))
    (hnumber : least ≤ op.number ∧ op.number ≤ most) (href : op.isReference = false)
    (hspace : op.space = .any ∨ op.space = .byte ∨ op.space = .bit) : op.InBounds where
  least := by
    rw [hbounds]
    exact hnumber.1
  most := by
    rw [hbounds]
    exact hnumber.2
  reference h := by
    rw [href] at h
    cases h
  space := hspace

/-- Names, and references that have no value yet. -/
theorem InBounds.of_zero (hbounds : op.bounds = (0, most)) (hmost : 0 ≤ most)
    (hnumber : op.number = 0) (hspace : op.space = .any) : op.InBounds where
  least := Int.le_of_eq (by rw [hbounds, hnumber])
  most := by
    rw [hbounds, hnumber]
    exact hmost
  reference _ := hnumber
  space := Or.inl hspace

end Bounds

/-! ## Reading stays within bounds -/

variable {form : Form}

theorem inBounds_readConstant (h : (readConstant text inner pos).result = some form) :
    InBounds ⟨text, pos, form⟩ := by
  unfold readConstant at h
  split at h
  · obtain ⟨v, hv, hform⟩ := Attempt.result_bind_eq_some.mp h
    have hle : v ≤ 0xffff := (readNumber_eq_some.mp hv).2
    cases hform
    exact .of_between rfl (natCast_between hle) rfl (Or.inl rfl)
  · split at h
    · split at h
      · next address haddress =>
        have hle := Nat.le_trans (SpecialRegister.address?_le haddress) (by decide : 0xff ≤ 0xffff)
        cases h
        exact .of_between rfl (natCast_between hle) rfl (Or.inl rfl)
      · cases h
        exact .of_zero rfl (by decide) rfl rfl
    · cases h

theorem inBounds_readNegated (h : (readNegated text inner pos).result = some form) :
    InBounds ⟨text, pos, form⟩ := by
  unfold readNegated at h
  split at h
  · obtain ⟨v, hv, hform⟩ := Attempt.result_bind_eq_some.mp h
    cases hform
    exact .of_between rfl (readBit_bounds hv) rfl (Or.inr (Or.inr rfl))
  · split at h
    · obtain ⟨v, hv, hform⟩ := Attempt.result_bind_eq_some.mp h
      have hle : v ≤ 0xff := (readNumber_eq_some.mp hv).2
      cases hform
      exact .of_between rfl (natCast_between hle) rfl (Or.inr (Or.inr rfl))
    · split at h
      · next address haddress =>
        have hle := SpecialRegister.bit?_le haddress
        cases h
        exact .of_between rfl (natCast_between hle) rfl (Or.inr (Or.inr rfl))
      · cases h

theorem inBounds_readOffset {minus : Bool} {literal : Text}
    (h : (readOffset minus literal pos).result = some form) : InBounds ⟨text, pos, form⟩ := by
  obtain ⟨v, hv, hform⟩ := Attempt.result_bind_eq_some.mp h
  have hle : v ≤ 0xffff := (readNumber_eq_some.mp hv).2
  have hvalue : -0xffff ≤ (if minus then -(v : Int) else v) ∧
      (if minus then -(v : Int) else v) ≤ 0xffff := by
    split <;> omega
  cases hform
  exact .of_between rfl hvalue rfl (Or.inl rfl)

theorem inBounds_readSymbol (text : Text) (pos : Position) :
    InBounds ⟨text, pos, readSymbol text⟩ := by
  unfold readSymbol
  split
  · exact .of_zero rfl (by decide) rfl rfl
  · split
    · next address hbyte =>
      have hle := SpecialRegister.byte?_le hbyte
      exact .of_between rfl (natCast_between hle) rfl (Or.inr (Or.inl rfl))
    · split
      · next address hbit =>
        have hle := SpecialRegister.bit?_le hbit
        exact .of_between rfl (natCast_between hle) rfl (Or.inr (Or.inr rfl))
      · exact .of_zero rfl (by decide) rfl rfl

theorem inBounds_readIndirect (h : (readIndirect text inner pos).result = some form) :
    InBounds ⟨text, pos, form⟩ := by
  unfold readIndirect at h
  split at h <;> cases h
  exact .of_zero rfl (by decide) rfl rfl

/-- **Each shape gives numbers within bounds.** -/
theorem inBounds_readShape {shape : Shape} (h : (readShape text pos shape).result = some form) :
    InBounds ⟨text, pos, form⟩ := by
  cases shape with
  | constant => exact inBounds_readConstant h
  | bitAddress =>
    obtain ⟨v, hv, hform⟩ := Attempt.result_bind_eq_some.mp h
    cases hform
    exact .of_between rfl (readBit_bounds hv) rfl (Or.inr (Or.inr rfl))
  | address =>
    obtain ⟨v, hv, hform⟩ := Attempt.result_bind_eq_some.mp h
    have hle : v ≤ 0xffff := (readNumber_eq_some.mp hv).2
    cases hform
    exact .of_between rfl (natCast_between hle) rfl (Or.inl rfl)
  | negated => exact inBounds_readNegated h
  | offset => exact inBounds_readOffset h
  | symbol =>
    cases h
    exact inBounds_readSymbol text pos
  | indirect => exact inBounds_readIndirect h

/-- An operand that is read is the text at its place, with a form that one of the shapes gives. -/
theorem classify_eq_some {op : Operand} : (classify text pos).result = some op ↔
    ∃ shape form, Shape.matchesText text shape = true ∧
      (readShape text pos shape).result = some form ∧ op = ⟨text, pos, form⟩ := by
  unfold classify
  cases hshape : Shape.of? text with
  | none =>
    simp only [Attempt.result_fail, reduceCtorEq, false_iff]
    rintro ⟨shape, _, hmatch, _⟩
    rw [Shape.of?_eq_some_iff.mpr hmatch] at hshape
    cases hshape
  | some shape =>
    have hmatch := Shape.of?_eq_some_iff.mp hshape
    constructor
    · intro h
      obtain ⟨form, hform, hop⟩ := Attempt.result_bind_eq_some.mp h
      cases hop
      exact ⟨shape, form, hmatch, hform, rfl⟩
    · rintro ⟨other, form, hother, hform, rfl⟩
      rw [Shape.eq_of_matchesText hother hmatch] at hform
      exact Attempt.result_bind_eq_some.mpr ⟨form, hform, rfl⟩

theorem read_eq_ok {op : Operand} : read text pos = .ok op ↔
    ∃ shape form, Shape.matchesText text shape = true ∧
      (readShape text pos shape).result = some form ∧ op = ⟨text, pos, form⟩ :=
  read_eq_ok_iff.trans classify_eq_some

/-- **Every text is taken for one thing.** It has one shape at most, so that the order of the shapes
does not matter. Reading it gives an operand with the text and a number within bounds and no
finding, or no operand and one finding, which is an error at its place. -/
theorem read_classified (text : Text) (pos : Position) :
    (∀ s t, Shape.matchesText text s = true → Shape.matchesText text t = true → s = t) ∧
    (∀ table : List Shape, table.Perm Shape.all →
      table.find? (Shape.matchesText text) = Shape.of? text) ∧
    ((∃ op, classify text pos = ⟨some op, []⟩ ∧ read text pos = .ok op ∧
        op.text = text ∧ op.position = pos ∧ op.InBounds) ∨
      ∃ f, classify text pos = ⟨none, [f]⟩ ∧ read text pos = .error f ∧
        f.severity = .error ∧ f.position = pos) := by
  refine ⟨fun s t => Shape.eq_of_matchesText, fun table hperm => ?_, ?_⟩
  · exact Shape.find?_eq_of? fun s => hperm.mem_iff.mpr (Shape.mem_all s)
  · unfold read
    generalize hattempt : classify text pos = attempt
    cases hattempt ▸ decides_classify text pos with
    | done op =>
      have hresult : (classify text pos).result = some op := by rw [hattempt]; rfl
      obtain ⟨shape, form, _, hform, rfl⟩ := classify_eq_some.mp hresult
      exact Or.inl ⟨_, rfl, rfl, rfl, rfl, inBounds_readShape hform⟩
    | fail h => exact Or.inr ⟨_, rfl, rfl, h⟩

end Operand
end Mcs51
