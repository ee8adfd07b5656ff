import Mcs51.Proofs.DecimalNumerals
import Mcs51.Proofs.OperandClassification

/-!
# Negated bits

A bit is written alone or after `/`, and the two are read in different ways: a text alone has to
have a shape before its parts are looked at, while a text after `/` is cut at its first dot, or
taken for a number or a name, whatever its bytes are. `Operand.IsBit` says what both come to: a byte
and a bit number, a number of one byte, or the name of a bit.

* `Numeral.isLiteralByte_of_parse`: without capital letters, a numeral has no bytes that a shape
  refuses. Reading a numeral puts it into lower case, so this needs that no letter outside ASCII
  becomes a digit.
* `Operand.readNegated_eq_some`: the reader after `/` takes bits and nothing else
* `Operand.read_address_iff`: the reader of a text alone takes the same ones
* `Operand.read_negated_iff`: a negated bit is a bit after `/`
-/

namespace Mcs51

/-! ## Lower case -/

namespace Text

/-- The rows of the lower-case mapping lead to code points outside ASCII, but for two code points:
the capital I with a dot becomes an `i`, and the Kelvin sign becomes a `k`. -/
theorem lowerRows_wide : ∀ row ∈ lowerRows, 0x80 ≤ (row.1 : Int) + row.2.2.2 ∨
    row.1 = row.2.1 ∧ ((row.1 : Int) + row.2.2.2 = 0x69 ∨ (row.1 : Int) + row.2.2.2 = 0x6b) := by
  decide +kernel

theorem lowerPoint_wide {code : Nat} (h : 0x80 ≤ code) :
    0x80 ≤ lowerPoint code ∨ lowerPoint code = 0x69 ∨ lowerPoint code = 0x6b := by
  rw [lowerPoint, if_neg (Nat.not_lt.mpr h), CaseShifts.apply]
  split
  · next first last step shift hfind =>
    have hrow := lowerRows_wide _ (List.mem_of_find?_eq_some hfind)
    have hin := List.find?_some hfind
    simp only [Bool.and_eq_true, decide_eq_true_eq] at hin hrow
    omega
  · exact Or.inl h

/-- The last byte of a code point outside ASCII is outside ASCII. -/
theorem exists_wide_of_mem_encodePoint {code : Nat} (h : 0x80 ≤ code) :
    ∃ b ∈ encodePoint code, 0x80 ≤ b.toNat := by
  have hlast : 0x80 ≤ (0x80 + code % 0x40).toUInt8.toNat := by
    rw [toNat_toUInt8 (by omega)]
    omega
  refine ⟨(0x80 + code % 0x40).toUInt8, ?_, hlast⟩
  unfold encodePoint
  rw [if_neg (by omega)]
  split
  · simp
  · split <;> simp

/-- The bytes that a numeral in lower case may have: digits, and letters but `i` and `k`. -/
def isNumeralByte (b : UInt8) : Bool :=
  isLiteralByte b && b != 'i'.toUInt8 && b != 'k'.toUInt8

theorem isNumeralByte_lt {b : UInt8} (h : isNumeralByte b = true) : b.toNat < 0x80 := by
  revert h
  exact forall_byte (p := fun b => isNumeralByte b = true → b.toNat < 0x80) (by decide +kernel) b

/-- **A text whose lower case is made of numeral bytes is in ASCII.** -/
theorem ascii_of_lower {t : Text} (h : ∀ b ∈ lower t, isNumeralByte b = true) :
    ∀ b ∈ t, b < 0x80 := by
  intro b hb
  rw [← ofPieces_pieces t] at hb
  obtain ⟨p, hp, hb⟩ := List.mem_flatMap.mp hb
  have hbytes : ∀ c ∈ encodePoint (lowerPoint p.code), isNumeralByte c = true := fun c hc =>
    h c (List.mem_flatMap.mpr ⟨_, List.mem_map_of_mem (List.mem_map_of_mem hp), hc⟩)
  have hcode : p.code < 0x80 := by
    refine Nat.lt_of_not_le fun hwide => ?_
    rcases lowerPoint_wide hwide with hlower | hlower | hlower
    · obtain ⟨c, hc, hbig⟩ := exists_wide_of_mem_encodePoint hlower
      exact Nat.not_lt.mpr hbig (isNumeralByte_lt (hbytes c hc))
    · rw [hlower] at hbytes
      exact absurd (hbytes 0x69 (by decide)) (by decide)
    · rw [hlower] at hbytes
      exact absurd (hbytes 0x6b (by decide)) (by decide)
  cases p with
  | stray byte =>
    have hcode : replacement < 0x80 := hcode
    exact absurd hcode (by decide)
  | point code =>
    have hcode : code < 0x80 := hcode
    rw [Piece.bytes, encodePoint_ascii hcode, List.mem_singleton] at hb
    rw [hb, UInt8.lt_iff_toNat_lt, toNat_toUInt8 (by omega)]
    exact hcode

/-- What follows a beginning is the rest of the text. -/
theorem eq_append_of_dropPrefix? : ∀ {start t rest : Text}, dropPrefix? start t = some rest →
    t = start ++ rest
  | [], t, rest, h => Option.some.inj h
  | p :: start, [], rest, h => by cases h
  | p :: start, b :: t, rest, h => by
    rw [dropPrefix?, Option.ite_none_right_eq_some, beq_iff_eq] at h
    rw [← h.1, eq_append_of_dropPrefix? h.2, List.cons_append]

end Text

/-! ## The bytes of numerals -/

namespace Numeral

open Text (isNumeralByte)

theorem isNumeralByte_of_isDigitOf (radix : Radix) {b : UInt8}
    (h : isDigitOf radix.base b = true) : isNumeralByte b = true := by
  revert h
  refine Text.forall_byte
    (p := fun b => isDigitOf radix.base b = true → isNumeralByte b = true) ?_ b
  cases radix <;> decide +kernel

theorem isNumeralByte_of_ofSuffix? {b : UInt8} {radix : Radix}
    (h : Radix.ofSuffix? b = some radix) : isNumeralByte b = true := by
  have hsome : (Radix.ofSuffix? b).isSome = true := by rw [h]; rfl
  revert hsome
  exact Text.forall_byte
    (p := fun b => (Radix.ofSuffix? b).isSome = true → isNumeralByte b = true) (by decide +kernel) b

/-- A mark of the radix has numeral bytes too. -/
theorem isNumeralByte_of_split {lowered : Text}
    (h : ∀ b ∈ (split lowered).2, isNumeralByte b = true) :
    ∀ b ∈ lowered, isNumeralByte b = true := by
  unfold split at h
  split at h
  · next digits hhex =>
    rw [Text.eq_append_of_dropPrefix? hhex]
    have hmark : (Text.ofString "0x").all isNumeralByte = true := by decide
    exact fun b hb => (List.mem_append.mp hb).elim (List.all_eq_true.mp hmark b) (h b)
  · split at h
    · split at h
      · next radix hradix =>
        obtain ⟨last, hlast, hsuffix⟩ := Option.bind_eq_some_iff.mp hradix
        obtain ⟨digits, rfl⟩ := List.getLast?_eq_some_iff.mp hlast
        rw [List.dropLast_concat] at h
        intro b hb
        rcases List.mem_append.mp hb with hb | hb
        · exact h b hb
        · rw [List.mem_singleton.mp hb]
          exact isNumeralByte_of_ofSuffix? hsuffix
      · exact h
    · exact h

theorem isNumeralByte_of_parse {t : Text} {n : Nat} (h : parse t = .ok n) :
    ∀ b ∈ Text.lower t, isNumeralByte b = true := by
  have hdigits : ∀ b ∈ (split (Text.lower t)).2,
      isDigitOf (split (Text.lower t)).1.base b = true := by
    simp only [parse] at h
    split at h
    · next hall => exact List.all_eq_true.mp (Bool.and_eq_true_iff.mp hall).2
    · cases h
  exact isNumeralByte_of_split fun b hb => isNumeralByte_of_isDigitOf _ (hdigits b hb)

/-- **Without capital letters, a numeral has literal bytes only.** -/
theorem isLiteralByte_of_parse {t : Text} {n : Nat} (hlower : ∀ b ∈ t, Text.isUpper b = false)
    (h : parse t = .ok n) : ∀ b ∈ t, Text.isLiteralByte b = true := by
  have hbytes := isNumeralByte_of_parse h
  have hascii := Text.ascii_of_lower hbytes
  rw [Text.lower_of_ascii fun b hb => ⟨hascii b hb, hlower b hb⟩] at hbytes
  intro b hb
  exact (Bool.and_eq_true_iff.mp (Bool.and_eq_true_iff.mp (hbytes b hb)).1).1

theorem ne_nil_of_looksNumeric {t : Text} (h : looksNumeric t = true) : t ≠ [] := by
  rintro rfl
  cases h

end Numeral

/-! ## Names of registers and bits -/

namespace SpecialRegister

theorem isSymbol_of_byte? {name : Text} {n : Nat} (h : byte? name = some n) :
    isSymbol name = true := by
  obtain ⟨s, hmem, rfl⟩ := mem_of_find? h
  have hall : ∀ entry ∈ bytes, isSymbol (Text.ofString entry.1) = true := by decide +kernel
  exact hall _ hmem

/-- The name of a bit is a symbol that means nothing else. -/
theorem isSymbol_of_bit? {name : Text} {n : Nat} (h : bit? name = some n) :
    isSymbol name = true ∧ Reserved.ofName? name = none ∧ byte? name = none := by
  obtain ⟨s, hmem, rfl⟩ := mem_of_find? h
  have hall : ∀ entry ∈ bits, isSymbol (Text.ofString entry.1) = true ∧
      Reserved.ofName? (Text.ofString entry.1) = none ∧
      byte? (Text.ofString entry.1) = none := by
    decide +kernel
  exact hall _ hmem

end SpecialRegister

theorem isNameByte_of_isSymbol {t : Text} (h : isSymbol t = true) :
    t ≠ [] ∧ ∀ b ∈ t, Text.isNameByte b = true := by
  cases t with
  | nil => cases h
  | cons b t =>
    obtain ⟨hstart, hrest⟩ := Shape.isSymbol_cons.mp h
    exact ⟨List.cons_ne_nil b t,
      List.forall_mem_cons.mpr ⟨Shape.isNameByte_of_isNameStart hstart, hrest⟩⟩

/-- A symbol has no dot and does not look like a number. -/
theorem plain_of_isSymbol {t : Text} (h : isSymbol t = true) :
    Text.cut? '.'.toUInt8 t = none ∧ Numeral.looksNumeric t = false := by
  obtain ⟨_, hbytes⟩ := isNameByte_of_isSymbol h
  refine ⟨Text.cut?_eq_none_iff.mpr fun hdot => absurd (hbytes _ hdot) (by decide), ?_⟩
  cases t with
  | nil => rfl
  | cons b t => exact Shape.isDigit_of_isNameStart (Shape.isSymbol_cons.mp h).1

theorem isNameByte_of_isLiteralByte {b : UInt8} (h : Text.isLiteralByte b = true) :
    Text.isNameByte b = true := by
  revert h
  exact Text.forall_byte
    (p := fun b => Text.isLiteralByte b = true → Text.isNameByte b = true) (by decide +kernel) b

/-! ## Bits -/

namespace Operand

variable {t : Text} {pos : Position} {n : Int}

/-- The text stands for the bit address: as a bit of a byte, as a number of one byte, or as the name
of a bit. -/
inductive IsBit (t : Text) : Int → Prop
  | ofByte {byte bit : Text} {n : Int} (hcut : Text.cut? '.'.toUInt8 t = some (byte, bit))
    (hbit : MakesBit byte bit n) : IsBit t n
  | number {n : Nat} (hcut : Text.cut? '.'.toUInt8 t = none)
    (hnumeric : Numeral.looksNumeric t = true) (hparse : Numeral.parse t = .ok n)
    (hle : n ≤ byteLimit) : IsBit t n
  | named {n : Nat} (hname : SpecialRegister.bit? t = some n) : IsBit t n

/-- The parts of a text that make a bit address have the bytes that its shape asks for. -/
theorem bitParts?_of_makesBit {byte bit : Text} (hlower : ∀ b ∈ t, Text.isUpper b = false)
    (hcut : Text.cut? '.'.toUInt8 t = some (byte, bit)) (h : MakesBit byte bit n) :
    Shape.bitParts? t = some (byte, bit) := by
  obtain ⟨_, rfl⟩ := Text.cut?_eq_some_iff.mp hcut
  obtain ⟨address, number, hbyte, ⟨hnumeric, hparse, _⟩, _⟩ := h
  have hlowerBit : ∀ b ∈ bit, Text.isUpper b = false := fun b hb =>
    hlower b (List.mem_append_right _ (List.mem_cons_of_mem _ hb))
  have hname : byte ≠ [] ∧ ∀ b ∈ byte, Text.isNameByte b = true := by
    split at hbyte
    · next hnumber =>
      refine ⟨Numeral.ne_nil_of_looksNumeric hnumber, fun b hb => ?_⟩
      exact isNameByte_of_isLiteralByte (Numeral.isLiteralByte_of_parse
        (fun c hc => hlower c (List.mem_append_left _ hc)) hbyte.1 b hb)
    · exact isNameByte_of_isSymbol (SpecialRegister.isSymbol_of_byte? hbyte)
  exact Shape.bitParts?_eq_some_iff.mpr ⟨hcut, hname.1, hname.2,
    Numeral.ne_nil_of_looksNumeric hnumeric, Numeral.isLiteralByte_of_parse hlowerBit hparse⟩

/-- A bit is written with bytes of names and dots. -/
theorem IsBit.bytes (hlower : ∀ b ∈ t, Text.isUpper b = false) (h : IsBit t n) :
    t ≠ [] ∧ ∀ b ∈ t, Text.isNameByte b = true ∨ b = '.'.toUInt8 := by
  cases h with
  | ofByte hcut hbit =>
    have hparts := bitParts?_of_makesBit hlower hcut hbit
    obtain ⟨_, _, hbyte, _, hbit⟩ := Shape.bitParts?_eq_some_iff.mp hparts
    obtain ⟨_, rfl⟩ := Text.cut?_eq_some_iff.mp hcut
    refine ⟨List.append_ne_nil_of_right_ne_nil _ (List.cons_ne_nil _ _), fun b hb => ?_⟩
    rcases List.mem_append.mp hb with hb | hb
    · exact Or.inl (hbyte b hb)
    · rcases List.mem_cons.mp hb with hb | hb
      · exact Or.inr hb
      · exact Or.inl (isNameByte_of_isLiteralByte (hbit b hb))
  | number _ hnumeric hparse _ =>
    refine ⟨Numeral.ne_nil_of_looksNumeric hnumeric, fun b hb => Or.inl ?_⟩
    exact isNameByte_of_isLiteralByte (Numeral.isLiteralByte_of_parse hlower hparse b hb)
  | named hname =>
    obtain ⟨hne, hbytes⟩ := isNameByte_of_isSymbol (SpecialRegister.isSymbol_of_bit? hname).1
    exact ⟨hne, fun b hb => Or.inl (hbytes b hb)⟩

theorem IsBit.le (h : IsBit t n) : n ≤ 0xff := by
  cases h with
  | ofByte _ hbit =>
    obtain ⟨_, _, _, _, hvalue⟩ := hbit
    exact (SpecialRegister.bitAddress_bounds hvalue).2
  | number _ _ _ hle => exact Int.ofNat_le.mpr hle
  | named hname => exact Int.ofNat_le.mpr (SpecialRegister.bit?_le hname)

/-! ## After `/` -/

/-- **The reader of what follows `/` takes bits and nothing else.** -/
theorem readNegated_eq_some {text : Text} {form : Form} :
    (readNegated text t pos).result = some form ↔ ∃ n, form = .negated n ∧ IsBit t n := by
  constructor
  · intro h
    unfold readNegated at h
    split at h
    · next byte bit hcut =>
      obtain ⟨v, hv, hform⟩ := Attempt.result_bind_eq_some.mp h
      cases hform
      exact ⟨v, rfl, .ofByte hcut (readBit_eq_some.mp hv)⟩
    · next hcut =>
      split at h
      · next hnumeric =>
        obtain ⟨v, hv, hform⟩ := Attempt.result_bind_eq_some.mp h
        obtain ⟨hparse, hle⟩ := readNumber_eq_some.mp hv
        cases hform
        exact ⟨v, rfl, .number hcut hnumeric hparse hle⟩
      · split at h
        · next address hname =>
          cases h
          exact ⟨address, rfl, .named hname⟩
        · cases h
  · rintro ⟨n, rfl, hbit⟩
    unfold readNegated
    cases hbit with
    | ofByte hcut hbit =>
      rw [hcut]
      exact Attempt.result_bind_eq_some.mpr ⟨n, readBit_eq_some.mpr hbit, rfl⟩
    | @number n hcut hnumeric hparse hle =>
      rw [hcut]
      simp only [hnumeric, if_true]
      exact Attempt.result_bind_eq_some.mpr ⟨n, readNumber_eq_some.mpr ⟨hparse, hle⟩, rfl⟩
    | named hname =>
      obtain ⟨hcut, hnumeric⟩ := plain_of_isSymbol (SpecialRegister.isSymbol_of_bit? hname).1
      rw [hcut]
      simp only [hnumeric, hname]
      rfl

/-- A text after `/` is a negated bit if and only if it is a bit. -/
theorem read_negatedAddress_iff (hlower : ∀ b ∈ t, Text.isUpper b = false) :
    (∃ op, read ('/'.toUInt8 :: t) pos = .ok op ∧ op.operandClass = .negatedAddress ∧
      op.number = n) ↔ IsBit t n := by
  constructor
  · rintro ⟨op, hread, _, hnumber⟩
    obtain ⟨shape, form, hmatch, hform, rfl⟩ := read_eq_ok.mp hread
    obtain ⟨b, rest, htext, rfl⟩ := Shape.candidate_of_matchesText hmatch
    cases htext
    obtain ⟨m, rfl, hbit⟩ := readNegated_eq_some.mp hform
    cases hnumber
    exact hbit
  · intro hbit
    obtain ⟨hne, hbytes⟩ := hbit.bytes hlower
    have hline : Text.lineFeed ∉ t := by
      intro hmem
      rcases hbytes _ hmem with h | h <;> exact absurd h (by decide)
    have hmatch : Shape.matchesText ('/'.toUInt8 :: t) .negated = true :=
      Option.isSome_iff_exists.mpr ⟨t, Shape.tagged?_eq_some_iff.mpr ⟨rfl, hne, hline⟩⟩
    have hform : (readShape ('/'.toUInt8 :: t) pos .negated).result = some (.negated n) :=
      readNegated_eq_some.mpr ⟨n, rfl, hbit⟩
    exact ⟨_, read_eq_ok.mpr ⟨_, _, hmatch, hform, rfl⟩, rfl, rfl⟩

/-! ## Alone -/

theorem operandClass_readConstant {text inner : Text} {form : Form}
    (h : (readConstant text inner pos).result = some form) :
    operandClass ⟨text, pos, form⟩ = .constant := by
  unfold readConstant at h
  split at h
  · obtain ⟨v, _, hform⟩ := Attempt.result_bind_eq_some.mp h
    cases hform
    rfl
  · split at h
    · split at h <;> (cases h; rfl)
    · cases h

theorem operandClass_readIndirect {text inner : Text} {form : Form}
    (h : (readIndirect text inner pos).result = some form) :
    operandClass ⟨text, pos, form⟩ = .indirectName := by
  unfold readIndirect at h
  split at h <;> cases h
  rfl

/-- A symbol that is an address, and not one of a byte, is the name of a bit. -/
theorem bit?_of_readSymbol (hclass : operandClass ⟨t, pos, readSymbol t⟩ = .address)
    (hspace : space ⟨t, pos, readSymbol t⟩ ≠ .byte) :
    ∃ m, SpecialRegister.bit? t = some m ∧ readSymbol t = .address .bit m := by
  unfold readSymbol at hclass hspace ⊢
  cases hreserved : Reserved.ofName? t with
  | some r =>
    rw [hreserved] at hclass
    cases hclass
  | none =>
    rw [hreserved] at hclass hspace
    cases hbyte : SpecialRegister.byte? t with
    | some address =>
      rw [hbyte] at hspace
      exact absurd rfl hspace
    | none =>
      rw [hbyte] at hclass
      cases hbit : SpecialRegister.bit? t with
      | some m => exact ⟨m, rfl, rfl⟩
      | none =>
        rw [hbit] at hclass
        cases hclass

/-- What is read as an address, and not as one of a byte, is a bit if its number is a byte. -/
theorem isBit_of_readShape {shape : Shape} {form : Form}
    (hmatch : Shape.matchesText t shape = true)
    (hform : (readShape t pos shape).result = some form)
    (hclass : operandClass ⟨t, pos, form⟩ = .address) (hspace : space ⟨t, pos, form⟩ ≠ .byte)
    (hle : number ⟨t, pos, form⟩ ≤ 0xff) : IsBit t (number ⟨t, pos, form⟩) := by
  cases shape with
  | constant =>
    rw [operandClass_readConstant hform] at hclass
    cases hclass
  | bitAddress =>
    obtain ⟨⟨byte, bit⟩, hparts⟩ := Option.isSome_iff_exists.mp hmatch
    obtain ⟨v, hv, hform⟩ := Attempt.result_bind_eq_some.mp hform
    rw [hparts] at hv
    cases hform
    exact .ofByte (Shape.bitParts?_eq_some_iff.mp hparts).1 (readBit_eq_some.mp hv)
  | address =>
    obtain ⟨v, hv, hform⟩ := Attempt.result_bind_eq_some.mp hform
    cases hform
    obtain ⟨hnumeric, hbytes⟩ := Shape.isLiteral_iff.mp hmatch
    have hdot : '.'.toUInt8 ∉ t := fun hmem => absurd (hbytes _ hmem) (by decide)
    exact .number (Text.cut?_eq_none_iff.mpr hdot) hnumeric (readNumber_eq_some.mp hv).1
      (Int.ofNat_le.mp hle)
  | negated =>
    obtain ⟨m, rfl, _⟩ := readNegated_eq_some.mp hform
    cases hclass
  | offset =>
    obtain ⟨v, _, hform⟩ := Attempt.result_bind_eq_some.mp hform
    cases hform
    cases hclass
  | symbol =>
    cases hform
    obtain ⟨m, hbit, hsymbol⟩ := bit?_of_readSymbol hclass hspace
    rw [hsymbol]
    exact .named hbit
  | indirect =>
    rw [operandClass_readIndirect hform] at hclass
    cases hclass

/-- A bit has a shape that is read as its address. -/
theorem IsBit.readShape (hlower : ∀ b ∈ t, Text.isUpper b = false) (h : IsBit t n)
    (pos : Position) : ∃ shape space, Shape.matchesText t shape = true ∧ space ≠ .byte ∧
      (Operand.readShape t pos shape).result = some (.address space n) := by
  cases h with
  | ofByte hcut hbit =>
    have hparts := bitParts?_of_makesBit hlower hcut hbit
    refine ⟨.bitAddress, .bit, Option.isSome_iff_exists.mpr ⟨_, hparts⟩, by decide, ?_⟩
    rw [Operand.readShape, hparts]
    exact Attempt.result_bind_eq_some.mpr ⟨n, readBit_eq_some.mpr hbit, rfl⟩
  | @number n hcut hnumeric hparse hle =>
    have hliteral : Shape.isLiteral t = true :=
      Shape.isLiteral_iff.mpr ⟨hnumeric, Numeral.isLiteralByte_of_parse hlower hparse⟩
    have hword : n ≤ wordLimit := Nat.le_trans hle (by decide)
    refine ⟨.address, .any, hliteral, by decide, ?_⟩
    exact Attempt.result_bind_eq_some.mpr ⟨n, readNumber_eq_some.mpr ⟨hparse, hword⟩, rfl⟩
  | named hname =>
    obtain ⟨hsymbol, hreserved, hbyte⟩ := SpecialRegister.isSymbol_of_bit? hname
    refine ⟨.symbol, .bit, hsymbol, by decide, ?_⟩
    simp only [Operand.readShape, readSymbol, hreserved, hbyte, hname, Attempt.result_done]

/-- **A text alone is read as an address of a bit if and only if it is a bit.** -/
theorem read_address_iff (hlower : ∀ b ∈ t, Text.isUpper b = false) :
    (∃ op, read t pos = .ok op ∧ op.operandClass = .address ∧ op.space ≠ .byte ∧ op.number = n ∧
      n ≤ 0xff) ↔ IsBit t n := by
  constructor
  · rintro ⟨op, hread, hclass, hspace, rfl, hle⟩
    obtain ⟨shape, form, hmatch, hform, rfl⟩ := read_eq_ok.mp hread
    exact isBit_of_readShape hmatch hform hclass hspace hle
  · intro hbit
    obtain ⟨shape, space, hmatch, hspace, hform⟩ := hbit.readShape hlower pos
    exact ⟨_, read_eq_ok.mpr ⟨shape, _, hmatch, hform, rfl⟩, rfl, hspace, rfl, hbit.le⟩

/-- **A negated bit is a bit after `/`.** A text of any bytes but capital letters is read after `/`
as the negated bit `n` if and only if it is read alone as an address that may be a bit, with the
number `n` of at most a byte. -/
theorem read_negated_iff (t : Text) (hlower : ∀ b ∈ t, Text.isUpper b = false) (pos : Position)
    (n : Int) :
    (∃ op, read ('/'.toUInt8 :: t) pos = .ok op ∧ op.operandClass = .negatedAddress ∧
      op.number = n) ↔
    ∃ op, read t pos = .ok op ∧ op.operandClass = .address ∧ op.space ≠ .byte ∧ op.number = n ∧
      n ≤ 0xff := by
  rw [read_negatedAddress_iff hlower, read_address_iff hlower]

/-- The fourth bit of a port, which is given by the name of the port. -/
theorem read_negated_iff_port :
    (∃ op, read (Text.ofString "/p1.3") {} = .ok op ∧ op.operandClass = .negatedAddress ∧
      op.number = 0x93) ∧
    ∃ op, read (Text.ofString "p1.3") {} = .ok op ∧ op.operandClass = .address ∧
      op.space ≠ .byte ∧ op.number = 0x93 ∧ (0x93 : Int) ≤ 0xff := by
  have hlower : (Text.ofString "p1.3").all (fun b => !Text.isUpper b) = true := by decide
  have hiff := read_negated_iff (Text.ofString "p1.3")
    (fun b hb => by simpa using List.all_eq_true.mp hlower b hb) {} 0x93
  have hplain : ∃ op, read (Text.ofString "p1.3") {} = .ok op ∧ op.operandClass = .address ∧
      op.space ≠ .byte ∧ op.number = 0x93 ∧ (0x93 : Int) ≤ 0xff :=
    ⟨_, rfl, rfl, by decide, rfl, by decide⟩
  exact ⟨hiff.mpr hplain, hplain⟩

end Operand
end Mcs51
