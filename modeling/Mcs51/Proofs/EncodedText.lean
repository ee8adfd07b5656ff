import Mathlib.Data.List.Flatten
import Mcs51.Text.Quoting
import Mcs51.Text.StringLiteral

/-!
# Correctly encoded text

A text is correctly encoded if it is a row of ASCII bytes and of longer encodings of code points,
whose bytes are all outside ASCII. What looks for ASCII bytes only, such as splitting at commas,
never cuts a longer encoding, so the parts of a correctly encoded text are correctly encoded.

* `Encoded`: the texts without stray bytes, as they are built up
* `pieces_ascii`, `pieces_wide`: the pieces of such a text are its code points
* `encoded_foldCase`: folding case replaces stray bytes
* `Encoded.scrub_eq`: there is nothing to replace in such a text
* `length_trim_le`, `length_foldCase_le`: how much shorter or longer a text can become
-/

namespace Mcs51.Text

/-! ## Bytes of code points -/

theorem toNat_toUInt8 {n : Nat} (h : n < 256) : n.toUInt8.toNat = n := by
  rw [Nat.toUInt8_eq, UInt8.toNat_ofNat']
  omega

theorem isScalar_iff {code : Nat} :
    isScalar code = true ↔ code < 0xd800 ∨ 0xdfff < code ∧ code ≤ 0x10ffff := by
  simp [isScalar]

theorem encodePoint_ascii {code : Nat} (h : code < 0x80) :
    encodePoint code = [code.toUInt8] := if_pos h

/-- A number between two bytes as a byte. -/
theorem byte_between {n : Nat} {least most : UInt8} (hleast : least.toNat ≤ n)
    (hmost : n ≤ most.toNat) : least ≤ n.toUInt8 ∧ n.toUInt8 ≤ most := by
  have hlt := most.toNat_lt
  rw [UInt8.le_iff_toNat_le, UInt8.le_iff_toNat_le, toNat_toUInt8 (by omega)]
  exact ⟨hleast, hmost⟩

theorem not_lt_ascii {b : UInt8} (h : 0x80 ≤ b.toNat) : ¬ b < 0x80 := by
  rw [UInt8.lt_iff_toNat_lt]
  exact Nat.not_lt.mpr h

/-- A row of six bits in a continuation byte. -/
theorem tail_byte {n : Nat} (h : n < 0x40) :
    isTail (0x80 + n).toUInt8 = true ∧ tailBits (0x80 + n).toUInt8 = n := by
  obtain ⟨hleast, hmost⟩ : (0x80 : UInt8) ≤ (0x80 + n).toUInt8 ∧ (0x80 + n).toUInt8 ≤ 0xbf :=
    byte_between (Nat.le_add_right 0x80 n) (Nat.add_le_add_left (Nat.le_of_lt_succ h) 0x80)
  constructor
  · simp only [isTail, hleast, hmost, decide_true, Bool.and_self]
  · rw [tailBits, toNat_toUInt8 (by omega)]
    omega

/-! ## Decoding what is encoded -/

theorem pair?_eq (high low : Nat) (h2 : 2 ≤ high) (h32 : high < 0x20) (hlow : low < 0x40) :
    pair? (0xc0 + high).toUInt8 (0x80 + low).toUInt8 = some (high * 0x40 + low) := by
  obtain ⟨htail, hbits⟩ := tail_byte hlow
  have hn : (0xc0 + high).toUInt8.toNat = 0xc0 + high := toNat_toUInt8 (by omega)
  obtain ⟨hleast, hmost⟩ : (0xc2 : UInt8) ≤ (0xc0 + high).toUInt8 ∧ (0xc0 + high).toUInt8 ≤ 0xdf :=
    byte_between (by simp only [UInt8.reduceToNat]; omega) (by simp only [UInt8.reduceToNat]; omega)
  have hcode : (0xc0 + high) % 0x20 = high := by omega
  simp only [pair?, hleast, hmost, htail, decide_true, Bool.and_self, if_true, hn, hcode, hbits]

theorem pair?_of_le {a : UInt8} (h : 0xe0 ≤ a.toNat) (b : UInt8) : pair? a b = none := by
  have hnot : ¬ a ≤ (0xdf : UInt8) := by
    rw [UInt8.le_iff_toNat_le]
    exact Nat.not_le.mpr h
  simp only [pair?, hnot, decide_false, Bool.and_false, Bool.false_and, Bool.false_eq_true,
    if_false]

theorem triple?_eq (high middle low : Nat) (hhigh : high < 0x10) (hmiddle : middle < 0x40)
    (hlow : low < 0x40) (hlong : 0x800 ≤ high * 0x1000 + middle * 0x40 + low)
    (hscalar : isScalar (high * 0x1000 + middle * 0x40 + low) = true) :
    triple? (0xe0 + high).toUInt8 (0x80 + middle).toUInt8 (0x80 + low).toUInt8
      = some (high * 0x1000 + middle * 0x40 + low) := by
  obtain ⟨htail, hbits⟩ := tail_byte hlow
  obtain ⟨htail', hbits'⟩ := tail_byte hmiddle
  have hn : (0xe0 + high).toUInt8.toNat = 0xe0 + high := toNat_toUInt8 (by omega)
  obtain ⟨hleast, hmost⟩ : (0xe0 : UInt8) ≤ (0xe0 + high).toUInt8 ∧ (0xe0 + high).toUInt8 ≤ 0xef :=
    byte_between (by simp only [UInt8.reduceToNat]; omega) (by simp only [UInt8.reduceToNat]; omega)
  have hcode : (0xe0 + high) % 0x10 = high := by omega
  simp only [triple?, hn, hcode, hbits, hbits', hleast, hmost, htail, htail', hlong, hscalar,
    decide_true, Bool.and_self, if_true]

theorem triple?_of_le {a : UInt8} (h : 0xf0 ≤ a.toNat) (b c : UInt8) : triple? a b c = none := by
  have hnot : ¬ a ≤ (0xef : UInt8) := by
    rw [UInt8.le_iff_toNat_le]
    exact Nat.not_le.mpr h
  simp only [triple?, hnot, decide_false, Bool.and_false, Bool.false_and, Bool.false_eq_true,
    if_false]

theorem quad?_eq (high upper middle low : Nat) (hhigh : high < 5) (hupper : upper < 0x40)
    (hmiddle : middle < 0x40) (hlow : low < 0x40)
    (hlong : 0x10000 ≤ high * 0x40000 + upper * 0x1000 + middle * 0x40 + low)
    (hscalar : isScalar (high * 0x40000 + upper * 0x1000 + middle * 0x40 + low) = true) :
    quad? (0xf0 + high).toUInt8 (0x80 + upper).toUInt8 (0x80 + middle).toUInt8 (0x80 + low).toUInt8
      = some (high * 0x40000 + upper * 0x1000 + middle * 0x40 + low) := by
  obtain ⟨htail, hbits⟩ := tail_byte hlow
  obtain ⟨htail', hbits'⟩ := tail_byte hmiddle
  obtain ⟨htail'', hbits''⟩ := tail_byte hupper
  have hn : (0xf0 + high).toUInt8.toNat = 0xf0 + high := toNat_toUInt8 (by omega)
  obtain ⟨hleast, hmost⟩ : (0xf0 : UInt8) ≤ (0xf0 + high).toUInt8 ∧ (0xf0 + high).toUInt8 ≤ 0xf4 :=
    byte_between (by simp only [UInt8.reduceToNat]; omega) (by simp only [UInt8.reduceToNat]; omega)
  have hcode : (0xf0 + high) % 8 = high := by omega
  simp only [quad?, hn, hcode, hbits, hbits', hbits'', hleast, hmost, htail, htail', htail'', hlong,
    hscalar, decide_true, Bool.and_self, if_true]

/-- The bytes of a code point outside ASCII are outside ASCII. -/
theorem le_of_mem_encodePoint {code : Nat} (hwide : 0x80 ≤ code) (hscalar : isScalar code = true) :
    ∀ b ∈ encodePoint code, 0x80 ≤ b.toNat := by
  rw [isScalar_iff] at hscalar
  intro b hb
  unfold encodePoint at hb
  have hbyte : ∀ n, 0x80 ≤ n → n < 256 → b = n.toUInt8 → 0x80 ≤ b.toNat := by
    rintro n hleast hmost rfl
    rwa [toNat_toUInt8 hmost]
  split at hb
  · omega
  · split at hb
    · simp only [List.mem_cons, List.not_mem_nil, or_false] at hb
      rcases hb with hb | hb <;> exact hbyte _ (by omega) (by omega) hb
    · split at hb
      · simp only [List.mem_cons, List.not_mem_nil, or_false] at hb
        rcases hb with hb | hb | hb <;> exact hbyte _ (by omega) (by omega) hb
      · simp only [List.mem_cons, List.not_mem_nil, or_false] at hb
        rcases hb with hb | hb | hb | hb <;> exact hbyte _ (by omega) (by omega) hb

theorem leading_ascii {a : UInt8} (h : a < 0x80) (t : Text) :
    leading a t = (.point a.toNat, 0) := if_pos h

theorem leading_two {a b : UInt8} {code : Nat} (ha : 0x80 ≤ a.toNat) (h : pair? a b = some code)
    (t : Text) : leading a (b :: t) = (.point code, 1) := by
  simp only [leading, if_neg (not_lt_ascii ha), h]

theorem leading_three {a b c : UInt8} {code : Nat} (ha : 0x80 ≤ a.toNat) (hpair : pair? a b = none)
    (h : triple? a b c = some code) (t : Text) : leading a (b :: c :: t) = (.point code, 2) := by
  simp only [leading, if_neg (not_lt_ascii ha), hpair, h]

theorem leading_four {a b c d : UInt8} {code : Nat} (ha : 0x80 ≤ a.toNat)
    (hpair : pair? a b = none) (htriple : triple? a b c = none) (h : quad? a b c d = some code)
    (t : Text) : leading a (b :: c :: d :: t) = (.point code, 3) := by
  simp only [leading, if_neg (not_lt_ascii ha), hpair, htriple, h]

theorem pieces_ascii {b : UInt8} (h : b < 0x80) (t : Text) :
    pieces (b :: t) = .point b.toNat :: pieces t := by
  rw [pieces, piecesFrom, leading_ascii h]
  rfl

/-- **The encoding of a code point outside ASCII is one piece.** -/
theorem pieces_wide {code : Nat} (hwide : 0x80 ≤ code) (hscalar : isScalar code = true) (t : Text) :
    pieces (encodePoint code ++ t) = .point code :: pieces t := by
  have hbound := isScalar_iff.mp hscalar
  unfold encodePoint
  split
  · omega
  · split
    · have hcode : code / 0x40 * 0x40 + code % 0x40 = code := by omega
      have hpair := pair?_eq (code / 0x40) (code % 0x40) (by omega) (by omega) (by omega)
      rw [hcode] at hpair
      have hfirst : 0x80 ≤ (0xc0 + code / 0x40).toUInt8.toNat := by
        rw [toNat_toUInt8 (by omega)]
        omega
      simp only [List.cons_append, List.nil_append, pieces, piecesFrom, leading_two hfirst hpair]
    · split
      · have hcode : code / 0x1000 * 0x1000 + code / 0x40 % 0x40 * 0x40 + code % 0x40 = code := by
          omega
        have htriple := triple?_eq (code / 0x1000) (code / 0x40 % 0x40) (code % 0x40)
          (by omega) (by omega) (by omega) (by omega) (by rw [hcode]; exact hscalar)
        rw [hcode] at htriple
        have hfirst : 0xe0 ≤ (0xe0 + code / 0x1000).toUInt8.toNat := by
          rw [toNat_toUInt8 (by omega)]
          omega
        simp only [List.cons_append, List.nil_append, pieces, piecesFrom,
          leading_three (by omega) (pair?_of_le hfirst _) htriple]
      · have hcode : code / 0x40000 * 0x40000 + code / 0x1000 % 0x40 * 0x1000
            + code / 0x40 % 0x40 * 0x40 + code % 0x40 = code := by
          omega
        have hquad := quad?_eq (code / 0x40000) (code / 0x1000 % 0x40) (code / 0x40 % 0x40)
          (code % 0x40) (by omega) (by omega) (by omega) (by omega) (by omega)
          (by rw [hcode]; exact hscalar)
        rw [hcode] at hquad
        have hfirst : 0xf0 ≤ (0xf0 + code / 0x40000).toUInt8.toNat := by
          rw [toNat_toUInt8 (by omega)]
          omega
        simp only [List.cons_append, List.nil_append, pieces, piecesFrom,
          leading_four (by omega) (pair?_of_le (by omega) _) (triple?_of_le hfirst _ _) hquad]

/-! ## Correctly encoded text -/

/-- A row of ASCII bytes and of encodings of code points outside ASCII. -/
inductive Encoded : Text → Prop
  | nil : Encoded []
  | ascii {b : UInt8} {t : Text} (hb : b < 0x80) (ht : Encoded t) : Encoded (b :: t)
  | wide {code : Nat} {t : Text} (hwide : 0x80 ≤ code) (hscalar : isScalar code = true)
    (ht : Encoded t) : Encoded (encodePoint code ++ t)

theorem toNat_lt_of_ascii {b : UInt8} (h : b < 0x80) : b.toNat < 0x80 :=
  UInt8.lt_iff_toNat_lt.mp h

theorem encodePoint_toNat {b : UInt8} (h : b < 0x80) : encodePoint b.toNat = [b] := by
  rw [encodePoint_ascii (toNat_lt_of_ascii h), Nat.toUInt8_eq, UInt8.ofNat_toNat]

/-- The encoding of code points is correct. -/
theorem Encoded.encodePoint_append {code : Nat} (hscalar : isScalar code = true) {t : Text}
    (ht : Encoded t) : Encoded (encodePoint code ++ t) := by
  by_cases hascii : code < 0x80
  · rw [encodePoint_ascii hascii]
    refine .ascii ?_ ht
    rw [UInt8.lt_iff_toNat_lt, toNat_toUInt8 (by omega)]
    exact hascii
  · exact .wide (Nat.le_of_not_lt hascii) hscalar ht

theorem encoded_encode : ∀ {codes : List Nat}, (∀ code ∈ codes, isScalar code = true) →
    Encoded (encode codes)
  | [], _ => .nil
  | code :: codes, h => by
    rw [encode, List.flatMap_cons]
    exact Encoded.encodePoint_append (h code List.mem_cons_self)
      (encoded_encode fun c hc => h c (List.mem_cons_of_mem code hc))

/-- **There is nothing to replace in a correctly encoded text.** -/
theorem Encoded.scrub_eq {t : Text} (h : Encoded t) : scrub t = t := by
  unfold scrub codes
  induction h with
  | nil => rfl
  | @ascii b t hb _ ih =>
    rw [pieces_ascii hb, List.map_cons, encode, List.flatMap_cons, Piece.code, encodePoint_toNat hb]
    exact congrArg (b :: ·) ih
  | @wide code t hwide hscalar _ ih =>
    rw [pieces_wide hwide hscalar, List.map_cons, encode, List.flatMap_cons, Piece.code]
    exact congrArg (encodePoint code ++ ·) ih

/-- The pieces of a correctly encoded text are code points. -/
theorem Encoded.pieces {t : Text} (h : Encoded t) :
    ∀ p ∈ pieces t, ∃ code, p = .point code ∧ isScalar code = true := by
  induction h with
  | nil => nofun
  | @ascii b t hb _ ih =>
    rw [pieces_ascii hb]
    intro p hp
    rcases List.mem_cons.mp hp with rfl | hp
    · have hlt := toNat_lt_of_ascii hb
      exact ⟨b.toNat, rfl, isScalar_iff.mpr (by omega)⟩
    · exact ih p hp
  | @wide code t hwide hscalar _ ih =>
    rw [pieces_wide hwide hscalar]
    intro p hp
    rcases List.mem_cons.mp hp with rfl | hp
    · exact ⟨code, rfl, hscalar⟩
    · exact ih p hp

theorem encoded_ofPieces : ∀ {ps : List Piece},
    (∀ p ∈ ps, ∃ code, p = .point code ∧ isScalar code = true) → Encoded (ofPieces ps)
  | [], _ => .nil
  | p :: ps, h => by
    obtain ⟨code, rfl, hscalar⟩ := h p List.mem_cons_self
    exact Encoded.encodePoint_append hscalar
      (encoded_ofPieces fun q hq => h q (List.mem_cons_of_mem _ hq))

/-- The pieces that trimming leaves are pieces of the text. -/
theorem trimmed_sublist (ps : List Piece) :
    ((ps.dropWhile Piece.isBlank).reverse.dropWhile Piece.isBlank).reverse.Sublist ps := by
  have hback := (List.dropWhile_sublist Piece.isBlank (l := (ps.dropWhile Piece.isBlank).reverse))
  rw [← List.reverse_sublist, List.reverse_reverse] at hback
  exact hback.trans (List.dropWhile_sublist Piece.isBlank)

theorem Encoded.trim {t : Text} (h : Encoded t) : Encoded (trim t) :=
  encoded_ofPieces fun p hp => h.pieces p ((trimmed_sublist (Text.pieces t)).mem hp)

theorem encodePoint_eq_cons (code : Nat) : ∃ first rest, encodePoint code = first :: rest := by
  unfold encodePoint
  repeat' split
  all_goals exact ⟨_, _, rfl⟩

/-- A longer encoding does not start with an ASCII byte. -/
theorem Encoded.tail {b : UInt8} {t : Text} (h : Encoded (b :: t)) (hb : b < 0x80) :
    Encoded t := by
  generalize htext : b :: t = text at h
  cases h with
  | nil => cases htext
  | ascii _ ht =>
    cases htext
    exact ht
  | @wide code t' hwide hscalar _ =>
    -- the first byte of the encoding would be the ASCII byte
    obtain ⟨first, rest, hfirst⟩ := encodePoint_eq_cons code
    rw [hfirst, List.cons_append] at htext
    cases htext
    have hmem : b ∈ encodePoint code := hfirst ▸ List.mem_cons_self
    have hle := le_of_mem_encodePoint hwide hscalar b hmem
    exact absurd hb (not_lt_ascii hle)

theorem Encoded.dropWhile {p : UInt8 → Bool} (hp : ∀ b, p b = true → b < 0x80) :
    ∀ {t : Text}, Encoded t → Encoded (t.dropWhile p)
  | [], h => h
  | b :: t, h => by
    rw [List.dropWhile_cons]
    split
    · next hb => exact (h.tail (hp b hb)).dropWhile hp
    · exact h

/-! ## Bytes outside ASCII in scans -/

/-- A byte outside ASCII neither opens nor closes a quote. -/
theorem nextQuote_wide {quote : OpenQuote} (hquote : ∀ q ∈ quote, q < 0x80) {b : UInt8}
    (hb : 0x80 ≤ b.toNat) : nextQuote quote b = quote := by
  have hne : ∀ q : UInt8, q < 0x80 → (b == q) = false := fun q hq =>
    beq_eq_false_iff_ne.mpr fun heq => not_lt_ascii hb (heq ▸ hq)
  cases quote with
  | none => simp only [nextQuote, hne doubleQuote (by decide), hne singleQuote (by decide),
      Bool.or_self, Bool.false_eq_true, if_false]
  | some q => simp only [nextQuote, hne q (hquote q rfl), Bool.false_eq_true, if_false]

/-- The quote that is open is an ASCII byte. -/
theorem nextQuote_ascii {quote : OpenQuote} (hquote : ∀ q ∈ quote, q < 0x80) {b : UInt8}
    (hb : b < 0x80) : ∀ q ∈ nextQuote quote b, q < 0x80 := by
  intro q hq
  unfold nextQuote at hq
  split at hq
  · split at hq
    · cases hq
    · exact hquote q hq
  · split at hq
    · cases hq
      exact hb
    · cases hq

/-- Bytes outside ASCII join the part after them. -/
theorem splitCommasFrom_wide {quote : OpenQuote} (hquote : ∀ q ∈ quote, q < 0x80) {t part : Text}
    {parts : List Text} (ht : splitCommasFrom quote t = part :: parts) :
    ∀ {bytes : Text}, (∀ b ∈ bytes, 0x80 ≤ b.toNat) →
      splitCommasFrom quote (bytes ++ t) = (bytes ++ part) :: parts
  | [], _ => ht
  | b :: bytes, h => by
    have hb := h b List.mem_cons_self
    have hcomma : (b == ','.toUInt8) = false :=
      beq_eq_false_iff_ne.mpr fun heq => not_lt_ascii hb (heq ▸ by decide)
    have ih := splitCommasFrom_wide hquote ht fun c hc => h c (List.mem_cons_of_mem b hc)
    simp only [List.cons_append, splitCommasFrom, hcomma, Bool.and_false, Bool.false_eq_true,
      if_false, nextQuote_wide hquote hb, ih]

/-- **The parts between the commas of a correctly encoded text are correctly encoded.** -/
theorem Encoded.splitCommasFrom {t : Text} (h : Encoded t) :
    ∀ quote : OpenQuote, (∀ q ∈ quote, q < 0x80) →
      ∃ part parts, splitCommasFrom quote t = part :: parts ∧ ∀ p ∈ part :: parts, Encoded p := by
  induction h with
  | nil =>
    intro quote _
    exact ⟨[], [], rfl, fun p hp => List.mem_singleton.mp hp ▸ .nil⟩
  | @ascii b t hb _ ih =>
    intro quote hquote
    unfold Text.splitCommasFrom
    split
    · obtain ⟨part, parts, hparts, hall⟩ := ih none nofun
      refine ⟨[], part :: parts, by rw [hparts], fun p hp => ?_⟩
      rcases List.mem_cons.mp hp with rfl | hp
      · exact .nil
      · exact hall p hp
    · obtain ⟨part, parts, hparts, hall⟩ := ih _ (nextQuote_ascii hquote hb)
      refine ⟨b :: part, parts, by rw [hparts], fun p hp => ?_⟩
      rcases List.mem_cons.mp hp with rfl | hp
      · exact .ascii hb (hall part List.mem_cons_self)
      · exact hall p (List.mem_cons_of_mem part hp)
  | @wide code t hwide hscalar _ ih =>
    intro quote hquote
    obtain ⟨part, parts, hparts, hall⟩ := ih quote hquote
    refine ⟨_, parts, splitCommasFrom_wide hquote hparts (le_of_mem_encodePoint hwide hscalar),
      fun p hp => ?_⟩
    rcases List.mem_cons.mp hp with rfl | hp
    · exact .wide hwide hscalar (hall part List.mem_cons_self)
    · exact hall p (List.mem_cons_of_mem part hp)

theorem Encoded.splitCommas {t : Text} (h : Encoded t) : ∀ p ∈ splitCommas t, Encoded p := by
  intro p hp
  obtain ⟨part, hpart, rfl⟩ := List.mem_map.mp hp
  obtain ⟨first, rest, hparts, hall⟩ := h.splitCommasFrom none nofun
  rw [hparts] at hpart
  exact (hall part hpart).trim

theorem lowerByte_lt {b : UInt8} (h : b < 0x80) : lowerByte b < 0x80 := by
  unfold lowerByte
  split
  · next hupper =>
    simp only [isUpper, Bool.and_eq_true, decide_eq_true_eq] at hupper
    have hle : b.toNat ≤ 0x5a := UInt8.le_iff_toNat_le.mp hupper.2
    rw [UInt8.lt_iff_toNat_lt, UInt8.toNat_add]
    show (b.toNat + 0x20) % 256 < 0x80
    omega
  · exact h

theorem lowerByte_wide {b : UInt8} (h : 0x80 ≤ b.toNat) : lowerByte b = b := by
  have hle : ¬ b ≤ (0x5a : UInt8) := by
    rw [UInt8.le_iff_toNat_le]
    exact Nat.not_le.mpr (Nat.lt_of_lt_of_le (by decide) h)
  simp only [lowerByte, isUpper, hle, decide_false, Bool.and_false, Bool.false_eq_true, if_false]

/-- Bytes outside ASCII have no other case. -/
theorem lowerUnquoted_wide (quoted : Bool) (t : Text) :
    ∀ {bytes : Text}, (∀ b ∈ bytes, 0x80 ≤ b.toNat) →
      lowerUnquoted quoted (bytes ++ t) = bytes ++ lowerUnquoted quoted t
  | [], _ => rfl
  | b :: bytes, h => by
    have hb := h b List.mem_cons_self
    have hquote : (b == doubleQuote) = false :=
      beq_eq_false_iff_ne.mpr fun heq => not_lt_ascii hb (heq ▸ by decide)
    have ih := lowerUnquoted_wide quoted t fun c hc => h c (List.mem_cons_of_mem b hc)
    simp only [List.cons_append, lowerUnquoted, hquote, Bool.false_eq_true, if_false,
      lowerByte_wide hb, ite_self, ih]

theorem Encoded.lowerUnquoted {t : Text} (h : Encoded t) :
    ∀ quoted, Encoded (lowerUnquoted quoted t) := by
  induction h with
  | nil => exact fun _ => .nil
  | @ascii b t hb _ ih =>
    intro quoted
    refine .ascii ?_ (ih _)
    generalize (if b == doubleQuote then !quoted else quoted) = quoted'
    cases quoted' with
    | false => exact lowerByte_lt hb
    | true => exact hb
  | @wide code t hwide hscalar _ ih =>
    intro quoted
    rw [lowerUnquoted_wide quoted t (le_of_mem_encodePoint hwide hscalar)]
    exact .wide hwide hscalar (ih quoted)

/-! ## Pieces of any text -/

theorem toUInt8_of_toNat {n : Nat} {b : UInt8} (h : n = b.toNat) : n.toUInt8 = b := by
  rw [h, Nat.toUInt8_eq, UInt8.ofNat_toNat]

theorem isTail_iff {b : UInt8} : isTail b = true ↔ 0x80 ≤ b.toNat ∧ b.toNat ≤ 0xbf := by
  simp only [isTail, Bool.and_eq_true, decide_eq_true_eq, UInt8.le_iff_toNat_le]
  rfl

/-- A byte between two others, as numbers. -/
theorem toNat_between {least most b : UInt8} (h : least ≤ b ∧ b ≤ most) :
    least.toNat ≤ b.toNat ∧ b.toNat ≤ most.toNat :=
  ⟨UInt8.le_iff_toNat_le.mp h.1, UInt8.le_iff_toNat_le.mp h.2⟩

theorem encodePoint_of_pair? {a b : UInt8} {code : Nat} (h : pair? a b = some code) :
    encodePoint code = [a, b] := by
  simp only [pair?, Option.ite_none_right_eq_some, Bool.and_eq_true, decide_eq_true_eq,
    Option.some.injEq] at h
  obtain ⟨⟨ha, hb⟩, hcode⟩ := h
  have ha := toNat_between ha
  have hb := isTail_iff.mp hb
  simp only [UInt8.reduceToNat, tailBits] at ha hcode
  rw [encodePoint, if_neg (by omega), if_pos (by omega), toUInt8_of_toNat (b := a) (by omega),
    toUInt8_of_toNat (b := b) (by omega)]

theorem encodePoint_of_triple? {a b c : UInt8} {code : Nat} (h : triple? a b c = some code) :
    encodePoint code = [a, b, c] := by
  simp only [triple?, Option.ite_none_right_eq_some, Bool.and_eq_true, decide_eq_true_eq,
    Option.some.injEq] at h
  obtain ⟨⟨⟨⟨⟨ha, hb⟩, hc⟩, hlong⟩, _⟩, hcode⟩ := h
  have ha := toNat_between ha
  have hb := isTail_iff.mp hb
  have hc := isTail_iff.mp hc
  rw [hcode] at hlong
  simp only [UInt8.reduceToNat, tailBits] at ha hcode
  rw [encodePoint, if_neg (by omega), if_neg (by omega), if_pos (by omega),
    toUInt8_of_toNat (b := a) (by omega), toUInt8_of_toNat (b := b) (by omega),
    toUInt8_of_toNat (b := c) (by omega)]

theorem encodePoint_of_quad? {a b c d : UInt8} {code : Nat} (h : quad? a b c d = some code) :
    encodePoint code = [a, b, c, d] := by
  simp only [quad?, Option.ite_none_right_eq_some, Bool.and_eq_true, decide_eq_true_eq,
    Option.some.injEq] at h
  obtain ⟨⟨⟨⟨⟨⟨ha, hb⟩, hc⟩, hd⟩, hlong⟩, _⟩, hcode⟩ := h
  have ha := toNat_between ha
  have hb := isTail_iff.mp hb
  have hc := isTail_iff.mp hc
  have hd := isTail_iff.mp hd
  rw [hcode] at hlong
  simp only [UInt8.reduceToNat, tailBits] at ha hcode
  rw [encodePoint, if_neg (by omega), if_neg (by omega), if_neg (by omega),
    toUInt8_of_toNat (b := a) (by omega), toUInt8_of_toNat (b := b) (by omega),
    toUInt8_of_toNat (b := c) (by omega), toUInt8_of_toNat (b := d) (by omega)]

theorem bytes_leading (a : UInt8) (rest : Text) :
    (leading a rest).1.bytes ++ rest.drop (leading a rest).2 = a :: rest := by
  unfold leading
  split
  · next ha => exact congrArg (· ++ rest) (encodePoint_toNat ha)
  · split
    · rfl
    · split
      · next hpair => exact congrArg (· ++ _) (encodePoint_of_pair? hpair)
      · split
        · rfl
        · split
          · next htriple => exact congrArg (· ++ _) (encodePoint_of_triple? htriple)
          · split
            · rfl
            · split
              · next hquad => exact congrArg (· ++ _) (encodePoint_of_quad? hquad)
              · rfl

theorem ofPieces_piecesFrom : ∀ (covered : Nat) (t : Text),
    ofPieces (piecesFrom covered t) = t.drop covered
  | _, [] => by simp [piecesFrom, ofPieces]
  | 0, a :: rest => by
    rw [piecesFrom, ofPieces, List.flatMap_cons, ← ofPieces, ofPieces_piecesFrom]
    exact bytes_leading a rest
  | covered + 1, _ :: rest => ofPieces_piecesFrom covered rest

/-- **A text is the concatenation of its pieces.** -/
theorem ofPieces_pieces (t : Text) : ofPieces (pieces t) = t := ofPieces_piecesFrom 0 t

theorem isScalar_of_pair? {a b : UInt8} {code : Nat} (h : pair? a b = some code) :
    isScalar code = true := by
  simp only [pair?, Option.ite_none_right_eq_some, Option.some.injEq] at h
  obtain ⟨_, rfl⟩ := h
  have hbits : tailBits b < 0x40 := Nat.mod_lt _ (by decide)
  rw [isScalar_iff]
  omega

theorem isScalar_of_triple? {a b c : UInt8} {code : Nat} (h : triple? a b c = some code) :
    isScalar code = true := by
  simp only [triple?, Option.ite_none_right_eq_some, Bool.and_eq_true, Option.some.injEq] at h
  obtain ⟨⟨_, hscalar⟩, rfl⟩ := h
  exact hscalar

theorem isScalar_of_quad? {a b c d : UInt8} {code : Nat} (h : quad? a b c d = some code) :
    isScalar code = true := by
  simp only [quad?, Option.ite_none_right_eq_some, Bool.and_eq_true, Option.some.injEq] at h
  obtain ⟨⟨_, hscalar⟩, rfl⟩ := h
  exact hscalar

/-- A piece counts as a code point with an encoding. -/
theorem isScalar_leading (a : UInt8) (rest : Text) :
    isScalar (leading a rest).1.code = true := by
  unfold leading
  split
  · next ha => exact isScalar_iff.mpr (.inl (Nat.lt_trans (toNat_lt_of_ascii ha) (by decide)))
  · split
    · rfl
    · split
      · next hpair => exact isScalar_of_pair? hpair
      · split
        · rfl
        · split
          · next htriple => exact isScalar_of_triple? htriple
          · split
            · rfl
            · split
              · next hquad => exact isScalar_of_quad? hquad
              · rfl

theorem isScalar_of_mem_piecesFrom : ∀ {covered : Nat} {t : Text} {p : Piece},
    p ∈ piecesFrom covered t → isScalar p.code = true
  | 0, a :: rest, p, h => by
    rcases List.mem_cons.mp h with rfl | h
    · exact isScalar_leading a rest
    · exact isScalar_of_mem_piecesFrom h
  | covered + 1, _ :: rest, p, h => by
    have h : p ∈ piecesFrom covered rest := h
    exact isScalar_of_mem_piecesFrom h

/-- A text without stray bytes is correctly encoded. -/
theorem encoded_of_isValid {t : Text} (h : isValid t = true) : Encoded t := by
  rw [← ofPieces_pieces t]
  refine encoded_ofPieces fun p hp => ?_
  have hscalar := isScalar_of_mem_piecesFrom hp
  have hpoint := List.all_eq_true.mp h p hp
  cases p with
  | point code => exact ⟨code, rfl, hscalar⟩
  | stray byte => cases hpoint

/-- **What replaces stray bytes gives a correctly encoded text.** -/
theorem encoded_scrub (t : Text) : Encoded (scrub t) := by
  refine encoded_encode fun code hcode => ?_
  obtain ⟨p, hp, rfl⟩ := List.mem_map.mp hcode
  exact isScalar_of_mem_piecesFrom hp

theorem encoded_foldCase (t : Text) : Encoded (foldCase t) := (encoded_scrub t).lowerUnquoted false

/-! ## Lengths -/

theorem length_encodePoint {code : Nat} : (encodePoint code).length =
    if code < 0x80 then 1 else if code < 0x800 then 2 else if code < 0x10000 then 3 else 4 := by
  unfold encodePoint
  repeat' split
  all_goals rfl

theorem length_trim_le (t : Text) : (trim t).length ≤ t.length := by
  have hsub := ((trimmed_sublist (pieces t)).flatMap Piece.bytes).length_le
  calc (trim t).length ≤ (ofPieces (pieces t)).length := hsub
    _ = t.length := by rw [ofPieces_pieces]

/-- A stray byte is replaced by three bytes. -/
theorem length_encode_code_le : ∀ ps : List Piece,
    (encode (ps.map Piece.code)).length ≤ 3 * (ofPieces ps).length
  | [] => Nat.le_refl 0
  | p :: ps => by
    have ih := length_encode_code_le ps
    have hfirst : (encodePoint p.code).length ≤ 3 * p.bytes.length := by
      cases p with
      | point code =>
        simp only [Piece.code, Piece.bytes]
        omega
      | stray byte => exact Nat.le_refl 3
    simp only [encode, ofPieces, List.map_cons, List.flatMap_cons, List.length_append] at ih ⊢
    omega

theorem length_lowerUnquoted : ∀ (quoted : Bool) (t : Text),
    (lowerUnquoted quoted t).length = t.length
  | _, [] => rfl
  | _, _ :: t => congrArg (· + 1) (length_lowerUnquoted _ t)

theorem length_foldCase_le (t : Text) : (foldCase t).length ≤ 3 * t.length := by
  calc (foldCase t).length = (scrub t).length := length_lowerUnquoted false _
    _ ≤ 3 * (ofPieces (pieces t)).length := length_encode_code_le (pieces t)
    _ = 3 * t.length := by rw [ofPieces_pieces]

end Mcs51.Text
