import Mcs51.Proofs.PieceRows
import Mcs51.Proofs.OperandClassification
import Mcs51.Token.Reader

/-!
# Lines that are normalized twice

A line whose comment was cut off and whose case was folded before it is read gives the same tokens:
both scans have nothing left to do, and neither disturbs the other. The two track different quotes
and see bytes, while what they look for are code points, so all is proved of the pieces of a text,
where one scan shortens the row and the other changes single pieces.

* `stripRow`, `foldRow` — the scans on a row of pieces
* `stripComment_eq`, `foldCase_eq` — they are the scans of the text
* `stripRow_foldRow`, `trimRow_foldRow` — folding case commutes with cutting off
* `Line.normalize_normalized`, `readSource_normalized` — a second time changes nothing
-/

namespace Mcs51

namespace Text

/-! ## Comments -/

/-- The code of the quote that is open after a code point. -/
def nextMark (mark : Option Nat) (code : Nat) : Option Nat :=
  match mark with
  | some q => if code == q then none else some q
  | none => if code == 0x22 || code == 0x27 then some code else none

/-- The pieces up to the first semicolon outside quotes, the given quote being open. -/
def stripRow : Option Nat → List Piece → List Piece
  | _, [] => []
  | mark, p :: ps =>
    if mark.isNone && p.code == 0x3b then [] else p :: stripRow (nextMark mark p.code) ps

section

variable {p : Piece} {ps : List Piece} {t : Text} {quote : OpenQuote} {mark : Option Nat}

theorem beq_toNat (b c : UInt8) : (b.toNat == c.toNat) = (b == c) := by
  rw [Bool.eq_iff_iff, beq_iff_eq, beq_iff_eq, UInt8.toNat_inj]

theorem nextMark_toNat (quote : OpenQuote) (b : UInt8) :
    nextMark (quote.map UInt8.toNat) b.toNat = (nextQuote quote b).map UInt8.toNat := by
  cases quote with
  | none =>
    have hdouble : (b.toNat == 0x22) = (b == doubleQuote) := beq_toNat b doubleQuote
    have hsingle : (b.toNat == 0x27) = (b == singleQuote) := beq_toNat b singleQuote
    simp only [nextMark, nextQuote, Option.map_none, hdouble, hsingle]
    split <;> rfl
  | some q =>
    simp only [nextMark, nextQuote, Option.map_some, beq_toNat]
    split <;> rfl

/-- A code point outside ASCII neither opens nor closes a quote. -/
theorem nextMark_wide (hquote : ∀ q ∈ quote, q < 0x80) {code : Nat} (hwide : 0x80 ≤ code) :
    nextMark (quote.map UInt8.toNat) code = quote.map UInt8.toNat := by
  have hne : ∀ k : Nat, k < 0x80 → (code == k) = false := fun k hk =>
    beq_eq_false_iff_ne.mpr (by omega)
  cases quote with
  | none =>
    simp only [nextMark, Option.map_none, hne 0x22 (by decide), hne 0x27 (by decide), Bool.or_self,
      Bool.false_eq_true, if_false]
  | some q =>
    simp only [nextMark, Option.map_some, hne q.toNat (toNat_lt_of_ascii (hquote q rfl)),
      Bool.false_eq_true, if_false]

/-- Bytes outside ASCII stay in front of a comment. -/
theorem stripCommentFrom_wide (hquote : ∀ q ∈ quote, q < 0x80) (t : Text) :
    ∀ {bytes : Text}, (∀ b ∈ bytes, 0x80 ≤ b.toNat) →
      stripCommentFrom quote (bytes ++ t) = bytes ++ stripCommentFrom quote t
  | [], _ => rfl
  | b :: bytes, h => by
    obtain ⟨hb, hbytes⟩ := List.forall_mem_cons.mp h
    have hsemicolon : (b == ';'.toUInt8) = false :=
      beq_eq_false_iff_ne.mpr fun heq => not_lt_ascii hb (heq ▸ by decide)
    rw [List.cons_append, stripCommentFrom, hsemicolon, Bool.and_false, nextQuote_wide hquote hb,
      stripCommentFrom_wide hquote t hbytes]
    rfl

theorem stripCommentFrom_ofPieces (hquote : ∀ q ∈ quote, q < 0x80) (h : Row ps) :
    stripCommentFrom quote (ofPieces ps) = ofPieces (stripRow (quote.map UInt8.toNat) ps) := by
  induction h generalizing quote with
  | nil => rfl
  | @cons p ps hp _ ih =>
    rw [ofPieces_cons]
    rcases hp.ascii_or_wide with ⟨b, hb, rfl⟩ | ⟨hwide, _, hbytes⟩
    · have hsemicolon : (b.toNat == 0x3b) = (b == ';'.toUInt8) := beq_toNat b ';'.toUInt8
      rw [Piece.bytes, encodePoint_toNat hb, List.singleton_append, stripCommentFrom, stripRow,
        Piece.code, hsemicolon, nextMark_toNat, Option.isNone_map]
      split
      · rfl
      · rw [ih (nextQuote_ascii hquote hb), ofPieces_cons, Piece.bytes, encodePoint_toNat hb,
          List.singleton_append]
    · have hsemicolon : (p.code == 0x3b) = false := beq_eq_false_iff_ne.mpr (by omega)
      rw [stripCommentFrom_wide hquote _ hbytes, ih hquote, stripRow, hsemicolon, Bool.and_false,
        nextMark_wide hquote hwide, if_neg (by decide), ofPieces_cons]

/-- The comment of a line is cut off its pieces. -/
theorem stripComment_eq (t : Text) : stripComment t = ofPieces (stripRow none (pieces t)) := by
  have hquote : ∀ q ∈ (none : OpenQuote), q < 0x80 := by
    intro q hq
    cases hq
  have h := stripCommentFrom_ofPieces hquote (row_pieces t)
  rwa [ofPieces_pieces] at h

theorem stripRow_isStart : ∀ (mark : Option Nat) (ps : List Piece), stripRow mark ps <+: ps
  | _, [] => List.nil_prefix
  | mark, p :: ps => by
    unfold stripRow
    split
    · exact List.nil_prefix
    · exact (List.prefix_cons_inj p).mpr (stripRow_isStart _ ps)

theorem pieces_stripComment (t : Text) : pieces (stripComment t) = stripRow none (pieces t) := by
  rw [stripComment_eq]
  exact ((row_pieces t).of_part (stripRow_isStart none _).isInfix).pieces_ofPieces

/-- **In front of a comment there is no other.** -/
theorem stripRow_stripRow : ∀ (mark : Option Nat) (ps : List Piece),
    stripRow mark (stripRow mark ps) = stripRow mark ps
  | _, [] => rfl
  | mark, p :: ps => by
    rw [stripRow]
    split
    · rfl
    · next h => rw [stripRow, if_neg h, stripRow_stripRow]

end

/-! ## Case -/

/-- The lower-case form of an ASCII letter; any other code point is itself. -/
def lowerCode (code : Nat) : Nat := if 0x41 ≤ code ∧ code ≤ 0x5a then code + 0x20 else code

/-- Whether a double quote is open after a code point. -/
def quotedAfter (quoted : Bool) (code : Nat) : Bool := if code == 0x22 then !quoted else quoted

/-- The piece as folding leaves it, inside or outside double quotes. -/
def foldPiece (quoted : Bool) (p : Piece) : Piece :=
  .point (if quoted then p.code else lowerCode p.code)

/-- The pieces in lower case outside double quotes; `quoted` says whether one is open. -/
def foldRow : Bool → List Piece → List Piece
  | _, [] => []
  | quoted, p :: ps =>
    foldPiece (quotedAfter quoted p.code) p :: foldRow (quotedAfter quoted p.code) ps

section

variable {p : Piece} {ps : List Piece} {t : Text} {mark : Option Nat}

theorem lowerByte_toNat (b : UInt8) : (lowerByte b).toNat = lowerCode b.toNat :=
  forall_byte (p := fun b => (lowerByte b).toNat = lowerCode b.toNat) (by decide +kernel) b

/-- Folding neither makes nor removes a code point before the letters. -/
theorem lowerCode_eq_iff {code k : Nat} (hk : k < 0x41) : lowerCode code = k ↔ code = k := by
  unfold lowerCode
  split <;> omega

theorem lowerCode_lowerCode (code : Nat) : lowerCode (lowerCode code) = lowerCode code := by
  by_cases h : 0x41 ≤ code ∧ code ≤ 0x5a
  · rw [lowerCode, lowerCode, if_pos h, if_neg (by omega)]
  · rw [lowerCode, lowerCode, if_neg h, if_neg h]

theorem lowerCode_wide {code : Nat} (h : 0x80 ≤ code) : lowerCode code = code :=
  if_neg (by omega)

theorem isScalar_lowerCode {code : Nat} (h : isScalar code = true) :
    isScalar (lowerCode code) = true := by
  rw [isScalar_iff] at h ⊢
  unfold lowerCode
  split <;> omega

theorem code_foldPiece (h : p.code < 0x41) (quoted : Bool) :
    (foldPiece quoted p).code = p.code := by
  cases quoted with
  | true => rfl
  | false => exact if_neg (by omega)

theorem beq_foldPiece {k : Nat} (hk : k < 0x41) (quoted : Bool) (p : Piece) :
    ((foldPiece quoted p).code == k) = (p.code == k) := by
  rw [Bool.eq_iff_iff, beq_iff_eq, beq_iff_eq]
  cases quoted with
  | true => rfl
  | false => exact lowerCode_eq_iff hk

/-- The bytes of an ASCII byte as folding leaves it. -/
theorem bytes_foldPiece {b : UInt8} (hb : b < 0x80) (quoted : Bool) :
    (foldPiece quoted (.point b.toNat)).bytes = [if quoted then b else lowerByte b] := by
  cases quoted with
  | true => exact encodePoint_toNat hb
  | false =>
    rw [foldPiece, if_neg (by decide), if_neg (by decide), Piece.code, ← lowerByte_toNat]
    exact encodePoint_toNat (lowerByte_lt hb)

theorem foldPiece_wide (hwide : 0x80 ≤ p.code) (quoted : Bool) :
    foldPiece quoted p = .point p.code := by
  rw [foldPiece, lowerCode_wide hwide, ite_self]

theorem lowerUnquoted_encode (quoted : Bool) (h : Row ps) :
    lowerUnquoted quoted (encode (ps.map Piece.code)) = ofPieces (foldRow quoted ps) := by
  induction h generalizing quoted with
  | nil => rfl
  | @cons p ps hp _ ih =>
    rw [List.map_cons, encode, List.flatMap_cons, ← encode, foldRow, ofPieces_cons]
    rcases hp.ascii_or_wide with ⟨b, hb, rfl⟩ | ⟨hwide, hscalar, _⟩
    · have hquoted : quotedAfter quoted b.toNat = if b == doubleQuote then !quoted else quoted := by
        rw [quotedAfter, ← beq_toNat b doubleQuote]
        rfl
      rw [Piece.code, encodePoint_toNat hb, bytes_foldPiece hb, ← ih, hquoted]
      rfl
    · have hquoted : quotedAfter quoted p.code = quoted :=
        if_neg (by rw [beq_iff_eq]; omega)
      rw [lowerUnquoted_wide quoted _ (le_of_mem_encodePoint hwide hscalar), ih, hquoted,
        foldPiece_wide hwide, Piece.bytes]

/-- The case of a line is folded in its pieces. -/
theorem foldCase_eq (t : Text) : foldCase t = ofPieces (foldRow false (pieces t)) :=
  lowerUnquoted_encode false (row_pieces t)

theorem foldRow_points : ∀ (quoted : Bool) {ps : List Piece}, (∀ p ∈ ps, isScalar p.code = true) →
    ∀ p ∈ foldRow quoted ps, ∃ code, p = .point code ∧ isScalar code = true
  | _, [], _, p, hp => by cases hp
  | quoted, q :: ps, h, p, hp => by
    obtain ⟨hq, hps⟩ := List.forall_mem_cons.mp h
    rcases List.mem_cons.mp hp with rfl | hp
    · refine ⟨_, rfl, ?_⟩
      split
      · exact hq
      · exact isScalar_lowerCode hq
    · exact foldRow_points _ hps p hp

theorem pieces_foldCase (t : Text) : pieces (foldCase t) = foldRow false (pieces t) := by
  rw [foldCase_eq]
  exact (row_of_points (foldRow_points false fun _ hp =>
    isScalar_of_mem_piecesFrom hp)).pieces_ofPieces

theorem quotedAfter_foldPiece (quoted inside : Bool) (p : Piece) :
    quotedAfter quoted (foldPiece inside p).code = quotedAfter quoted p.code := by
  rw [quotedAfter, quotedAfter, beq_foldPiece (by decide)]

theorem foldPiece_foldPiece (quoted : Bool) (p : Piece) :
    foldPiece quoted (foldPiece quoted p) = foldPiece quoted p := by
  cases quoted with
  | true => rfl
  | false => exact congrArg Piece.point (lowerCode_lowerCode p.code)

/-- **Folded pieces are not folded further.** -/
theorem foldRow_foldRow : ∀ (quoted : Bool) (ps : List Piece),
    foldRow quoted (foldRow quoted ps) = foldRow quoted ps
  | _, [] => rfl
  | quoted, p :: ps => by
    rw [foldRow, foldRow, quotedAfter_foldPiece, foldPiece_foldPiece, foldRow_foldRow]

/-! ## Both scans -/

/-- A quote that is open is one of the two kinds, whose codes folding does not touch. -/
theorem nextMark_foldPiece (hmark : ∀ q ∈ mark, q < 0x41) (quoted : Bool) (p : Piece) :
    nextMark mark (foldPiece quoted p).code = nextMark mark p.code := by
  cases mark with
  | none =>
    simp only [nextMark, beq_foldPiece (show 0x22 < 0x41 by decide),
      beq_foldPiece (show 0x27 < 0x41 by decide)]
    split
    · next h =>
      rw [Bool.or_eq_true, beq_iff_eq, beq_iff_eq] at h
      rw [code_foldPiece (by omega)]
    · rfl
  | some q => simp only [nextMark, beq_foldPiece (hmark q rfl)]

theorem nextMark_lt (hmark : ∀ q ∈ mark, q < 0x41) (code : Nat) :
    ∀ q ∈ nextMark mark code, q < 0x41 := by
  intro q hq
  unfold nextMark at hq
  split at hq
  · split at hq
    · cases hq
    · exact hmark q hq
  · split at hq
    · next h =>
      cases hq
      rw [Bool.or_eq_true, beq_iff_eq, beq_iff_eq] at h
      omega
    · cases hq

/-- **A comment starts at the same piece after folding.** -/
theorem stripRow_foldRow : ∀ {mark : Option Nat}, (∀ q ∈ mark, q < 0x41) →
    ∀ (quoted : Bool) (ps : List Piece),
      stripRow mark (foldRow quoted ps) = foldRow quoted (stripRow mark ps)
  | _, _, _, [] => rfl
  | mark, hmark, quoted, p :: ps => by
    -- the two scans track different quotes, so each keeps its own state in the induction
    rw [foldRow, stripRow, stripRow, beq_foldPiece (by decide), nextMark_foldPiece hmark,
      stripRow_foldRow (nextMark_lt hmark p.code)]
    split
    · rfl
    · rfl

theorem isBlankPoint_lowerCode (code : Nat) :
    isBlankPoint (lowerCode code) = isBlankPoint code := by
  unfold lowerCode
  split
  · next h =>
    have hnot : ∀ k : Nat, 0x41 ≤ k → k ≤ 0x7a → isBlankPoint k = false := by
      intro k hleast hmost
      simp only [isBlankPoint, Bool.or_eq_false_iff, Bool.and_eq_false_iff, decide_eq_false_iff_not,
        beq_eq_false_iff_ne]
      omega
    rw [hnot code h.1 (by omega), hnot (code + 0x20) (by omega) (by omega)]
  · rfl

theorem isBlank_foldPiece (quoted : Bool) (p : Piece) :
    (foldPiece quoted p).isBlank = p.isBlank := by
  cases p with
  | stray byte => cases quoted <;> rfl
  | point code =>
    cases quoted with
    | true => rfl
    | false => exact isBlankPoint_lowerCode code

/-- White space opens no quote. -/
theorem quotedAfter_of_isBlank (h : p.isBlank = true) (quoted : Bool) :
    quotedAfter quoted p.code = quoted := by
  cases p with
  | stray byte => cases h
  | point code =>
    refine if_neg fun hcode => ?_
    have hcode : code = 0x22 := beq_iff_eq.mp hcode
    rw [hcode] at h
    cases h

theorem dropWhile_foldRow : ∀ (quoted : Bool) (ps : List Piece),
    (foldRow quoted ps).dropWhile Piece.isBlank = foldRow quoted (ps.dropWhile Piece.isBlank)
  | _, [] => rfl
  | quoted, p :: ps => by
    rw [foldRow, List.dropWhile_cons, List.dropWhile_cons, isBlank_foldPiece]
    split
    · next h => rw [quotedAfter_of_isBlank h, dropWhile_foldRow]
    · rfl

theorem foldRow_concat (p : Piece) : ∀ (quoted : Bool) (ps : List Piece),
    ∃ inside, foldRow quoted (ps ++ [p]) = foldRow quoted ps ++ [foldPiece inside p]
  | quoted, [] => ⟨quotedAfter quoted p.code, rfl⟩
  | quoted, q :: ps => by
    obtain ⟨inside, h⟩ := foldRow_concat p (quotedAfter quoted q.code) ps
    exact ⟨inside, congrArg (foldPiece _ q :: ·) h⟩

theorem rdropWhile_foldRow (quoted : Bool) (ps : List Piece) :
    (foldRow quoted ps).rdropWhile Piece.isBlank
      = foldRow quoted (ps.rdropWhile Piece.isBlank) := by
  -- from the end, since whether the last piece is quoted depends on all pieces before it
  induction ps using List.reverseRecOn with
  | nil => rfl
  | append_singleton ps p ih =>
    obtain ⟨inside, h⟩ := foldRow_concat p quoted ps
    rw [h, List.rdropWhile_concat, List.rdropWhile_concat, isBlank_foldPiece, ih]
    split
    · rfl
    · exact h.symm

/-- **The same pieces are cut off the ends after folding.** -/
theorem trimRow_foldRow (quoted : Bool) (ps : List Piece) :
    trimRow (foldRow quoted ps) = foldRow quoted (trimRow ps) := by
  rw [trimRow, dropWhile_foldRow, rdropWhile_foldRow, trimRow]

theorem stripComment_stripComment (t : Text) : stripComment (stripComment t) = stripComment t := by
  rw [stripComment_eq (stripComment t), pieces_stripComment, stripRow_stripRow, ← stripComment_eq]

theorem foldCase_foldCase (t : Text) : foldCase (foldCase t) = foldCase t := by
  rw [foldCase_eq (foldCase t), pieces_foldCase, foldRow_foldRow, ← foldCase_eq]

theorem stripComment_foldCase (t : Text) :
    stripComment (foldCase t) = foldCase (stripComment t) := by
  have hmark : ∀ q ∈ (none : Option Nat), q < 0x41 := by
    intro q hq
    cases hq
  rw [stripComment_eq, pieces_foldCase, stripRow_foldRow hmark, foldCase_eq, pieces_stripComment]

theorem trim_foldCase (t : Text) : trim (foldCase t) = foldCase (trim t) := by
  rw [trim_eq, pieces_foldCase, trimRow_foldRow, foldCase_eq, pieces_trim]

end

end Text

/-! ## Lines -/

/-- **A line that is already normalized reads as before.** -/
theorem Line.normalize_normalized (t : Text) :
    normalize (Text.foldCase (Text.stripComment t)) = normalize t := by
  calc Text.foldCase (Text.trim (Text.stripComment (Text.foldCase (Text.stripComment t))))
      = Text.foldCase (Text.trim (Text.foldCase (Text.stripComment t))) := by
        rw [Text.stripComment_foldCase, Text.stripComment_stripComment]
    _ = Text.foldCase (Text.foldCase (Text.trim (Text.stripComment t))) := by
        rw [Text.trim_foldCase]
    _ = Text.foldCase (Text.trim (Text.stripComment t)) := Text.foldCase_foldCase _

theorem Line.read_normalized (t : Text) (pos : Position) :
    read (Text.foldCase (Text.stripComment t)) pos = read t pos := by
  unfold read
  rw [normalize_normalized]

theorem readLinesFrom_normalized : ∀ (path : Text) (number : Int) (lines : List Text),
    readLinesFrom path number (lines.map fun t => Text.foldCase (Text.stripComment t))
      = readLinesFrom path number lines
  | _, _, [] => rfl
  | path, number, t :: lines => by
    simp only [List.map_cons, readLinesFrom, Line.read_normalized, readLinesFrom_normalized]

/-- **Normalizing twice is harmless.** Cutting off comments and folding case can each be done again,
and in either order; lines to which both were done give the tokens, the findings and the path that
the lines themselves give. -/
theorem readSource_normalized (t path : Text) (lines : List Text) :
    Text.stripComment (Text.stripComment t) = Text.stripComment t ∧
      Text.foldCase (Text.foldCase t) = Text.foldCase t ∧
      Text.stripComment (Text.foldCase t) = Text.foldCase (Text.stripComment t) ∧
      readSource path (lines.map fun line => Text.foldCase (Text.stripComment line))
        = readSource path lines :=
  ⟨Text.stripComment_stripComment t, Text.foldCase_foldCase t, Text.stripComment_foldCase t,
    readLinesFrom_normalized path 1 lines⟩

end Mcs51
