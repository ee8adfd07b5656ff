import Mcs51.Proofs.DecimalNumerals
import Mcs51.Proofs.EquateWrites
import Mcs51.Proofs.NormalizedLines
import Mcs51.Proofs.PlainText

/-!
# Character literals in a line

A character between single quotes stands for its code: a line with the literal is prepared as the
line with the number in its place, whatever the character means elsewhere in a line. The one
exception is the double quote. Comments are found by a scan that knows both kinds of quotes, so
`'"'` is a character to it; literals are looked for between double quotes, and there the one in
`'"'` ends the part in which the literal starts. So that literal is never replaced, and what follows
it is taken for a string (`Source.doubleQuote_kept`).

* `Text.trim_append_solid` — white space is cut off on both sides of a solid text
* `Source.replaceLiterals_literal` — a literal is replaced by its code
* `Source.normalize_literal`, `Source.normalize_numeral` — what remains of the two lines
* `Source.prepareLine_literal` — when the two are prepared alike
-/

namespace Mcs51

namespace Text

/-! ## Comments behind a text without quotes -/

section

variable {u : Text}

/-- What follows a semicolon outside quotes does not matter. -/
theorem stripComment_append_of_mem : ∀ {p : Text}, doubleQuote ∉ p → singleQuote ∉ p →
    ';'.toUInt8 ∈ p → stripComment (p ++ u) = stripComment p
  | b :: p, hdouble, hsingle, hmem => by
    rw [List.mem_cons, not_or] at hdouble hsingle
    rw [List.cons_append, stripComment, stripComment, stripCommentFrom, stripCommentFrom,
      nextQuote_of_ne (Ne.symm hdouble.1) (Ne.symm hsingle.1)]
    by_cases hb : b = ';'.toUInt8
    · rw [if_pos (by simp [hb]), if_pos (by simp [hb])]
    · have ih : stripCommentFrom none (p ++ u) = stripCommentFrom none p :=
        stripComment_append_of_mem hdouble.2 hsingle.2
          ((List.mem_cons.mp hmem).resolve_left (Ne.symm hb))
      rw [ih]

theorem mem_of_mem_stripComment {b : UInt8} (h : b ∈ stripComment u) : b ∈ u := by
  rw [← ofPieces_pieces u]
  rw [stripComment_eq] at h
  exact ((stripRow_isStart none (pieces u)).sublist.flatMap Piece.bytes).mem h

end

/-! ## White space around a text -/

/-- A row of ASCII bytes, of which the first and the last are not white space. -/
structure Solid (m : Text) : Prop where
  ascii : ∀ b ∈ m, b < 0x80
  first : ∃ b ∈ m.head?, isBlankPoint b.toNat = false
  last : ∃ b ∈ m.getLast?, isBlankPoint b.toNat = false

/-- The text without the white space at its start. -/
def trimStart (t : Text) : Text := ofPieces ((pieces t).dropWhile Piece.isBlank)

/-- The text without the white space at its end. -/
def trimEnd (t : Text) : Text := ofPieces ((pieces t).rdropWhile Piece.isBlank)

section

variable {b : UInt8} {m p s t : Text}

theorem mem_of_mem_trimStart (h : b ∈ trimStart t) : b ∈ t := by
  rw [← ofPieces_pieces t]
  exact ((List.dropWhile_suffix _).sublist.flatMap Piece.bytes).mem h

theorem mem_of_mem_trimEnd (h : b ∈ trimEnd t) : b ∈ t := by
  rw [← ofPieces_pieces t]
  exact ((List.rdropWhile_prefix _ _).sublist.flatMap Piece.bytes).mem h

/-- ASCII bytes are pieces of their own. -/
theorem pieces_append_ascii (p s : Text) (hm : ∀ b ∈ m, b < 0x80) (hne : m ≠ []) :
    pieces (p ++ m ++ s) = pieces p ++ pieces m ++ pieces s := by
  have hfront : ∀ {m : Text}, (∀ b ∈ m, b < 0x80) → pieces (m ++ s) = pieces m ++ pieces s := by
    intro m hm
    induction m with
    | nil => rfl
    | cons b m ih =>
      obtain ⟨hb, hm⟩ := List.forall_mem_cons.mp hm
      rw [List.cons_append, pieces_ascii hb, pieces_ascii hb, ih hm, List.cons_append]
  cases m with
  | nil => exact absurd rfl hne
  | cons b m =>
    obtain ⟨hb, hm⟩ := List.forall_mem_cons.mp hm
    rw [List.append_assoc, List.cons_append, pieces_append_cons hb, hfront hm, pieces_ascii hb,
      List.append_assoc, List.cons_append]

theorem Solid.ne_nil (h : Solid m) : m ≠ [] := by
  intro heq
  obtain ⟨b, hb, _⟩ := h.first
  rw [heq] at hb
  cases hb

theorem Solid.dropWhile (h : Solid m) (qs : List Piece) :
    (pieces m ++ qs).dropWhile Piece.isBlank = pieces m ++ qs := by
  obtain ⟨b, hb, hblank⟩ := h.first
  obtain ⟨m, rfl⟩ := List.head?_eq_some_iff.mp hb
  rw [pieces_ascii (h.ascii b List.mem_cons_self), List.cons_append,
    List.dropWhile_cons_of_neg (by simpa [Piece.isBlank] using hblank)]

theorem Solid.rdropWhile (h : Solid m) (ps : List Piece) :
    (ps ++ pieces m).rdropWhile Piece.isBlank = ps ++ pieces m := by
  obtain ⟨b, hb, hblank⟩ := h.last
  obtain ⟨m, rfl⟩ := List.getLast?_eq_some_iff.mp hb
  rw [pieces_of_ascii h.ascii, List.map_append, List.map_singleton, ← List.append_assoc,
    List.rdropWhile_concat_neg _ _ _ (by simpa [Piece.isBlank] using hblank)]

theorem dropWhile_append_of_eq {α : Type} {f : α → Bool} {xs ys : List α}
    (h : ys.dropWhile f = ys) : (xs ++ ys).dropWhile f = xs.dropWhile f ++ ys := by
  rw [List.dropWhile_append]
  split
  · next hempty => rw [List.isEmpty_iff.mp hempty, h, List.nil_append]
  · rfl

theorem rdropWhile_append_of_eq {α : Type} {f : α → Bool} {xs ys : List α}
    (h : xs.rdropWhile f = xs) : (xs ++ ys).rdropWhile f = xs ++ ys.rdropWhile f := by
  unfold List.rdropWhile at h ⊢
  have h : xs.reverse.dropWhile f = xs.reverse := List.reverse_eq_iff.mp h
  rw [List.reverse_append, dropWhile_append_of_eq h, List.reverse_append, List.reverse_reverse]

/-- **White space is cut off on both sides of a solid text.** -/
theorem trim_append_solid (hm : Solid m) (p s : Text) :
    trim (p ++ m ++ s) = trimStart p ++ m ++ trimEnd s := by
  rw [trim_eq, pieces_append_ascii p s hm.ascii hm.ne_nil, trimRow, List.append_assoc,
    dropWhile_append_of_eq (hm.dropWhile _), ← List.append_assoc,
    rdropWhile_append_of_eq (hm.rdropWhile _), ofPieces_append, ofPieces_append, ofPieces_pieces]
  rfl

theorem solid_ofNat (n : Nat) : Solid (ofNat n) := by
  obtain ⟨hne, hdigits⟩ := digits_ofNat n
  have hplain : ∀ b ∈ ofNat n, isPlain b = true := fun b hb =>
    isPlain_of_isNameByte (by rw [isNameByte, hdigits b hb, Bool.or_true])
  refine ⟨fun b hb => ascii_of_isPlain (hplain b hb), ?_, ?_⟩
  · exact ⟨(ofNat n).head hne, List.head?_eq_some_head hne,
      isBlankPoint_plain (hplain _ (List.head_mem hne))⟩
  · exact ⟨(ofNat n).getLast hne, List.getLast?_eq_some_getLast hne,
      isBlankPoint_plain (hplain _ (List.getLast_mem hne))⟩

end

/-! ## Double quotes that stay -/

section

variable {ps : List Piece} {t : Text} {b : UInt8}

theorem Row.exists_leads {p : Piece} (h : Row ps) (hp : p ∈ ps) : ∃ t, p.Leads t := by
  induction h with
  | nil => cases hp
  | cons hq _ ih =>
    rcases List.mem_cons.mp hp with rfl | hp
    · exact ⟨_, hq⟩
    · exact ih hp

/-- An ASCII byte of a row is one of its pieces. -/
theorem Row.mem_ofPieces_iff (h : Row ps) (hb : b < 0x80) :
    b ∈ ofPieces ps ↔ .point b.toNat ∈ ps := by
  rw [ofPieces, List.mem_flatMap]
  constructor
  · rintro ⟨p, hp, hmem⟩
    obtain ⟨t, hleads⟩ := h.exists_leads hp
    rcases hleads.ascii_or_wide with ⟨c, hc, rfl⟩ | ⟨_, _, hwide⟩
    · rw [Piece.bytes, encodePoint_toNat hc, List.mem_singleton] at hmem
      rwa [hmem]
    · exact absurd hb (not_lt_ascii (hwide b hmem))
  · intro hmem
    refine ⟨_, hmem, ?_⟩
    rw [Piece.bytes, encodePoint_toNat hb]
    exact List.mem_singleton_self b

theorem point_eq_iff {k : Nat} (hk : k < 0x41) {p : Piece} : .point k = p ↔ p.code = k := by
  cases p with
  | point code => rw [Piece.point.injEq, Piece.code, eq_comm]
  | stray byte =>
    constructor
    · intro h
      cases h
    · intro h
      have h : 0xfffd = k := h
      omega

theorem mem_foldRow_iff {k : Nat} (hk : k < 0x41) : ∀ {quoted : Bool} {ps : List Piece},
    .point k ∈ foldRow quoted ps ↔ .point k ∈ ps
  | _, [] => Iff.rfl
  | quoted, p :: ps => by
    have hcode := beq_foldPiece hk (quotedAfter quoted p.code) p
    rw [Bool.eq_iff_iff, beq_iff_eq, beq_iff_eq] at hcode
    rw [foldRow, List.mem_cons, List.mem_cons, point_eq_iff hk, point_eq_iff hk, hcode,
      mem_foldRow_iff hk]

/-- Folding case keeps the bytes in front of the letters. -/
theorem mem_foldCase_iff (hb : b.toNat < 0x41) : b ∈ foldCase t ↔ b ∈ t := by
  have hascii : b < 0x80 := UInt8.lt_iff_toNat_lt.mpr (Nat.lt_trans hb (by decide))
  rw [← ofPieces_pieces (foldCase t), (row_pieces _).mem_ofPieces_iff hascii, pieces_foldCase,
    mem_foldRow_iff hb, ← (row_pieces t).mem_ofPieces_iff hascii, ofPieces_pieces]

/-- What is done to the parts of a text leaves the double quotes between them. -/
theorem mem_joinParts_mapParts {α : Type} {outside inside : Text → α} (f : α → Text)
    (h : doubleQuote ∈ t) : doubleQuote ∈ joinParts ((mapParts outside inside t).map f) := by
  obtain ⟨front, rest, rfl, hfront⟩ := List.eq_append_cons_of_mem h
  obtain ⟨part, parts, hparts⟩ := splitOn_eq_cons doubleQuote rest
  rw [mapParts, splitOn_append rest hfront, hparts]
  exact List.mem_append_left _ (List.mem_append_right _ (List.mem_singleton_self _))

theorem mem_mapOutsideQuotes (f : Text → Text) (h : doubleQuote ∈ t) :
    doubleQuote ∈ mapOutsideQuotes f t := by
  have hjoined := @mem_joinParts_mapParts t Text f id id h
  rwa [List.map_id] at hjoined

end

end Text

namespace Source

open Text (Piece singleQuote doubleQuote backslash trimStart trimEnd stripComment foldCase)

/-! ## The literal of a character -/

/-- The literal of a character: the character between single quotes. -/
def characterLiteral (x : UInt8) : Text := [singleQuote, x, singleQuote]

section

variable {x : UInt8} {p s : Text}

theorem solid_characterLiteral (hx : x < 0x80) : Text.Solid (characterLiteral x) where
  ascii := by
    intro b hb
    simp only [characterLiteral, List.mem_cons, List.not_mem_nil, or_false] at hb
    rcases hb with rfl | rfl | rfl
    · decide
    · exact hx
    · decide
  first := ⟨singleQuote, rfl, by decide⟩
  last := ⟨singleQuote, rfl, by decide⟩

/-- Between single quotes nothing starts a comment. -/
theorem stripComment_literal (hquote : x ≠ singleQuote) (s : Text) :
    stripComment (characterLiteral x ++ s) = characterLiteral x ++ stripComment s := by
  have hinside : Text.nextQuote (some singleQuote) x = some singleQuote := by
    simp [Text.nextQuote, hquote]
  show singleQuote :: x :: Text.stripCommentFrom (Text.nextQuote (some singleQuote) x)
    (singleQuote :: s) = _
  rw [hinside]
  rfl

/-- The literal of an ASCII character other than the quote and the backslash is its code. -/
theorem literal?_character (hx : x < 0x80) (hquote : x ≠ singleQuote) (hback : x ≠ backslash)
    (rest : List Piece) :
    literal? (.point x.toNat :: quotePiece :: rest) = some (Text.ofNat x.toNat, 2) := by
  have hcode : (x.toNat != 0x5c) = true :=
    bne_iff_ne.mpr fun h => hback (UInt8.toNat_inj.mp h)
  have hpiece : ((Piece.point x.toNat) != quotePiece) = true :=
    bne_iff_ne.mpr fun h => hquote (UInt8.toNat_inj.mp (Piece.point.inj h))
  have hescape : ((Piece.point x.toNat) == .point 0x5c) = false :=
    beq_eq_false_iff_ne.mpr fun h => hback (UInt8.toNat_inj.mp (Piece.point.inj h))
  have htext : literalText (characterCode? (.point x.toNat)) [.point x.toNat]
      = Text.ofNat x.toNat := by
    rw [characterCode?, if_pos (by simp [hcode, Text.toNat_lt_of_ascii hx])]
    rfl
  cases rest with
  | nil => simp only [literal?, hpiece, beq_self_eq_true, Bool.and_self, if_true, htext]
  | cons q rest =>
    simp only [literal?, hescape, hpiece, beq_self_eq_true, Bool.false_and, Bool.false_eq_true,
      if_false, Bool.and_self, if_true, htext]

/-- **A literal is replaced by its code.** -/
theorem replaceLiterals_literal (hx : x < 0x80) (hquote : x ≠ singleQuote) (hback : x ≠ backslash)
    (hp : singleQuote ∉ p) (hs : singleQuote ∉ s) :
    replaceLiterals (p ++ characterLiteral x ++ s) = p ++ Text.ofNat x.toNat ++ s := by
  have hsolid := solid_characterLiteral hx
  have hpieces : Text.pieces (characterLiteral x) = [quotePiece, .point x.toNat, quotePiece] :=
    Text.pieces_of_ascii hsolid.ascii
  have hrest : replaceLiteralsFrom 0 (Text.pieces s) = s := replaceLiterals_of_not_mem hs
  have hstep : replaceLiteralsFrom 0 (quotePiece :: .point x.toNat :: quotePiece :: Text.pieces s)
      = Text.ofNat x.toNat ++ s := by
    rw [replaceLiteralsFrom, if_pos (beq_self_eq_true _), literal?_character hx hquote hback]
    exact congrArg (Text.ofNat x.toNat ++ ·) hrest
  rw [replaceLiterals, Text.pieces_append_ascii p s hsolid.ascii hsolid.ne_nil, hpieces,
    List.append_assoc, replaceLiteralsFrom_append (quotePiece_not_mem hp), Text.ofPieces_pieces,
    List.append_assoc]
  exact congrArg (p ++ ·) hstep

/-- A quote at the end of a part opens no literal. -/
theorem replaceLiterals_concat (hp : singleQuote ∉ p) :
    replaceLiterals (p ++ [singleQuote]) = p ++ [singleQuote] := by
  rw [replaceLiterals, Text.pieces_append_cons (by decide),
    replaceLiteralsFrom_append (quotePiece_not_mem hp), Text.ofPieces_pieces]
  rfl

/-- The double quote in its literal ends the part in which the literal starts. -/
theorem mapOutsideQuotes_doubleQuote (hp : singleQuote ∉ p ∧ doubleQuote ∉ p)
    (hs : doubleQuote ∉ s) :
    Text.mapOutsideQuotes replaceLiterals (p ++ characterLiteral doubleQuote ++ s)
      = p ++ characterLiteral doubleQuote ++ s := by
  have hfront : doubleQuote ∉ p ++ [singleQuote] := by
    rw [List.mem_append, List.mem_singleton, not_or]
    exact ⟨hp.2, by decide⟩
  have hrest : doubleQuote ∉ singleQuote :: s := by
    rw [List.mem_cons, not_or]
    exact ⟨by decide, hs⟩
  have hline : p ++ characterLiteral doubleQuote ++ s
      = (p ++ [singleQuote]) ++ doubleQuote :: singleQuote :: s := by
    simp [characterLiteral]
  have hexposed : Text.exposed (p ++ characterLiteral doubleQuote ++ s) = [p ++ [singleQuote]] := by
    rw [hline, Text.exposed, Text.exposedFrom, Text.splitOn_append _ hfront,
      Text.splitOn_of_not_mem hrest]
    rfl
  refine Text.mapOutsideQuotes_eq fun part hpart => ?_
  rw [hexposed, List.mem_singleton] at hpart
  rw [hpart, replaceLiterals_concat hp.1]

end

/-! ## Lines -/

section

variable {x : UInt8} {p s : Text}

/-- A line with a solid text in it, up to the step that replaces literals. -/
theorem trim_stripComment {m : Text} (hm : Text.Solid m)
    (hstrip : ∀ s, stripComment (m ++ s) = m ++ stripComment s)
    (hp : singleQuote ∉ p ∧ doubleQuote ∉ p) (hsemicolon : ';'.toUInt8 ∉ p) (s : Text) :
    Text.trim (stripComment (p ++ m ++ s)) = trimStart p ++ m ++ trimEnd (stripComment s) := by
  rw [List.append_assoc, Text.stripComment_append hp.2 hp.1 hsemicolon, hstrip, ← List.append_assoc,
    Text.trim_append_solid hm]

/-- Digits neither start a comment nor open a quote. -/
theorem stripComment_ofNat (n : Nat) (s : Text) :
    stripComment (Text.ofNat n ++ s) = Text.ofNat n ++ stripComment s := by
  have hdigits := (Text.digits_ofNat n).2
  exact Text.stripComment_append (fun h => absurd (hdigits _ h) (by decide))
    (fun h => absurd (hdigits _ h) (by decide)) (fun h => absurd (hdigits _ h) (by decide))

theorem not_mem_ends {b : UInt8} (hp : b ∉ p) (hs : b ∉ s) :
    b ∉ trimStart p ∧ b ∉ trimEnd (stripComment s) :=
  ⟨fun h => hp (Text.mem_of_mem_trimStart h),
    fun h => hs (Text.mem_of_mem_stripComment (Text.mem_of_mem_trimEnd h))⟩

theorem not_mem_numeral {b : UInt8} (hp : b ∉ p) (hs : b ∉ s) (hb : Text.isDigit b = false)
    (n : Nat) : b ∉ trimStart p ++ Text.ofNat n ++ trimEnd (stripComment s) := by
  have hends := not_mem_ends hp hs
  have hdigits : b ∉ Text.ofNat n := fun h =>
    Bool.false_ne_true (hb.symm.trans ((Text.digits_ofNat n).2 b h))
  simp only [List.mem_append, not_or]
  exact ⟨⟨hends.1, hdigits⟩, hends.2⟩

/-- The line with the number. -/
theorem normalize_numeral (hp : singleQuote ∉ p ∧ doubleQuote ∉ p)
    (hs : singleQuote ∉ s ∧ doubleQuote ∉ s) (hsemicolon : ';'.toUInt8 ∉ p) (n : Nat) :
    normalize (p ++ Text.ofNat n ++ s)
      = foldCase (trimStart p ++ Text.ofNat n ++ trimEnd (stripComment s)) := by
  rw [normalize, trim_stripComment (Text.solid_ofNat n) (stripComment_ofNat n) hp hsemicolon,
    Text.mapOutsideQuotes_of_not_mem (not_mem_numeral hp.2 hs.2 (by decide) n),
    replaceLiterals_of_not_mem (not_mem_numeral hp.1 hs.1 (by decide) n)]

/-- The line with the literal of any other character than the double quote. -/
theorem normalize_literal (hp : singleQuote ∉ p ∧ doubleQuote ∉ p)
    (hs : singleQuote ∉ s ∧ doubleQuote ∉ s) (hsemicolon : ';'.toUInt8 ∉ p) (hx : x < 0x80)
    (hquote : x ≠ singleQuote) (hback : x ≠ backslash) (hdouble : x ≠ doubleQuote) :
    normalize (p ++ characterLiteral x ++ s)
      = foldCase (trimStart p ++ Text.ofNat x.toNat ++ trimEnd (stripComment s)) := by
  have hsingles := not_mem_ends hp.1 hs.1
  have hdoubles := not_mem_ends hp.2 hs.2
  have hnone : doubleQuote ∉ trimStart p ++ characterLiteral x ++ trimEnd (stripComment s) := by
    simp only [characterLiteral, List.mem_append, List.mem_cons, List.not_mem_nil, not_or, or_false]
    exact ⟨⟨hdoubles.1, by decide, Ne.symm hdouble, by decide⟩, hdoubles.2⟩
  rw [normalize, trim_stripComment (solid_characterLiteral hx) (stripComment_literal hquote) hp
      hsemicolon, Text.mapOutsideQuotes_of_not_mem hnone,
    replaceLiterals_literal hx hquote hback hsingles.1 hsingles.2]

/-- The line with the literal of the double quote: it stays. -/
theorem normalize_doubleQuote (hp : singleQuote ∉ p ∧ doubleQuote ∉ p)
    (hs : singleQuote ∉ s ∧ doubleQuote ∉ s) (hsemicolon : ';'.toUInt8 ∉ p) :
    normalize (p ++ characterLiteral doubleQuote ++ s)
      = foldCase (trimStart p ++ characterLiteral doubleQuote ++ trimEnd (stripComment s)) := by
  have hsingles := not_mem_ends hp.1 hs.1
  have hdoubles := not_mem_ends hp.2 hs.2
  rw [normalize, trim_stripComment (solid_characterLiteral (by decide))
      (stripComment_literal (by decide)) hp hsemicolon,
    mapOutsideQuotes_doubleQuote ⟨hsingles.1, hdoubles.1⟩ hdoubles.2]

theorem doubleQuote_mem_literal (hp : singleQuote ∉ p ∧ doubleQuote ∉ p)
    (hs : singleQuote ∉ s ∧ doubleQuote ∉ s) (hsemicolon : ';'.toUInt8 ∉ p) :
    doubleQuote ∈ normalize (p ++ characterLiteral doubleQuote ++ s) := by
  rw [normalize_doubleQuote hp hs hsemicolon, Text.mem_foldCase_iff (by decide)]
  simp [characterLiteral]

theorem doubleQuote_not_mem_numeral (hp : singleQuote ∉ p ∧ doubleQuote ∉ p)
    (hs : singleQuote ∉ s ∧ doubleQuote ∉ s) (hsemicolon : ';'.toUInt8 ∉ p) (n : Nat) :
    doubleQuote ∉ normalize (p ++ Text.ofNat n ++ s) := by
  rw [normalize_numeral hp hs hsemicolon, Text.mem_foldCase_iff (by decide)]
  exact not_mem_numeral hp.2 hs.2 (by decide) n

/-- In a comment neither the literal nor the number matters. -/
theorem normalize_append_of_mem (hp : singleQuote ∉ p ∧ doubleQuote ∉ p)
    (hsemicolon : ';'.toUInt8 ∈ p) (m s : Text) : normalize (p ++ m ++ s) = normalize p := by
  rw [normalize, List.append_assoc, Text.stripComment_append_of_mem hp.2 hp.1 hsemicolon, normalize]

theorem doubleQuote_mem_expand {t : Text} (h : doubleQuote ∈ t) (evaluate : Expression.Evaluator)
    (bound : Expression.Bindings) (pos : Position) :
    doubleQuote ∈ (expand evaluate bound pos t).text := by
  unfold expand
  exact Text.mem_joinParts_mapParts Expanded.text h

theorem doubleQuote_mem_substitute {t : Text} (h : doubleQuote ∈ t) (e : Equates) :
    doubleQuote ∈ e.substitute t := Text.mem_mapOutsideQuotes _ h

/-- A double quote in a line is still in the prepared line, unless that is blank. -/
theorem doubleQuote_mem_prepareLine {line : Text} (h : doubleQuote ∈ normalize line)
    (evaluate : Expression.Evaluator) (e : Equates) (pos : Position) :
    (prepareLine evaluate e line pos).text = [] ∨
      doubleQuote ∈ (prepareLine evaluate e line pos).text := by
  by_cases hfindings : (expanded evaluate e line pos).findings = []
  · cases hdefine : (e.atLine pos.line).define? (expanded evaluate e line pos).text pos with
    | some defined =>
      rw [prepareLine_of_define? hfindings hdefine]
      exact .inl rfl
    | none =>
      have hexpanded : doubleQuote ∈ (expanded evaluate e line pos).text :=
        doubleQuote_mem_expand h evaluate _ pos
      have htext : (prepareLine evaluate e line pos).text
          = (e.atLine pos.line).substitute (expanded evaluate e line pos).text := by
        rw [prepareLine_of_define?_eq_none hfindings hdefine]
      rw [htext]
      exact .inr (doubleQuote_mem_substitute hexpanded _)
  · rw [prepareLine_of_not_evaluated hfindings]
    exact .inl rfl

theorem prepareLine_congr {line line' : Text} (h : normalize line = normalize line')
    (evaluate : Expression.Evaluator) (e : Equates) (pos : Position) :
    prepareLine evaluate e line pos = prepareLine evaluate e line' pos := by
  unfold prepareLine
  rw [h]

/-- **A character literal stands for its code, unless it is the literal of the double quote.** For
texts `p` and `s` without quotes, the line with the literal between them is prepared as the line
with the number, under all equates, if the character is not the double quote or the literal is in a
comment. Only then are the two lines the same once literals are replaced: the literal of the double
quote stays, and its double quote is in the prepared line unless that is blank. -/
theorem prepareLine_literal (hp : singleQuote ∉ p ∧ doubleQuote ∉ p)
    (hs : singleQuote ∉ s ∧ doubleQuote ∉ s) (hx : x < 0x80) (hquote : x ≠ singleQuote)
    (hback : x ≠ backslash) (evaluate : Expression.Evaluator) (e : Equates) (pos : Position) :
    (x ≠ doubleQuote ∨ ';'.toUInt8 ∈ p →
        prepareLine evaluate e (p ++ characterLiteral x ++ s) pos
          = prepareLine evaluate e (p ++ Text.ofNat x.toNat ++ s) pos) ∧
      (normalize (p ++ characterLiteral x ++ s) = normalize (p ++ Text.ofNat x.toNat ++ s) ↔
        x ≠ doubleQuote ∨ ';'.toUInt8 ∈ p) ∧
      (x = doubleQuote → ';'.toUInt8 ∉ p →
        normalize (p ++ characterLiteral x ++ s)
          = foldCase (trimStart p ++ characterLiteral x ++ trimEnd (stripComment s)) ∧
        ((prepareLine evaluate e (p ++ characterLiteral x ++ s) pos).text = [] ∨
          doubleQuote ∈ (prepareLine evaluate e (p ++ characterLiteral x ++ s) pos).text)) := by
  have halike : x ≠ doubleQuote ∨ ';'.toUInt8 ∈ p →
      normalize (p ++ characterLiteral x ++ s) = normalize (p ++ Text.ofNat x.toNat ++ s) := by
    intro h
    by_cases hsemicolon : ';'.toUInt8 ∈ p
    · rw [normalize_append_of_mem hp hsemicolon, normalize_append_of_mem hp hsemicolon]
    · rw [normalize_literal hp hs hsemicolon hx hquote hback (h.resolve_right hsemicolon),
        normalize_numeral hp hs hsemicolon]
  refine ⟨fun h => prepareLine_congr (halike h) evaluate e pos, ⟨?_, halike⟩, ?_⟩
  · -- one of the lines has a double quote, the other has none
    intro hsame
    by_contra hnot
    rw [not_or, not_not] at hnot
    obtain ⟨rfl, hsemicolon⟩ := hnot
    have hkept := doubleQuote_mem_literal hp hs hsemicolon
    rw [hsame] at hkept
    exact doubleQuote_not_mem_numeral hp hs hsemicolon _ hkept
  · rintro rfl hsemicolon
    exact ⟨normalize_doubleQuote hp hs hsemicolon,
      doubleQuote_mem_prepareLine (doubleQuote_mem_literal hp hs hsemicolon) evaluate e pos⟩

end

/-- The semicolon in its literal starts no comment. -/
theorem prepareLine_literal_semicolon :
    let p := Text.ofString " mov a, #"
    let s := Text.ofString " ; End"
    let x := ';'.toUInt8
    (singleQuote ∉ p ∧ doubleQuote ∉ p) ∧ (singleQuote ∉ s ∧ doubleQuote ∉ s) ∧ x < 0x80 ∧
      x ≠ singleQuote ∧ x ≠ backslash ∧ x ≠ doubleQuote ∧
      prepareLine Expression.evaluate {} (p ++ characterLiteral x ++ s) ⟨[], 1⟩
        = prepareLine Expression.evaluate {} (p ++ Text.ofNat 59 ++ s) ⟨[], 1⟩ := by
  intro p s x
  have hp : singleQuote ∉ p ∧ doubleQuote ∉ p := by decide
  have hs : singleQuote ∉ s ∧ doubleQuote ∉ s := by decide
  exact ⟨hp, hs, by decide, by decide, by decide, by decide,
    (prepareLine_literal hp hs (by decide) (by decide) (by decide) Expression.evaluate {}
      ⟨[], 1⟩).1 (.inl (by decide))⟩

/-- The literal of the double quote is not replaced by its code. -/
theorem doubleQuote_kept :
    let p := Text.ofString "mov a, #"
    let withLiteral := prepareLine Expression.evaluate {} (p ++ characterLiteral doubleQuote ++ [])
    let withNumber := prepareLine Expression.evaluate {} (p ++ Text.ofNat doubleQuote.toNat ++ [])
    (singleQuote ∉ p ∧ doubleQuote ∉ p) ∧ withLiteral ⟨[], 1⟩ ≠ withNumber ⟨[], 1⟩ ∧
      (withLiteral ⟨[], 1⟩).text = p ++ characterLiteral doubleQuote ∧
      (withNumber ⟨[], 1⟩).text = p ++ Text.ofString "34" :=
  ⟨by decide, by decide +kernel, by decide +kernel, by decide +kernel⟩

end Source
end Mcs51
