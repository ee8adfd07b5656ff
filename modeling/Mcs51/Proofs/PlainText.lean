import Mcs51.Proofs.NegatedBits
import Mcs51.Proofs.StringData

/-!
# Plain text

A text of printing ASCII bytes without quotes and semicolons is one word, and the scans of a line
leave it as it is, but for its capital letters.

* `Text.trim_plain`, `Text.wordsOf_plain`: a plain text has no white space
* `Line.normalize_plain`, `Source.normalize_plain`: what becomes of it in a line
* `Equates.define?_plain`: a plain text defines no name
* `Source.read_plainString`: a string of plain text is data as it stands
-/

namespace Mcs51

namespace Text

/-! ## Bytes -/

/-- A printing ASCII byte that opens no quote and no comment. -/
def isPlain (b : UInt8) : Bool :=
  0x21 ≤ b && b ≤ 0x7e && b != doubleQuote && b != singleQuote && b != ';'.toUInt8

section

variable {b : UInt8} {t : Text}

theorem ascii_of_isPlain (h : isPlain b = true) : b < 0x80 := by
  revert h
  exact forall_byte (p := fun b => isPlain b = true → b < 0x80) (by decide +kernel) b

theorem isBlankPoint_plain (h : isPlain b = true) : isBlankPoint b.toNat = false := by
  revert h
  exact forall_byte (p := fun b => isPlain b = true → isBlankPoint b.toNat = false)
    (by decide +kernel) b

theorem isPlain_of_isNameByte (h : isNameByte b = true) : isPlain b = true := by
  revert h
  exact forall_byte (p := fun b => isNameByte b = true → isPlain b = true) (by decide +kernel) b

/-- A byte of names is no capital letter. -/
theorem lowerByte_of_isNameByte (h : isNameByte b = true) : lowerByte b = b := by
  revert h
  exact forall_byte (p := fun b => isNameByte b = true → lowerByte b = b) (by decide +kernel) b

/-- A byte that is not plain does not stand in a plain text. -/
theorem not_mem_plain (hb : isPlain b = false) (h : ∀ c ∈ t, isPlain c = true) : b ∉ t := by
  intro hmem
  have hplain := h b hmem
  rw [hb] at hplain
  cases hplain

/-! ## White space -/

theorem pieces_of_ascii : ∀ {t : Text}, (∀ b ∈ t, b < 0x80) →
    pieces t = t.map fun b => .point b.toNat
  | [], _ => rfl
  | b :: t, h => by
    obtain ⟨hb, ht⟩ := List.forall_mem_cons.mp h
    rw [pieces_ascii hb, pieces_of_ascii ht, List.map_cons]

theorem isBlank_pieces_plain (h : ∀ b ∈ t, isPlain b = true) :
    ∀ p ∈ pieces t, p.isBlank = false := by
  rw [pieces_of_ascii fun b hb => ascii_of_isPlain (h b hb)]
  intro p hp
  obtain ⟨b, hb, rfl⟩ := List.mem_map.mp hp
  exact isBlankPoint_plain (h b hb)

theorem dropWhile_isBlank {ps : List Piece} (h : ∀ p ∈ ps, p.isBlank = false) :
    ps.dropWhile Piece.isBlank = ps := by
  cases ps with
  | nil => rfl
  | cons p ps => rw [List.dropWhile_cons_of_neg (by simp [h p List.mem_cons_self])]

theorem trim_plain (h : ∀ b ∈ t, isPlain b = true) : trim t = t := by
  have hblank := isBlank_pieces_plain h
  rw [trim, dropWhile_isBlank hblank,
    dropWhile_isBlank fun p hp => hblank p (List.mem_reverse.mp hp), List.reverse_reverse,
    ofPieces_pieces]

/-- Without white space, the open word goes on to the end. -/
theorem wordsFrom_of_not_blank : ∀ {ps word : List Piece}, (∀ p ∈ ps, p.isBlank = false) →
    word ≠ [] → wordsFrom word ps = [ofPieces (word.reverse ++ ps)]
  | [], word, _, hword => by
    rw [wordsFrom, if_neg (by simpa using hword), List.append_nil]
  | p :: ps, word, h, _ => by
    obtain ⟨hp, hps⟩ := List.forall_mem_cons.mp h
    rw [wordsFrom, hp, if_neg (by decide), wordsFrom_of_not_blank hps (List.cons_ne_nil p word),
      List.reverse_cons, List.append_assoc]
    rfl

/-- **A plain text is one word.** -/
theorem wordsOf_plain (hne : t ≠ []) (h : ∀ b ∈ t, isPlain b = true) : wordsOf t = [t] := by
  have hblank := isBlank_pieces_plain h
  have hbytes := ofPieces_pieces t
  unfold wordsOf
  cases hps : pieces t with
  | nil =>
    rw [hps] at hbytes
    exact absurd hbytes.symm hne
  | cons p ps =>
    rw [hps] at hblank hbytes
    obtain ⟨hp, hps⟩ := List.forall_mem_cons.mp hblank
    rw [wordsFrom, hp, if_neg (by decide), wordsFrom_of_not_blank hps (List.cons_ne_nil p []),
      List.reverse_singleton, List.singleton_append, hbytes]

/-! ## Quotes and case -/

theorem nextQuote_of_ne (hdouble : b ≠ doubleQuote) (hsingle : b ≠ singleQuote) :
    nextQuote none b = none := by
  simp [nextQuote, hdouble, hsingle]

/-- Where no quote is opened, a line goes on to its first semicolon. -/
theorem stripComment_append {u : Text} : ∀ {t : Text}, doubleQuote ∉ t → singleQuote ∉ t →
    ';'.toUInt8 ∉ t → stripComment (t ++ u) = t ++ stripComment u
  | [], _, _, _ => rfl
  | b :: t, hdouble, hsingle, hsemicolon => by
    rw [List.mem_cons, not_or] at hdouble hsingle hsemicolon
    have ih : stripCommentFrom none (t ++ u) = t ++ stripComment u :=
      stripComment_append hdouble.2 hsingle.2 hsemicolon.2
    rw [List.cons_append, stripComment, stripCommentFrom,
      nextQuote_of_ne (Ne.symm hdouble.1) (Ne.symm hsingle.1), ih,
      beq_eq_false_iff_ne.mpr (Ne.symm hsemicolon.1), Bool.and_false]
    rfl

theorem stripComment_plain (h : ∀ b ∈ t, isPlain b = true) : stripComment t = t := by
  have happend := @stripComment_append [] t (not_mem_plain (by decide) h)
    (not_mem_plain (by decide) h) (not_mem_plain (by decide) h)
  have hnil : stripComment [] = [] := rfl
  rwa [hnil, List.append_nil] at happend

theorem encoded_of_ascii : ∀ {t : Text}, (∀ b ∈ t, b < 0x80) → Encoded t
  | [], _ => .nil
  | b :: t, h => by
    obtain ⟨hb, ht⟩ := List.forall_mem_cons.mp h
    exact .ascii hb (encoded_of_ascii ht)

theorem lowerUnquoted_of_not_mem : ∀ {t : Text}, doubleQuote ∉ t →
    lowerUnquoted false t = t.map lowerByte
  | [], _ => rfl
  | b :: t, h => by
    rw [List.mem_cons, not_or] at h
    have hb : (b == doubleQuote) = false := beq_eq_false_iff_ne.mpr (Ne.symm h.1)
    unfold lowerUnquoted
    simp only [hb, Bool.false_eq_true, if_false, lowerUnquoted_of_not_mem h.2, List.map_cons]

theorem foldCase_plain (h : ∀ b ∈ t, isPlain b = true) : foldCase t = t.map lowerByte := by
  have hencoded : Encoded t := encoded_of_ascii fun b hb => ascii_of_isPlain (h b hb)
  rw [foldCase, hencoded.scrub_eq, lowerUnquoted_of_not_mem (not_mem_plain (by decide) h)]

theorem mapParts_of_not_mem {α : Type} {outside inside : Text → α} (h : doubleQuote ∉ t) :
    mapParts outside inside t = [outside t] := by
  rw [mapParts, splitOn_of_not_mem h]
  rfl

/-- A text without double quotes is outside them. -/
theorem mapOutsideQuotes_of_not_mem {f : Text → Text} (h : doubleQuote ∉ t) :
    mapOutsideQuotes f t = f t := by
  rw [mapOutsideQuotes, mapParts_of_not_mem h]
  rfl

/-- Without quotes, backslashes and line feeds, the contents of a literal are its bytes. -/
theorem literalBody?_concat : ∀ {body : Text},
    (∀ b ∈ body, b ≠ doubleQuote ∧ b ≠ lineFeed ∧ b ≠ backslash) →
      literalBody? (body ++ [doubleQuote]) = some body
  | [], _ => by
    rw [List.nil_append, literalBody?]
    rfl
  | b :: body, h => by
    obtain ⟨⟨hquote, hline, hback⟩, hbody⟩ := List.forall_mem_cons.mp h
    rw [List.cons_append, literalBody?.eq_def]
    simp only [beq_eq_false_iff_ne.mpr hquote, beq_eq_false_iff_ne.mpr hline,
      bne_iff_ne.mpr hback, Bool.false_eq_true, if_false, if_true, literalBody?_concat hbody]
    rfl

theorem map_lowerByte_of_isNameByte (h : ∀ b ∈ t, isNameByte b = true) : t.map lowerByte = t :=
  (List.map_congr_left fun b hb => lowerByte_of_isNameByte (h b hb)).trans (List.map_id t)

end

end Text

/-! ## Lines -/

section

variable {t : Text}

theorem Line.normalize_plain (h : ∀ b ∈ t, Text.isPlain b = true) :
    normalize t = t.map Text.lowerByte := by
  rw [normalize, Text.stripComment_plain h, Text.trim_plain h, Text.foldCase_plain h]

theorem Source.normalize_plain (h : ∀ b ∈ t, Text.isPlain b = true) :
    normalize t = t.map Text.lowerByte := by
  rw [normalize, Text.stripComment_plain h, Text.trim_plain h,
    Text.mapOutsideQuotes_of_not_mem (Text.not_mem_plain (by decide) h),
    replaceLiterals_of_not_mem (Text.not_mem_plain (by decide) h), Text.foldCase_plain h]

/-- A single word defines no name, unless it is the word that starts definitions. -/
theorem Equates.define?_plain (e : Equates) (hne : t ≠ []) (h : ∀ b ∈ t, Text.isPlain b = true)
    (hequ : t ≠ Text.ofString ".equ") (pos : Position) : e.define? t pos = none := by
  have hfirst : (t == Text.ofString ".equ") = false := beq_eq_false_iff_ne.mpr hequ
  rw [define?, Text.wordsOf_plain hne h]
  simp only [Line.ofWords?, hfirst, Bool.false_eq_true, if_false, Option.map_none]

/-- **A string of plain text is data as it stands**, if it has no escapes. -/
theorem Source.read_plainString {body : Text}
    (h : ∀ b ∈ body, Text.isPlain b = true ∧ b ≠ Text.backslash) (pos : Position) :
    Line.read (stringLine (Text.doubleQuote :: body ++ [Text.doubleQuote])) pos
      = { tokens := [.directive { kind := .db, position := pos, data := body }] } := by
  have hplain : ∀ b ∈ body, Text.isPlain b = true := fun b hb => (h b hb).1
  have hquote : Text.doubleQuote ∉ body := Text.not_mem_plain (by decide) hplain
  have hline : Text.lineFeed ∉ body := Text.not_mem_plain (by decide) hplain
  generalize hq : Text.doubleQuote :: body ++ [Text.doubleQuote] = q
  have hmem : ∀ b ∈ q, b = Text.doubleQuote ∨ b ∈ body := by
    intro b hb
    simpa [← hq, or_comm] using hb
  have hencoded : Text.Encoded q := by
    refine Text.encoded_of_ascii fun b hb => ?_
    rcases hmem b hb with rfl | hb
    · decide
    · exact Text.ascii_of_isPlain (hplain b hb)
  have hunbroken : Text.lineFeed ∉ q := fun hb =>
    (hmem _ hb).elim (fun heq => absurd heq (by decide)) hline
  have hliteral : Literal {} q := by
    subst hq
    exact ⟨hencoded, ⟨_, rfl⟩, List.getLast?_concat, hunbroken,
      inert_of_unescaped {} hquote hencoded, rfl⟩
  have hdata : Text.unquote? q = some body := by
    rw [Text.unquote?, hencoded.scrub_eq, ← hq]
    refine Text.literalBody?_concat fun b hb => ⟨?_, ?_, (h b hb).2⟩
    · exact fun heq => hquote (heq ▸ hb)
    · exact fun heq => hline (heq ▸ hb)
  rw [← Line.read_normalized, hliteral.stripComment_line, hliteral.foldCase_line,
    hliteral.read_eq hdata]

end

end Mcs51
