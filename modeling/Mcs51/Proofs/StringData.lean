import Mcs51.Source
import Mcs51.Proofs.NormalizedLines
import Mcs51.Proofs.SourceData

/-!
# Strings in a source

What becomes of a string literal on its way from a source line to the data of a directive. The scans
of a line take every double quote for the start or the end of a string, also one that a backslash
escapes. So what stands behind an odd number of escaped quotes is exposed to them: it loses its
upper case, and may be cut, replaced or split (`Source.exposed_letter`). A literal in which each of
the scans, on its own, finds nothing to do arrives with its contents; that is every literal without
an escaped quote.

* `Text.exposed` — the parts of a text that the scans take to be outside strings
* `Source.Inert` — no scan and no equate does anything to the contents of a literal
* `Source.inert_of_parts` — a literal is inert if no scan looks for a byte of its exposed parts
* `Source.inert_of_unescaped` — a literal without an escaped quote is inert
* `Source.readSource_string` — an inert literal is the data of its directive
-/

namespace Mcs51

namespace Text

/-! ## Parts outside quotes -/

/-- Of parts that are in turn outside and inside, those outside; `isOutside` says which comes
first. -/
def outsideParts : Bool → List Text → List Text
  | _, [] => []
  | true, part :: parts => part :: outsideParts false parts
  | false, _ :: parts => outsideParts true parts

/-- `exposed` for a text that starts outside or inside a string. -/
def exposedFrom (isOutside : Bool) (t : Text) : List Text :=
  outsideParts isOutside (splitOn doubleQuote t)

/-- The parts of a text that its double quotes leave outside, whether they are escaped or not. -/
def exposed (t : Text) : List Text := exposedFrom true t

theorem splitOn_eq_cons (sep : UInt8) (t : Text) : ∃ part parts, splitOn sep t = part :: parts := by
  cases t with
  | nil => exact ⟨_, _, rfl⟩
  | cons b t =>
    unfold splitOn
    split
    · exact ⟨_, _, rfl⟩
    · split <;> exact ⟨_, _, rfl⟩

theorem splitOn_cons_of_ne {sep b : UInt8} (hb : b ≠ sep) {t part : Text} {parts : List Text}
    (ht : splitOn sep t = part :: parts) : splitOn sep (b :: t) = (b :: part) :: parts := by
  rw [splitOn, if_neg (by simpa using hb), ht]

theorem splitOn_of_not_mem {sep : UInt8} : ∀ {t : Text}, sep ∉ t → splitOn sep t = [t]
  | [], _ => rfl
  | b :: t, h => by
    rw [List.mem_cons, not_or] at h
    exact splitOn_cons_of_ne (Ne.symm h.1) (splitOn_of_not_mem h.2)

theorem splitOn_append {sep : UInt8} (t : Text) : ∀ {front : Text}, sep ∉ front →
    splitOn sep (front ++ sep :: t) = front :: splitOn sep t
  | [], _ => by rw [List.nil_append, splitOn, if_pos (beq_self_eq_true sep)]
  | b :: front, h => by
    rw [List.mem_cons, not_or] at h
    exact splitOn_cons_of_ne (Ne.symm h.1) (splitOn_append t h.2)

theorem joinWith_splitOn (sep : UInt8) : ∀ t : Text, joinWith [sep] (splitOn sep t) = t
  | [] => rfl
  | b :: t => by
    have ih := joinWith_splitOn sep t
    obtain ⟨part, parts, ht⟩ := splitOn_eq_cons sep t
    rw [ht] at ih
    by_cases hb : b = sep
    · subst hb
      rw [splitOn, if_pos (beq_self_eq_true b), ht, joinWith, ih]
      · rfl
      · exact List.cons_ne_nil _ _
    · rw [splitOn_cons_of_ne hb ht]
      cases parts with
      | nil => exact congrArg (b :: ·) ih
      | cons next parts => exact congrArg (b :: ·) ih

theorem joinWith_cons (sep : UInt8) (part : Text) (parts : List Text) :
    joinWith [sep] (part :: parts) = part ++ parts.flatMap (sep :: ·) := by
  induction parts generalizing part with
  | nil => exact (List.append_nil part).symm
  | cons next parts ih =>
    rw [joinWith, ih, List.flatMap_cons]
    · exact List.append_assoc part [sep] _
    · exact List.cons_ne_nil _ _

/-- What leaves the outside parts alone leaves all parts alone. -/
theorem alternate_eq_map {α : Type} {outside inside g : Text → α}
    (hin : ∀ part, inside part = g part) :
    ∀ {isOutside : Bool} {parts : List Text},
      (∀ part ∈ outsideParts isOutside parts, outside part = g part) →
      alternate outside inside isOutside parts = parts.map g
  | _, [], _ => rfl
  | true, part :: parts, h => by
    have ih := alternate_eq_map hin fun p hp => h p (List.mem_cons_of_mem part hp)
    rw [alternate, if_pos rfl, h part List.mem_cons_self, Bool.not_true, ih, List.map_cons]
  | false, part :: parts, h => by
    have ih := @alternate_eq_map α outside inside g hin true parts h
    rw [alternate, if_neg (by decide), hin, Bool.not_false, ih, List.map_cons]

theorem mapOutsideQuotes_eq {f : Text → Text} {t : Text} (h : ∀ part ∈ exposed t, f part = part) :
    mapOutsideQuotes f t = t := by
  have hparts : mapParts f id t = (splitOn doubleQuote t).map id :=
    alternate_eq_map (fun _ => rfl) h
  rw [mapOutsideQuotes, hparts, List.map_id, joinParts, joinWith_splitOn]

/-! ## Bytes outside quotes -/

/-- Every exposed byte of the text has the property. -/
def ExposesOnly (P : UInt8 → Prop) (isOutside : Bool) (t : Text) : Prop :=
  ∀ part ∈ exposedFrom isOutside t, ∀ b ∈ part, P b

section

variable {P : UInt8 → Prop} {isOutside : Bool} {b : UInt8} {t : Text}

theorem ExposesOnly.quote (h : ExposesOnly P isOutside (doubleQuote :: t)) :
    ExposesOnly P (!isOutside) t := by
  cases isOutside with
  | true => exact fun part hpart => h part (List.mem_cons_of_mem _ hpart)
  | false => exact h

theorem ExposesOnly.tail (hb : b ≠ doubleQuote) (h : ExposesOnly P isOutside (b :: t)) :
    (isOutside = true → P b) ∧ ExposesOnly P isOutside t := by
  obtain ⟨part, parts, ht⟩ := splitOn_eq_cons doubleQuote t
  unfold ExposesOnly exposedFrom at h ⊢
  rw [splitOn_cons_of_ne hb ht] at h
  rw [ht]
  cases isOutside with
  | true =>
    obtain ⟨hfirst, hrest⟩ := List.forall_mem_cons.mp h
    obtain ⟨hP, hpart⟩ := List.forall_mem_cons.mp hfirst
    exact ⟨fun _ => hP, List.forall_mem_cons.mpr ⟨hpart, hrest⟩⟩
  | false => exact ⟨fun hfalse => absurd hfalse (by decide), h⟩

end

/-- A byte that means nothing to the scans: no comment, comma, quote of a character or start of an
expression, and no upper-case letter. -/
def isCalm (b : UInt8) : Bool :=
  !(b == ';'.toUInt8 || b == ','.toUInt8 || b == singleQuote || b == '$'.toUInt8 || isUpper b)

/-- The quote that is open outside or inside a string. -/
def openQuote (isOutside : Bool) : OpenQuote := if isOutside then none else some doubleQuote

section

variable {isOutside : Bool} {b : UInt8} {t : Text}

theorem nextQuote_quote (isOutside : Bool) :
    nextQuote (openQuote isOutside) doubleQuote = openQuote (!isOutside) := by
  cases isOutside <;> rfl

theorem nextQuote_calm (hb : b ≠ doubleQuote) (hcalm : isOutside = true → isCalm b = true) :
    nextQuote (openQuote isOutside) b = openQuote isOutside := by
  cases isOutside with
  | true =>
    have hcalm := hcalm rfl
    simp only [isCalm, Bool.not_eq_true', Bool.or_eq_false_iff] at hcalm
    simp [nextQuote, openQuote, hb, hcalm]
  | false => simp [nextQuote, openQuote, hb]

/-- A calm byte is no separator outside a string. -/
theorem not_separator {sep : UInt8} (hsep : isCalm sep = false)
    (hcalm : isOutside = true → isCalm b = true) :
    ((openQuote isOutside).isNone && b == sep) = false := by
  cases isOutside with
  | true =>
    have hne : b ≠ sep := fun heq => absurd (hcalm rfl) (by rw [heq, hsep]; decide)
    exact beq_eq_false_iff_ne.mpr hne
  | false => rfl

/-- One step of a scan over text with calm bytes outside strings: no separator is met, and a quote
that is open, or none, stays open but for a double quote. -/
theorem ExposesOnly.scan (h : ExposesOnly (isCalm · = true) isOutside (b :: t)) :
    ∃ isNext, nextQuote (openQuote isOutside) b = openQuote isNext ∧
      ExposesOnly (isCalm · = true) isNext t ∧
      ∀ sep, isCalm sep = false → ((openQuote isOutside).isNone && b == sep) = false := by
  by_cases hb : b = doubleQuote
  · subst hb
    exact ⟨!isOutside, nextQuote_quote isOutside, h.quote,
      fun _ hsep => not_separator hsep fun _ => rfl⟩
  · obtain ⟨hcalm, htail⟩ := h.tail hb
    exact ⟨isOutside, nextQuote_calm hb hcalm, htail, fun _ hsep => not_separator hsep hcalm⟩

theorem stripCommentFrom_calm : ∀ {t : Text} {isOutside : Bool},
    ExposesOnly (isCalm · = true) isOutside t → stripCommentFrom (openQuote isOutside) t = t
  | [], _, _ => rfl
  | b :: t, isOutside, h => by
    obtain ⟨isNext, hnext, htail, hsep⟩ := h.scan
    rw [stripCommentFrom, hsep _ rfl, hnext, stripCommentFrom_calm htail]
    rfl

theorem splitCommasFrom_calm : ∀ {t : Text} {isOutside : Bool},
    ExposesOnly (isCalm · = true) isOutside t → splitCommasFrom (openQuote isOutside) t = [t]
  | [], _, _ => rfl
  | b :: t, isOutside, h => by
    obtain ⟨isNext, hnext, htail, hsep⟩ := h.scan
    rw [splitCommasFrom, hsep _ rfl, hnext, splitCommasFrom_calm htail]
    rfl

theorem lowerByte_calm (h : isCalm b = true) : lowerByte b = b := by
  simp only [isCalm, Bool.not_eq_true', Bool.or_eq_false_iff] at h
  rw [lowerByte, h.2]
  rfl

theorem lowerUnquoted_calm : ∀ {t : Text} {isOutside : Bool},
    ExposesOnly (isCalm · = true) isOutside t → lowerUnquoted (!isOutside) t = t
  | [], _, _ => rfl
  | b :: t, isOutside, h => by
    unfold lowerUnquoted
    by_cases hb : b = doubleQuote
    · subst hb
      have ih := lowerUnquoted_calm h.quote
      simp only [beq_self_eq_true, if_true, ih]
      cases isOutside <;> rfl
    · obtain ⟨hcalm, htail⟩ := h.tail hb
      have ih := lowerUnquoted_calm htail
      simp only [beq_eq_false_iff_ne.mpr hb, Bool.false_eq_true, if_false, ih]
      cases isOutside with
      | true => exact congrArg (· :: t) (lowerByte_calm (hcalm rfl))
      | false => rfl

/-- Folding case makes no line feed. -/
theorem lineFeed_not_mem_lowerUnquoted : ∀ {t : Text} {quoted : Bool}, lineFeed ∉ t →
    lineFeed ∉ lowerUnquoted quoted t
  | [], _, _ => List.not_mem_nil
  | b :: t, quoted, h => by
    rw [List.mem_cons, not_or] at h
    have hlower : lineFeed = lowerByte b → lineFeed = b :=
      forall_byte (p := fun b => lineFeed = lowerByte b → lineFeed = b) (by decide +kernel) b
    have hfirst : ∀ inside : Bool, lineFeed ≠ if inside then b else lowerByte b
      | true => h.1
      | false => fun heq => h.1 (hlower heq)
    rw [lowerUnquoted, List.mem_cons, not_or]
    exact ⟨hfirst _, lineFeed_not_mem_lowerUnquoted h.2⟩

theorem stripComment_calm (h : ExposesOnly (isCalm · = true) true t) : stripComment t = t :=
  stripCommentFrom_calm h

theorem foldCase_calm (hencoded : Encoded t) (h : ExposesOnly (isCalm · = true) true t) :
    foldCase t = t := by
  rw [foldCase, hencoded.scrub_eq]
  exact lowerUnquoted_calm h

end

/-! ## Ends and words of a text -/

/-- A piece with a double quote in it is that quote. -/
theorem isBlank_of_mem_bytes {p : Piece} (hscalar : isScalar p.code = true)
    (h : doubleQuote ∈ p.bytes) : p.isBlank = false := by
  cases p with
  | stray byte => rfl
  | point code =>
    by_cases hascii : code < 0x80
    · rw [Piece.bytes, encodePoint_ascii hascii, List.mem_singleton] at h
      have hcode : code = 0x22 := by
        rw [← toNat_toUInt8 (n := code) (by omega), ← h]
        rfl
      rw [hcode]
      rfl
    · have hle := le_of_mem_encodePoint (Nat.not_lt.mp hascii) hscalar _ h
      exact absurd hle (by decide)

/-- A text that ends in a double quote has no white space at its end. -/
theorem isBlank_last {t : Text} {front : List Piece} {p : Piece} (hpieces : pieces t = front ++ [p])
    (hlast : t.getLast? = some doubleQuote) : p.isBlank = false := by
  have hmem : p ∈ pieces t := hpieces ▸ List.mem_append_right _ (List.mem_singleton_self p)
  refine isBlank_of_mem_bytes (isScalar_of_mem_piecesFrom hmem) ?_
  have hbytes := ofPieces_pieces t
  rw [hpieces, ofPieces, List.flatMap_append, List.flatMap_singleton] at hbytes
  rw [← hbytes, List.getLast?_append] at hlast
  cases hp : p.bytes.getLast? with
  | some b =>
    rw [hp] at hlast
    exact List.mem_of_getLast? (hp.trans hlast)
  | none =>
    -- a piece has bytes
    rw [List.getLast?_eq_none_iff] at hp
    cases p with
    | point code =>
      obtain ⟨first, rest, hcode⟩ := encodePoint_eq_cons code
      rw [Piece.bytes, hcode] at hp
      cases hp
    | stray byte => cases hp

/-- A text between a byte that is not blank and a double quote is not trimmed. -/
theorem trim_of_getLast? {b : UInt8} {t : Text} (hb : b < 0x80)
    (hblank : isBlankPoint b.toNat = false) (hlast : (b :: t).getLast? = some doubleQuote) :
    trim (b :: t) = b :: t := by
  have hfirst : (pieces (b :: t)).dropWhile Piece.isBlank = pieces (b :: t) := by
    rw [pieces_ascii hb, List.dropWhile_cons_of_neg]
    simpa [Piece.isBlank] using hblank
  have hreverse : (pieces (b :: t)).reverse.dropWhile Piece.isBlank
      = (pieces (b :: t)).reverse := by
    cases hps : (pieces (b :: t)).reverse with
    | nil => rfl
    | cons p ps =>
      have hpieces : pieces (b :: t) = ps.reverse ++ [p] := by
        rw [← List.reverse_cons, ← hps, List.reverse_reverse]
      rw [List.dropWhile_cons_of_neg]
      simpa using isBlank_last hpieces hlast
  rw [trim, hfirst, hreverse, List.reverse_reverse, ofPieces_pieces]

/-- An open word is the start of the next. -/
theorem wordsFrom_eq_cons : ∀ (ps : List Piece) {word : List Piece}, word ≠ [] →
    ∃ taken rest, wordsFrom word ps = ofPieces (word.reverse ++ taken) :: rest
  | [], word, hword => ⟨[], [], by
    rw [wordsFrom, if_neg (by simpa using hword), List.append_nil]⟩
  | p :: ps, word, hword => by
    unfold wordsFrom
    split
    · refine ⟨[], wordsFrom [] ps, ?_⟩
      rw [if_neg (by simpa using hword), List.append_nil]
      rfl
    · obtain ⟨taken, rest, hwords⟩ := wordsFrom_eq_cons ps (List.cons_ne_nil p word)
      refine ⟨p :: taken, rest, ?_⟩
      rw [hwords, List.reverse_cons, List.append_assoc]
      rfl

/-- A text without line feeds is one line. -/
theorem rawLinesFrom_of_not_mem : ∀ {t line : Text}, lineFeed ∉ t → line ≠ [] ∨ t ≠ [] →
    rawLinesFrom line t = [line.reverse ++ t]
  | [], line, _, h => by
    have hline : line ≠ [] := h.resolve_right (fun hne => hne rfl)
    rw [rawLinesFrom, if_neg (by simpa using hline), List.append_nil]
  | b :: t, line, hmem, _ => by
    rw [List.mem_cons, not_or] at hmem
    obtain ⟨hb, ht⟩ := hmem
    rw [rawLinesFrom, if_neg (by simpa using Ne.symm hb),
      rawLinesFrom_of_not_mem ht (.inl (List.cons_ne_nil b line)), List.reverse_cons,
      List.append_assoc]
    rfl

/-! ## Literals -/

theorem getLast?_literalBody? {t s : Text} (h : literalBody? t = some s) :
    t.getLast? = some doubleQuote := by
  rcases literalBody?_step h with ⟨rfl, _⟩ | ⟨escape, point, rest, body, rfl, _, hbody, hescape, _⟩
  · rfl
  · have ih := getLast?_literalBody? hbody
    rw [List.getLast?_append, ih]
    rfl
termination_by t.length
decreasing_by
  subst_vars
  rw [List.length_append]
  omega

/-- A literal stands between double quotes. -/
theorem quotes_of_unquote? {q data : Text} (hq : Encoded q) (h : unquote? q = some data) :
    ∃ t, q = doubleQuote :: t ∧ q.getLast? = some doubleQuote := by
  rw [unquote?, hq.scrub_eq] at h
  split at h
  · next b body =>
    split at h
    · next hb =>
      rw [beq_iff_eq.mp hb]
      have hlast := getLast?_literalBody? h
      refine ⟨body, rfl, ?_⟩
      rw [List.getLast?_cons, hlast]
      rfl
    · cases h
  · cases h

end Text

/-! ## Preparing -/

namespace Equates

theorem get?_set_of_ne (e : Equates) {name word : Text} (value : Text) (h : word ≠ name) :
    (e.set name value).get? word = e.get? word := by
  have hfilter : ∀ entries : List (Text × Text),
      (entries.filter fun entry => entry.1 != name).lookup word = entries.lookup word := by
    intro entries
    induction entries with
    | nil => rfl
    | cons entry entries ih =>
      by_cases hname : entry.1 = name
      · have hword : (word == entry.1) = false := by simpa [hname] using h
        rw [List.filter_cons_of_neg (by simp [hname]), ih, List.lookup_cons, hword]
      · rw [List.filter_cons_of_pos (by simpa using hname), List.lookup_cons, List.lookup_cons, ih]
  have hword : (word == name) = false := by simpa using h
  rw [get?, set, List.lookup_cons, hword]
  exact hfilter e.entries

/-- The name of the line number is not replaced, whatever its text. -/
theorem substituteWord_atLine (e : Equates) (line : Int) :
    (e.atLine line).substituteWord = e.substituteWord := by
  funext word
  unfold substituteWord
  split
  · rfl
  · next hword =>
    simp only [Bool.or_eq_true, beq_iff_eq, not_or] at hword
    rw [atLine, get?_set_of_ne e _ hword.2]

end Equates

namespace Source

open Text (isCalm doubleQuote exposed)

/-- No scan of a line does anything to the contents of the literal: no comment, character or
expression is found in it, it has the same contents when its case is folded, no equate replaces a
word of it, and no comma splits it. -/
structure Inert (e : Equates) (q : Text) : Prop where
  uncut : Text.stripComment q = q
  characters : ∀ part ∈ exposed q, replaceLiterals part = part
  contents : Text.unquote? (Text.foldCase q) = Text.unquote? q
  expressions : ∀ part ∈ exposed (Text.foldCase q),
    ∀ rest ∈ (Text.splitOn '$'.toUInt8 part).tail, expression? rest = none
  words : ∀ part ∈ exposed (Text.foldCase q),
    Text.mapRuns Text.isNameByte e.substituteWord part = part
  whole : Text.splitCommas (Text.foldCase q) = [Text.foldCase q]

/-- The part has no byte that a scan looks for, and the equates replace none of its words. -/
structure InertPart (e : Equates) (part : Text) : Prop where
  calm : ∀ b ∈ part, isCalm b = true
  words : Text.mapRuns Text.isNameByte e.substituteWord part = part

/-- Literals are looked for behind the pieces that are no quote. -/
theorem replaceLiteralsFrom_append {rest : List Text.Piece} : ∀ {row : List Text.Piece},
    quotePiece ∉ row →
    replaceLiteralsFrom 0 (row ++ rest) = Text.ofPieces row ++ replaceLiteralsFrom 0 rest
  | [], _ => rfl
  | p :: row, h => by
    rw [List.mem_cons, not_or] at h
    have hp : (p == quotePiece) = false := beq_eq_false_iff_ne.mpr fun heq => h.1 heq.symm
    rw [List.cons_append, replaceLiteralsFrom, hp, if_neg (by decide),
      replaceLiteralsFrom_append h.2]
    exact (List.append_assoc p.bytes (Text.ofPieces row) _).symm

theorem quotePiece_not_mem {t : Text} (h : Text.singleQuote ∉ t) : quotePiece ∉ Text.pieces t := by
  intro hmem
  refine h ?_
  rw [← Text.ofPieces_pieces t]
  exact List.mem_flatMap.mpr ⟨_, hmem, List.mem_singleton_self _⟩

theorem replaceLiterals_of_not_mem {t : Text} (h : Text.singleQuote ∉ t) :
    replaceLiterals t = t := by
  have hrow := @replaceLiteralsFrom_append [] _ (quotePiece_not_mem h)
  rw [List.append_nil, Text.ofPieces_pieces, replaceLiteralsFrom, List.append_nil] at hrow
  exact hrow

theorem replaceLiterals_calm {part : Text} (h : ∀ b ∈ part, isCalm b = true) :
    replaceLiterals part = part :=
  replaceLiterals_of_not_mem fun hmem => absurd (h _ hmem) (by decide)

section

variable (evaluate : Expression.Evaluator) (bound : Expression.Bindings) (pos : Position)

/-- A part without expressions stays, whatever dollar signs are in it. -/
theorem expandPart_eq {part : Text}
    (h : ∀ rest ∈ (Text.splitOn '$'.toUInt8 part).tail, expression? rest = none) :
    expandPart evaluate bound pos part = ⟨part, []⟩ := by
  obtain ⟨first, rests, hsplit⟩ := Text.splitOn_eq_cons '$'.toUInt8 part
  rw [hsplit, List.tail_cons] at h
  have hrests : rests.map (expandAfterDollar evaluate bound pos)
      = rests.map fun rest => ⟨'$'.toUInt8 :: rest, []⟩ :=
    List.map_congr_left fun rest hrest => by rw [expandAfterDollar, h rest hrest]
  have hjoin := Text.joinWith_splitOn '$'.toUInt8 part
  rw [hsplit, Text.joinWith_cons] at hjoin
  simp only [expandPart, hsplit, hrests, Expanded.concat, List.flatMap_cons, List.flatMap_map,
    hjoin]
  simp

theorem expand_eq {t : Text}
    (h : ∀ part ∈ exposed t, expandPart evaluate bound pos part = ⟨part, []⟩) :
    expand evaluate bound pos t = ⟨t, []⟩ := by
  have hparts : Text.mapParts (expandPart evaluate bound pos) (fun inside => ⟨inside, []⟩) t
      = (Text.splitOn doubleQuote t).map fun part => ⟨part, []⟩ :=
    Text.alternate_eq_map (fun _ => rfl) h
  have htexts : (Text.splitOn doubleQuote t).map (Expanded.text ∘ fun part => ⟨part, []⟩)
      = Text.splitOn doubleQuote t := List.map_id _
  simp only [expand, hparts, List.map_map, htexts, Text.joinParts, Text.joinWith_splitOn]
  simp

end

/-- The line that puts the string of a literal into code memory. -/
def stringLine (q : Text) : Text := Text.ofString ".db " ++ q

section

variable {e : Equates} {q : Text}

/-- What holds of the text before a literal and of its exposed parts holds of those of the line. -/
theorem forall_exposed_stringLine {P : Text → Prop} (hfirst : P (Text.ofString ".db "))
    (hopened : ∃ t, q = doubleQuote :: t) (h : ∀ part ∈ exposed q, P part) :
    ∀ part ∈ exposed (stringLine q), P part := by
  obtain ⟨t, rfl⟩ := hopened
  have hline : exposed (stringLine (doubleQuote :: t))
      = Text.ofString ".db " :: Text.exposedFrom false t := rfl
  rw [hline]
  exact List.forall_mem_cons.mpr
    ⟨hfirst, fun part hpart => h part (List.mem_cons_of_mem _ hpart)⟩

/-- A literal between its quotes, on one line: what the scans need to know of it. -/
structure Literal (e : Equates) (q : Text) : Prop where
  encoded : Text.Encoded q
  opened : ∃ t, q = doubleQuote :: t
  closed : q.getLast? = some doubleQuote
  unbroken : Text.lineFeed ∉ q
  inert : Inert e q
  unnamed : e.get? (Text.ofString "db") = none

namespace Literal

theorem encoded_line (h : Literal e q) : Text.Encoded (stringLine q) :=
  .ascii (by decide) (.ascii (by decide) (.ascii (by decide) (.ascii (by decide) h.encoded)))

theorem foldCase_eq (h : Literal e q) : Text.foldCase q = Text.lowerUnquoted false q := by
  rw [Text.foldCase, h.encoded.scrub_eq]

theorem foldCase_line (h : Literal e q) :
    Text.foldCase (stringLine q) = stringLine (Text.foldCase q) := by
  rw [h.foldCase_eq, Text.foldCase, h.encoded_line.scrub_eq]
  rfl

/-- The first quote stays when case is folded. -/
theorem opened_foldCase (h : Literal e q) : ∃ t, Text.foldCase q = doubleQuote :: t := by
  rw [h.foldCase_eq]
  obtain ⟨t, rfl⟩ := h.opened
  exact ⟨_, rfl⟩

theorem unbroken_foldCase (h : Literal e q) : Text.lineFeed ∉ Text.foldCase q := by
  rw [h.foldCase_eq]
  exact Text.lineFeed_not_mem_lowerUnquoted h.unbroken

theorem stripComment_line (h : Literal e q) : Text.stripComment (stringLine q) = stringLine q :=
  congrArg (Text.ofString ".db " ++ ·) h.inert.uncut

theorem trim_line (h : Literal e q) : Text.trim (stringLine q) = stringLine q := by
  have hlast : (stringLine q).getLast? = some doubleQuote := by
    rw [stringLine, List.getLast?_append, h.closed]
    rfl
  exact Text.trim_of_getLast? (by decide) (by decide) hlast

theorem trim_foldCase (h : Literal e q) : Text.trim (Text.foldCase q) = Text.foldCase q := by
  have hclosed := h.closed
  rw [Text.trim_foldCase]
  obtain ⟨t, rfl⟩ := h.opened
  rw [Text.trim_of_getLast? (by decide) (by decide) hclosed]

theorem normalize_line (h : Literal e q) :
    normalize (stringLine q) = stringLine (Text.foldCase q) := by
  have hliterals : Text.mapOutsideQuotes replaceLiterals (stringLine q) = stringLine q :=
    Text.mapOutsideQuotes_eq (forall_exposed_stringLine rfl h.opened h.inert.characters)
  rw [normalize, h.stripComment_line, h.trim_line, hliterals, h.foldCase_line]

theorem expand_line (h : Literal e q) (evaluate : Expression.Evaluator)
    (bound : Expression.Bindings) (pos : Position) :
    expand evaluate bound pos (stringLine (Text.foldCase q))
      = ⟨stringLine (Text.foldCase q), []⟩ := by
  refine expand_eq evaluate bound pos (forall_exposed_stringLine rfl h.opened_foldCase ?_)
  exact fun part hpart => expandPart_eq evaluate bound pos (h.inert.expressions part hpart)

/-- The second word of the line starts with a quote, so the line defines no name. -/
theorem define?_line (h : Literal e q) (e' : Equates) (pos : Position) :
    e'.define? (stringLine (Text.foldCase q)) pos = none := by
  obtain ⟨t, ht⟩ := h.opened_foldCase
  rw [ht]
  have hpieces : Text.pieces (stringLine (doubleQuote :: t))
      = .point 0x2e :: .point 0x64 :: .point 0x62 :: .point 0x20 :: .point 0x22
        :: Text.pieces t := by
    have hline : stringLine (doubleQuote :: t) = 0x2e :: 0x64 :: 0x62 :: 0x20 :: 0x22 :: t := rfl
    rw [hline, Text.pieces_ascii (by decide), Text.pieces_ascii (by decide),
      Text.pieces_ascii (by decide), Text.pieces_ascii (by decide), Text.pieces_ascii (by decide)]
    rfl
  obtain ⟨taken, rest, hwords⟩ := Text.wordsFrom_eq_cons (Text.pieces t)
    (List.cons_ne_nil (.point 0x22) [])
  have hall : Text.wordsOf (stringLine (doubleQuote :: t))
      = Text.ofString ".db" :: (0x22 :: Text.ofPieces taken) :: rest := by
    rw [Text.wordsOf, hpieces]
    show Text.ofString ".db" :: Text.wordsFrom [.point 0x22] (Text.pieces t) = _
    rw [hwords]
    rfl
  rw [Equates.define?, hall]
  rfl

/-- The name of the directive has no equate, so only the literal is left to look at. -/
theorem substitute_line (h : Literal e q) (line : Int) :
    (e.atLine line).substitute (stringLine (Text.foldCase q)) = stringLine (Text.foldCase q) := by
  have hname : Text.mapRuns Text.isNameByte e.substituteWord (Text.ofString ".db ")
      = Text.ofString ".db " := by
    have hword : e.substituteWord (Text.ofString "db") = Text.ofString "db" := by
      rw [Equates.substituteWord, if_neg (by decide), h.unnamed]
      rfl
    show '.'.toUInt8 :: (e.substituteWord (Text.ofString "db") ++ [0x20]) = _
    rw [hword]
    rfl
  rw [Equates.substitute, Equates.substituteWord_atLine]
  exact Text.mapOutsideQuotes_eq
    (forall_exposed_stringLine hname h.opened_foldCase h.inert.words)

/-- The line is prepared without being changed, but for the case of its letters. -/
theorem prepareLine_eq (h : Literal e q) (evaluate : Expression.Evaluator) (pos : Position) :
    prepareLine evaluate e (stringLine q) pos
      = ⟨stringLine (Text.foldCase q), e.atLine pos.line, []⟩ := by
  simp only [prepareLine, h.normalize_line, h.expand_line evaluate, h.define?_line,
    h.substitute_line]
  rfl

theorem directive?_line (h : Literal e q) :
    Line.directive? (stringLine (Text.foldCase q))
      = some (Text.ofString "db", Text.foldCase q) := by
  have hlines := h.unbroken_foldCase
  obtain ⟨t, ht⟩ := h.opened_foldCase
  rw [ht] at hlines ⊢
  have hcontains : (doubleQuote :: t).contains Text.lineFeed = false := by
    rw [List.contains_eq_mem, decide_eq_false hlines]
  show Option.map _ (if (true && !(doubleQuote :: t).contains Text.lineFeed) then _ else _) = _
  rw [hcontains]
  rfl

/-- The literal is the only argument. -/
theorem read_arguments (h : Literal e q) {data : Text} (hdata : Text.unquote? q = some data)
    (pos : Position) :
    Directive.read (Text.ofString "db") (Text.foldCase q) pos
      = .done { kind := .db, position := pos, data } := by
  have hkind : DirectiveKind.ofName? (Text.ofString "db") = some .db := by decide
  have hitem : Directive.readByteItem pos (Text.foldCase q) = .done data := by
    have hquote : Text.beginsWith [doubleQuote] (Text.foldCase q) = true := by
      obtain ⟨t, ht⟩ := h.opened_foldCase
      rw [ht]
      rfl
    rw [Directive.readByteItem, if_pos hquote, h.inert.contents, hdata]
  have hempty : (Text.foldCase q).isEmpty = false := by
    obtain ⟨t, ht⟩ := h.opened_foldCase
    rw [ht]
    rfl
  have hitems : Directive.readItems (Directive.readByteItem pos) [Text.foldCase q]
      = .done data := by
    rw [Directive.readItems, hitem, Directive.readItems]
    exact congrArg Attempt.done (List.append_nil data)
  simp only [Directive.read, hkind, h.trim_foldCase, hempty, h.inert.whole,
    Directive.readArguments, Bool.false_eq_true, if_false, List.isEmpty_cons, hitems]
  rfl

/-- The line is read as a directive with the data of the literal. -/
theorem read_eq (h : Literal e q) {data : Text} (hdata : Text.unquote? q = some data)
    (pos : Position) :
    Line.read (stringLine (Text.foldCase q)) pos
      = { tokens := [.directive { kind := .db, position := pos, data }] } := by
  have hnormal : Line.normalize (stringLine (Text.foldCase q)) = stringLine (Text.foldCase q) := by
    rw [← h.foldCase_line, ← h.stripComment_line, Line.normalize_normalized, Line.normalize,
      h.stripComment_line, h.trim_line]
  have hlabel : Line.label? (stringLine (Text.foldCase q)) = none := rfl
  have hempty : (stringLine (Text.foldCase q)).isEmpty = false := rfl
  simp only [Line.read, hnormal, hlabel, Line.readStatement, hempty, h.directive?_line,
    h.read_arguments hdata]
  rfl

/-- A short line without a line feed is the only line of its text. -/
theorem readLines_eq (h : Literal e q)
    (hlength : (stringLine q).length < Text.lineLimit) :
    Text.readLines (stringLine q) = ⟨[stringLine q], false⟩ := by
  have hraw : Text.rawLinesFrom [] (stringLine q) = [stringLine q] := by
    refine Text.rawLinesFrom_of_not_mem ?_ (.inr (List.cons_ne_nil _ _))
    rw [stringLine, List.mem_append, not_or]
    exact ⟨by decide, h.unbroken⟩
  have hreturn : Text.dropReturn (stringLine q) = stringLine q := by
    have hreverse : (stringLine q).reverse.head? = some doubleQuote := by
      rw [List.head?_reverse, stringLine, List.getLast?_append, h.closed]
      rfl
    unfold Text.dropReturn
    split
    · next b front hfront =>
      rw [hfront, List.head?_cons, Option.some.injEq] at hreverse
      rw [hreverse, if_neg (by decide)]
    · rfl
  have hfits : [stringLine q].takeWhile (fun line => decide (line.length < Text.lineLimit))
      = [stringLine q] := by
    simp [hlength]
  simp only [Text.readLines, hraw, hfits, List.map_singleton, hreturn, Nat.lt_irrefl, decide_false]

end Literal

end

/-- **A literal is inert if its exposed parts are.** -/
theorem inert_of_parts {e : Equates} {q : Text} (hencoded : Text.Encoded q)
    (hopened : ∃ t, q = doubleQuote :: t) (hclosed : q.getLast? = some doubleQuote)
    (h : ∀ part ∈ exposed q, InertPart e part) : Inert e q := by
  have hcalm : Text.ExposesOnly (isCalm · = true) true q := fun part hpart => (h part hpart).calm
  have hfold : Text.foldCase q = q := Text.foldCase_calm hencoded hcalm
  refine ⟨Text.stripComment_calm hcalm, fun part hpart => replaceLiterals_calm (hcalm part hpart),
    by rw [hfold], ?_, ?_, ?_⟩
  · rw [hfold]
    intro part hpart rest hrest
    have hdollar : '$'.toUInt8 ∉ part := fun hmem => absurd (hcalm part hpart _ hmem) (by decide)
    rw [Text.splitOn_of_not_mem hdollar] at hrest
    cases hrest
  · rw [hfold]
    exact fun part hpart => (h part hpart).words
  · have hsplit : Text.splitCommasFrom none q = [q] := Text.splitCommasFrom_calm hcalm
    obtain ⟨t, rfl⟩ := hopened
    rw [hfold, Text.splitCommas, hsplit, List.map_singleton,
      Text.trim_of_getLast? (by decide) (by decide) hclosed]

/-- **A literal without an escaped quote is inert**, whatever else is in it. -/
theorem inert_of_unescaped (e : Equates) {body : Text} (h : doubleQuote ∉ body)
    (hencoded : Text.Encoded (doubleQuote :: body ++ [doubleQuote])) :
    Inert e (doubleQuote :: body ++ [doubleQuote]) := by
  have hexposed : exposed (doubleQuote :: body ++ [doubleQuote]) = [[], []] := by
    show [] :: Text.outsideParts false (Text.splitOn doubleQuote (body ++ [doubleQuote])) = _
    rw [Text.splitOn_append [] h]
    rfl
  refine inert_of_parts hencoded ⟨_, rfl⟩ List.getLast?_concat fun part hpart => ?_
  rw [hexposed] at hpart
  have hpart : part = [] := by simpa using hpart
  rw [hpart]
  exact ⟨fun _ h => absurd h List.not_mem_nil, rfl⟩

/-- **An inert literal is the data of its directive.** The one-line source of a literal that equates
and scans leave alone is prepared and read without a finding, and gives one directive, whose data
are the contents of the literal. -/
theorem readSource_string (path : Text) (e : Equates)
    (hdb : e.get? (Text.ofString "db") = none) (evaluate : Expression.Evaluator) (q data : Text)
    (hvalid : Text.isValid q = true) (hlines : Text.lineFeed ∉ q)
    (hdata : Text.unquote? q = some data) (hlength : (stringLine q).length < Text.lineLimit)
    (hinert : Inert e q) :
    let read := Text.readLines (stringLine q)
    let prepared := prepare path e read.lines evaluate
    read.tooLong = false ∧ prepared.findings = [] ∧
      (readSource path prepared.lines).reading
        = { tokens := [.directive { kind := .db, position := ⟨path, 1⟩, data }] } := by
  have hencoded := Text.encoded_of_isValid hvalid
  obtain ⟨t, hopened, hclosed⟩ := Text.quotes_of_unquote? hencoded hdata
  have h : Literal e q := ⟨hencoded, ⟨t, hopened⟩, hclosed, hlines, hinert, hdb⟩
  have hprepared : prepare path e [stringLine q] evaluate
      = ⟨[stringLine (Text.foldCase q)], e.atLine 1, []⟩ := by
    simp only [prepare, prepareFrom, h.prepareLine_eq evaluate, List.append_nil]
  have hread : (readSource path [stringLine (Text.foldCase q)]).reading
      = { tokens := [.directive { kind := .db, position := ⟨path, 1⟩, data }] } := by
    simp only [readSource, readLinesFrom, h.read_eq hdata]
    rfl
  simp only [h.readLines_eq hlength, hprepared, hread, true_and]

/-- Escaped quotes around a dollar sign and around hexadecimal digits, whose case does not matter.
The other capital letters, the comma, the semicolon and the equate are not exposed. -/
theorem readSource_string_escaped :
    let e : Equates := ({} : Equates).predefine (Text.ofString "ok") (Text.ofString "5")
    let q := Text.ofString "\"Say \\\"no $ \\x4A\\\" A, ok; \\x41\""
    let data := Text.ofString "Say \"no $ J\" A, ok; A"
    Text.isValid q = true ∧ Text.unquote? q = some data ∧ Inert e q ∧
      (readSource [] (prepare [] e (Text.readLines (stringLine q)).lines).lines).reading
        = { tokens := [.directive { kind := .db, position := ⟨[], 1⟩, data }] } := by
  intro e q data
  have hinert : Inert e q := ⟨by decide +kernel, by decide +kernel, by decide +kernel,
    by decide +kernel, by decide +kernel, by decide +kernel⟩
  have hvalid : Text.isValid q = true := by decide +kernel
  have hdata : Text.unquote? q = some data := by decide +kernel
  have hread := readSource_string [] e (by decide +kernel) Expression.evaluate q data hvalid
    (by decide) hdata (by decide) hinert
  exact ⟨hvalid, hdata, hinert, hread.2.2⟩

/-- A capital letter behind an escaped quote becomes a small one. -/
theorem exposed_letter :
    let q := Text.ofString "\"\\\"B\""
    Text.isValid q = true ∧ Text.unquote? q = some (Text.ofString "\"B") ∧
      (prepare [] {} (Text.readLines (stringLine q)).lines).findings = [] ∧
      (readSource [] (prepare [] {} (Text.readLines (stringLine q)).lines).lines).reading
        = { tokens := [.directive
            { kind := .db, position := ⟨[], 1⟩, data := Text.ofString "\"b" }] } := by
  decide +kernel

end Source

end Mcs51
