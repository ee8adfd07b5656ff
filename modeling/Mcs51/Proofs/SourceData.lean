import Mcs51.Proofs.EncodedText
import Mcs51.Proofs.OperandClassification
import Mcs51.Token.Reader

/-!
# The size of data in a source

A data directive stands on one line, and the line bounds the number of its bytes. Folding case can
make a line three times as long, each stray byte becoming U+FFFD; after that nothing grows. A string
has no more bytes than its literal, and an argument has at most one byte more than its text, for the
comma before the next one.

* `Text.length_unquote?_le`: a string is no longer than its literal
* `Directive.sized_read`: the arguments of a directive bound its numbers and its data
* `sized_readSource`: the longest line of a source bounds the data of all its directives
-/

namespace Mcs51

namespace Text

/-! ## Strings -/

theorem length_hexPoint?_le {digits point : Text} (h : hexPoint? digits = some point) :
    point.length ≤ 4 := by
  simp only [hexPoint?, Option.bind_eq_bind, Option.bind_eq_some_iff,
    Option.ite_none_right_eq_some, Option.some.injEq] at h
  obtain ⟨code, _, _, rfl⟩ := h
  rw [length_encodePoint]
  repeat' split
  all_goals omega

/-- The literal `t` starts with one byte or one escape, and its contents `s` with the bytes that
this stands for, of which there are no more. -/
def Continues (t s : Text) : Prop :=
  ∃ escape point rest body, t = escape ++ rest ∧ s = point ++ body ∧
    literalBody? rest = some body ∧ 0 < escape.length ∧ point.length ≤ escape.length

theorem continues_of_map {s rest : Text} (escape point : Text)
    (h : (literalBody? rest).map (point ++ ·) = some s) (hescape : 0 < escape.length)
    (hpoint : point.length ≤ escape.length) : Continues (escape ++ rest) s := by
  obtain ⟨body, hbody, rfl⟩ := Option.map_eq_some_iff.mp h
  exact ⟨escape, point, rest, body, rfl, rfl, hbody, hescape, hpoint⟩

/-- Reading one byte or one escape of a literal, up to its closing quote. -/
theorem literalBody?_step {t s : Text} (h : literalBody? t = some s) :
    (t = [doubleQuote] ∧ s = []) ∨ Continues t s := by
  unfold literalBody? at h
  split at h
  · cases h
  · next b rest =>
    split at h
    · next hquote =>
      split at h
      · next hrest =>
        cases h
        exact .inl ⟨by rw [beq_iff_eq.mp hquote, List.isEmpty_iff.mp hrest], rfl⟩
      · cases h
    split at h
    · cases h
    split at h
    · exact .inr (continues_of_map [b] [b] h (by simp) (by simp))
    split at h
    · cases h
    next e rest =>
    split at h
    · next c _ =>
      exact .inr (continues_of_map [b, e] [c] h (by simp) (by simp))
    split at h
    · next x y rest =>
      split at h
      · obtain ⟨n, _, h⟩ := Option.bind_eq_some_iff.mp h
        exact .inr (continues_of_map [b, e, x, y] [n.toUInt8] h (by simp) (by simp))
      split at h
      · obtain ⟨c, _, h⟩ := Option.bind_eq_some_iff.mp h
        exact .inr (continues_of_map [b, e, x, y] [c] h (by simp) (by simp))
      split at h
      · next z w rest =>
        split at h
        · obtain ⟨point, hpoint, h⟩ := Option.bind_eq_some_iff.mp h
          have hfour := length_hexPoint?_le hpoint
          exact .inr (continues_of_map [b, e, x, y, z, w] point h (by simp)
            (Nat.le_trans hfour (by simp)))
        split at h
        · next p q r s rest =>
          split at h
          · obtain ⟨point, hpoint, h⟩ := Option.bind_eq_some_iff.mp h
            have hfour := length_hexPoint?_le hpoint
            exact .inr (continues_of_map [b, e, x, y, z, w, p, q, r, s] point h (by simp)
              (Nat.le_trans hfour (by simp)))
          · cases h
        · cases h
      · cases h
    · cases h

theorem length_literalBody?_le {t s : Text} (h : literalBody? t = some s) :
    s.length ≤ t.length := by
  rcases literalBody?_step h with ⟨_, rfl⟩ | ⟨escape, point, rest, body, ht, rfl, hbody, _, hpoint⟩
  · exact Nat.zero_le _
  · have hlength : t.length = escape.length + rest.length := by rw [ht, List.length_append]
    have ih := length_literalBody?_le hbody
    rw [hlength, List.length_append]
    exact Nat.add_le_add hpoint ih
termination_by t.length

theorem length_unquote?_le {t s : Text} (ht : Encoded t) (h : unquote? t = some s) :
    s.length ≤ t.length := by
  rw [unquote?, ht.scrub_eq] at h
  split at h
  · next b body =>
    split at h
    · exact Nat.le_succ_of_le (length_literalBody?_le h)
    · cases h
  · cases h

/-! ## Arguments -/

/-- The number of bytes of the parts of a text, with a separator after each. -/
def weight : List Text → Nat
  | [] => 0
  | part :: parts => part.length + 1 + weight parts

theorem weight_splitCommasFrom : ∀ (t : Text) (quote : OpenQuote),
    weight (splitCommasFrom quote t) = t.length + 1
  | [], _ => rfl
  | b :: t, quote => by
    unfold splitCommasFrom
    split
    · rw [weight, weight_splitCommasFrom t none, List.length_nil, List.length_cons]
      omega
    · have ih := weight_splitCommasFrom t (nextQuote quote b)
      split
      · next hnil =>
        rw [hnil, weight] at ih
        omega
      · next part parts hparts =>
        rw [hparts, weight] at ih
        simp only [weight, List.length_cons]
        omega

theorem weight_map_trim_le : ∀ parts : List Text, weight (parts.map trim) ≤ weight parts
  | [] => Nat.le_refl 0
  | part :: parts => by
    have ih := weight_map_trim_le parts
    have hfirst := length_trim_le part
    simp only [List.map_cons, weight]
    omega

theorem weight_splitCommas_le (t : Text) : weight (splitCommas t) ≤ t.length + 1 := by
  rw [← weight_splitCommasFrom t none]
  exact weight_map_trim_le _

end Text

open Text (Encoded)

namespace Directive

/-! ## Directives -/

/-- A directive whose number is a word and whose data has at most `n` bytes. -/
structure Sized (n : Nat) (d : Directive) : Prop where
  least : 0 ≤ d.number
  most : d.number ≤ wordLimit
  data : d.data.length ≤ n

/-- A directive with a number and no data. -/
theorem sized_of_number {n value : Nat} {d : Directive} (hnumber : d.number = value)
    (hvalue : value ≤ wordLimit) (hdata : d.data = []) : d.Sized n := by
  refine ⟨?_, ?_, ?_⟩
  · rw [hnumber]
    exact Int.natCast_nonneg value
  · rw [hnumber]
    exact Int.ofNat_le.mpr hvalue
  · rw [hdata]
    exact Nat.zero_le n

/-- A directive without a number. -/
theorem sized_of_data {n : Nat} {d : Directive} (hnumber : d.number = 0)
    (hdata : d.data.length ≤ n) : d.Sized n := by
  refine ⟨Int.le_of_eq hnumber.symm, ?_, hdata⟩
  rw [hnumber]
  decide

theorem Sized.mono {m n : Nat} {d : Directive} (h : d.Sized m) (hle : m ≤ n) : d.Sized n :=
  ⟨h.least, h.most, Nat.le_trans h.data hle⟩

theorem length_readByteItem_le {pos : Position} {item : Text} {bytes : List UInt8}
    (hitem : Encoded item) (h : (readByteItem pos item).result = some bytes) :
    bytes.length ≤ item.length + 1 := by
  unfold readByteItem at h
  split at h
  · split at h
    · next hunquote =>
      cases h
      exact Nat.le_succ_of_le (Text.length_unquote?_le hitem hunquote)
    · cases h
  · obtain ⟨value, _, h⟩ := Attempt.result_bind_eq_some.mp h
    cases h
    exact Nat.le_add_left _ _

/-- There are no digits in an empty text. -/
theorem length_readWordItem_le {pos : Position} {item : Text} {bytes : List UInt8}
    (h : (readWordItem pos item).result = some bytes) : bytes.length ≤ item.length + 1 := by
  obtain ⟨value, hvalue, h⟩ := Attempt.result_bind_eq_some.mp h
  cases h
  cases item with
  | nil => cases hvalue
  | cons b item =>
    simp only [List.length_cons, List.length_nil]
    omega

theorem length_readItems_le {read : Text → Attempt (List UInt8)} :
    ∀ {items : List Text} {bytes : List UInt8},
      (∀ item ∈ items, ∀ bytes, (read item).result = some bytes →
        bytes.length ≤ item.length + 1) →
      (readItems read items).result = some bytes → bytes.length ≤ Text.weight items
  | [], _, _, h => by
    cases h
    exact Nat.le_refl 0
  | item :: items, _, hread, h => by
    obtain ⟨first, hfirst, h⟩ := Attempt.result_bind_eq_some.mp h
    obtain ⟨more, hmore, h⟩ := Attempt.result_bind_eq_some.mp h
    cases h
    have ih := length_readItems_le (fun i hi => hread i (List.mem_cons_of_mem item hi)) hmore
    have hle := hread item List.mem_cons_self first hfirst
    rw [List.length_append, Text.weight]
    omega

theorem sized_readArguments {kind : DirectiveKind} {pos : Position} {items : List Text}
    {d : Directive} (hitems : ∀ item ∈ items, Encoded item)
    (h : (readArguments kind pos items).result = some d) : d.Sized (Text.weight items) := by
  unfold readArguments at h
  simp only at h
  split at h
  · split at h
    · obtain ⟨value, hvalue, h⟩ := Attempt.result_bind_eq_some.mp h
      cases h
      exact sized_of_number rfl ((readNumber_eq_some.mp hvalue).2) rfl
    · cases h
  · split at h
    · obtain ⟨value, hvalue, h⟩ := Attempt.result_bind_eq_some.mp h
      cases h
      exact sized_of_number rfl ((readNumber_eq_some.mp hvalue).2) rfl
    · cases h
  · split at h
    · cases h
    · obtain ⟨data, hdata, h⟩ := Attempt.result_bind_eq_some.mp h
      cases h
      exact sized_of_data rfl (length_readItems_le
        (fun item hi _ hread => length_readByteItem_le (hitems item hi) hread) hdata)
  · split at h
    · cases h
    · obtain ⟨data, hdata, h⟩ := Attempt.result_bind_eq_some.mp h
      cases h
      exact sized_of_data rfl (length_readItems_le
        (fun item _ _ hread => length_readWordItem_le hread) hdata)
  · split at h
    · obtain ⟨path, _, h⟩ := Attempt.result_bind_eq_some.mp h
      cases h
      exact sized_of_data rfl (Nat.zero_le _)
    · cases h
  · split at h
    · cases h
      exact sized_of_data rfl (Nat.zero_le _)
    · cases h

/-- **The arguments of a directive bound its number and its data.** -/
theorem sized_read {name arguments : Text} {pos : Position} {d : Directive}
    (harguments : Encoded arguments) (h : (read name arguments pos).result = some d) :
    d.Sized (arguments.length + 1) := by
  unfold read at h
  split at h
  · cases h
  · simp only at h
    split at h
    · exact (sized_readArguments (by simp) h).mono (Nat.zero_le _)
    · have htrim := Text.length_trim_le arguments
      have hweight := Text.weight_splitCommas_le (Text.trim arguments)
      exact (sized_readArguments harguments.trim.splitCommas h).mono (by omega)

end Directive

/-! ## Lines -/

namespace Line

theorem ascii_of_isLower {b : UInt8} (h : Text.isLower b = true) : b < 0x80 := by
  simp only [Text.isLower, Bool.and_eq_true, decide_eq_true_eq] at h
  exact UInt8.lt_of_le_of_lt h.2 (by decide)

theorem ascii_of_isWordBlank {b : UInt8} (h : Text.isWordBlank b = true) : b < 0x80 := by
  simp only [Text.isWordBlank, Bool.or_eq_true, beq_iff_eq] at h
  rcases h with (((rfl | rfl) | rfl) | rfl) | rfl <;> decide

theorem ascii_of_isNameByte {b : UInt8} (h : Text.isNameByte b = true) : b < 0x80 := by
  simp only [Text.isNameByte, Text.isNameStart, Text.isDigit, Bool.or_eq_true, Bool.and_eq_true,
    decide_eq_true_eq, beq_iff_eq] at h
  rcases h with ((h | rfl) | rfl) | h
  · exact ascii_of_isLower h
  · decide
  · decide
  · exact UInt8.lt_of_le_of_lt h.2 (by decide)

/-- The rest of a text after some ASCII bytes: correctly encoded and no longer. -/
structure RestOf (t rest : Text) : Prop where
  encoded : Encoded rest
  length : rest.length ≤ t.length

theorem RestOf.refl {t : Text} (h : Encoded t) : RestOf t t := ⟨h, Nat.le_refl _⟩

theorem RestOf.dropWhile {t rest : Text} (h : RestOf t rest) {p : UInt8 → Bool}
    (hp : ∀ b, p b = true → b < 0x80) : RestOf t (rest.dropWhile p) :=
  ⟨h.encoded.dropWhile hp, Nat.le_trans (List.dropWhile_sublist p).length_le h.length⟩

theorem RestOf.tail {t rest : Text} {b : UInt8} (h : RestOf t (b :: rest)) (hb : b < 0x80) :
    RestOf t rest :=
  ⟨h.encoded.tail hb, Nat.le_trans (Nat.le_succ _) h.length⟩

theorem RestOf.trim {t rest : Text} (h : RestOf t rest) : RestOf t (Text.trim rest) :=
  ⟨h.encoded.trim, Nat.le_trans (Text.length_trim_le rest) h.length⟩

theorem restOf_argument? {t rest argument : Text} (h : RestOf t rest)
    (hargument : argument? rest = some argument) : RestOf t argument := by
  unfold argument? at hargument
  split at hargument
  · cases hargument
    exact h
  · simp only at hargument
    split at hargument
    · cases hargument
      exact h.dropWhile fun _ => ascii_of_isWordBlank
    · cases hargument

theorem restOf_directive? {t line name arguments : Text} (h : RestOf t line)
    (hdirective : directive? line = some (name, arguments)) : RestOf t arguments := by
  unfold directive? at hdirective
  split at hdirective
  · cases hdirective
  · next b rest =>
    simp only at hdirective
    split at hdirective
    · next hfirst =>
      obtain ⟨argument, hargument, heq⟩ := Option.map_eq_some_iff.mp hdirective
      cases heq
      have hb : b < 0x80 := by
        simp only [Bool.and_eq_true, Bool.or_eq_true, beq_iff_eq] at hfirst
        rcases hfirst.1 with rfl | rfl <;> decide
      exact restOf_argument? ((h.tail hb).dropWhile fun _ => ascii_of_isLower) hargument
    · cases hdirective

theorem restOf_label? {t line name rest : Text} (h : RestOf t line)
    (hlabel : label? line = some (name, rest)) : RestOf t rest := by
  unfold label? at hlabel
  split at hlabel
  · cases hlabel
  · split at hlabel
    · have hdropped := (h.dropWhile fun _ => ascii_of_isNameByte).dropWhile
        fun _ => ascii_of_isWordBlank
      split at hlabel
      · next c after hafter =>
        rw [hafter] at hdropped
        split at hlabel
        · next hcolon =>
          cases hlabel
          exact hdropped.tail (by rw [beq_iff_eq.mp hcolon]; decide)
        · cases hlabel
      · cases hlabel
    · cases hlabel

theorem length_stripCommentFrom_le : ∀ (t : Text) (quote : Text.OpenQuote),
    (Text.stripCommentFrom quote t).length ≤ t.length
  | [], _ => Nat.le_refl 0
  | b :: t, quote => by
    unfold Text.stripCommentFrom
    split
    · exact Nat.zero_le _
    · exact Nat.succ_le_succ (length_stripCommentFrom_le t _)

theorem length_normalize_le (text : Text) : (normalize text).length ≤ 3 * text.length := by
  have hstrip : (Text.stripComment text).length ≤ text.length :=
    length_stripCommentFrom_le text none
  have htrim := Text.length_trim_le (Text.stripComment text)
  calc (normalize text).length
      ≤ 3 * (Text.trim (Text.stripComment text)).length := Text.length_foldCase_le _
    _ ≤ 3 * text.length := by omega

theorem not_directive_readLabel (name : Text) (pos : Position) (d : Directive) :
    .directive d ∉ (readLabel name pos).tokens := by
  unfold readLabel
  split
  · exact List.not_mem_nil
  · split <;> simp

theorem not_directive_readInstruction (name operands : Text) (pos : Position) (d : Directive) :
    .directive d ∉ (readInstruction name operands pos).tokens := by
  simp [readInstruction]

theorem sized_readStatement {t line : Text} {pos : Position} (h : RestOf t line) {d : Directive}
    (hd : .directive d ∈ (readStatement line pos).tokens) : d.Sized (t.length + 1) := by
  unfold readStatement at hd
  split at hd
  · cases hd
  · split at hd
    · next name arguments hdirective =>
      obtain ⟨_, hread, heq⟩ := Option.map_eq_some_iff.mp (Option.mem_toList.mp hd)
      cases heq
      have hrest := restOf_directive? h hdirective
      exact (Directive.sized_read hrest.encoded hread).mono (Nat.succ_le_succ hrest.length)
    · split at hd
      · exact absurd hd (not_directive_readInstruction _ _ pos d)
      · cases hd

/-- The data of a line has at most three times as many bytes as the line, and one more. -/
theorem sized_read {text : Text} {pos : Position} {d : Directive}
    (hd : .directive d ∈ (read text pos).tokens) : d.Sized (3 * text.length + 1) := by
  have hline : RestOf (normalize text) (normalize text) := .refl (Text.encoded_foldCase _)
  have hlength := Nat.succ_le_succ (length_normalize_le text)
  unfold read at hd
  simp only at hd
  split at hd
  · next name rest hlabel =>
    rcases List.mem_append.mp hd with hd | hd
    · exact absurd hd (not_directive_readLabel name pos d)
    · exact (sized_readStatement (restOf_label? hline hlabel).trim hd).mono hlength
  · exact (sized_readStatement hline hd).mono hlength

end Line

/-! ## Sources -/

theorem sized_readLinesFrom {n : Nat} : ∀ {lines : List Text} {path : Text} {number : Int},
    (∀ line ∈ lines, line.length ≤ n) → ∀ {d : Directive},
      .directive d ∈ (readLinesFrom path number lines).reading.tokens → d.Sized (3 * n + 1)
  | [], _, _, _, _, hd => by cases hd
  | text :: lines, path, number, hlines, d, hd => by
    have hfirst : ∀ pos, .directive d ∈ (Line.read text pos).tokens → d.Sized (3 * n + 1) := by
      intro pos hd
      have hlength := hlines text List.mem_cons_self
      exact (Line.sized_read hd).mono (by omega)
    unfold readLinesFrom at hd
    simp only at hd
    split at hd
    · exact hfirst _ hd
    · rcases List.mem_append.mp hd with hd | hd
      · exact hfirst _ hd
      · have hrest : ∀ line ∈ lines, line.length ≤ n :=
          fun line hline => hlines line (List.mem_cons_of_mem text hline)
        exact sized_readLinesFrom hrest hd

/-- **The longest line of a source bounds the data of its directives**, and their numbers are
words. -/
theorem sized_readSource {path : Text} {lines : List Text} {n : Nat}
    (hlines : ∀ line ∈ lines, line.length ≤ n) {d : Directive}
    (hd : .directive d ∈ (readSource path lines).reading.tokens) : d.Sized (3 * n + 1) :=
  sized_readLinesFrom hlines hd

end Mcs51
