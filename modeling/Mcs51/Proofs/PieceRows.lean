import Mathlib.Data.List.DropRight
import Mathlib.Data.List.Infix
import Mcs51.Proofs.EncodedText

/-!
# Rows of pieces

Which rows of pieces are the pieces of a text: those in which each stray byte stays stray in front
of what follows it. Such a row is read back from its bytes, and so is every part of it; a text can
also be cut at any ASCII byte. So what a scan does to a text can be said of its pieces.

* `Row` — the rows of pieces that are read back
* `Row.pieces_ofPieces`, `row_pieces` — they are the pieces of the texts
* `Row.of_part` — a part of a row is a row
* `pieces_append_cons` — the pieces before and after an ASCII byte
* `pieces_trim` — trimming a text trims its pieces
-/

namespace Mcs51.Text

/-! ## Stray bytes -/

/-- The code point whose encoding is a byte and the given bytes after it. -/
def completed? (a : UInt8) : Text → Option Nat
  | [b] => pair? a b
  | [b, c] => triple? a b c
  | [b, c, d] => quad? a b c d
  | _ => none

/-- No bytes at the start of a text complete an encoding that a byte before them begins. -/
def NoneCompletes (a : UInt8) (t : Text) : Prop := ∀ tail, tail <+: t → completed? a tail = none

section

variable {a b c d : UInt8} {t u : Text}

theorem noneCompletes_nil (a : UInt8) : NoneCompletes a [] := by
  intro tail htail
  rw [List.prefix_nil.mp htail]
  rfl

theorem noneCompletes_one (hpair : pair? a b = none) : NoneCompletes a [b] := by
  intro tail htail
  rcases (@List.prefix_concat_iff _ tail [] b).mp htail with rfl | htail
  · exact hpair
  · exact noneCompletes_nil a tail htail

theorem noneCompletes_two (hpair : pair? a b = none) (htriple : triple? a b c = none) :
    NoneCompletes a [b, c] := by
  intro tail htail
  rcases (@List.prefix_concat_iff _ tail [b] c).mp htail with rfl | htail
  · exact htriple
  · exact noneCompletes_one hpair tail htail

theorem noneCompletes_three (hpair : pair? a b = none) (htriple : triple? a b c = none)
    (hquad : quad? a b c d = none) : NoneCompletes a (b :: c :: d :: t) := by
  intro tail htail
  rcases List.prefix_or_prefix_of_prefix htail (⟨t, rfl⟩ : [b, c, d] <+: b :: c :: d :: t)
    with hshort | ⟨rest, rfl⟩
  · rcases (@List.prefix_concat_iff _ tail [b, c] d).mp hshort with rfl | hshort
    · exact hquad
    · exact noneCompletes_two hpair htriple tail hshort
  · cases rest with
    | nil => exact hquad
    | cons e rest => rfl

/-- What a text starts with: an ASCII byte, an encoding, or a byte that nothing completes. -/
theorem leading_cases (a : UInt8) (t : Text) :
    (a < 0x80 ∧ leading a t = (.point a.toNat, 0)) ∨
      (∃ tail code, tail <+: t ∧ completed? a tail = some code ∧
        leading a t = (.point code, tail.length)) ∨
      (0x80 ≤ a.toNat ∧ NoneCompletes a t ∧ leading a t = (.stray a, 0)) := by
  by_cases ha : a < 0x80
  · exact .inl ⟨ha, leading_ascii ha t⟩
  have hwide : 0x80 ≤ a.toNat := Nat.le_of_not_lt fun h => ha (UInt8.lt_iff_toNat_lt.mpr h)
  right
  cases t with
  | nil => exact .inr ⟨hwide, noneCompletes_nil a, if_neg ha⟩
  | cons b t =>
    cases hpair : pair? a b with
    | some code => exact .inl ⟨[b], code, ⟨t, rfl⟩, hpair, leading_two hwide hpair t⟩
    | none =>
      cases t with
      | nil => exact .inr ⟨hwide, noneCompletes_one hpair, by simp only [leading, if_neg ha, hpair]⟩
      | cons c t =>
        cases htriple : triple? a b c with
        | some code =>
          exact .inl ⟨[b, c], code, ⟨t, rfl⟩, htriple, leading_three hwide hpair htriple t⟩
        | none =>
          cases t with
          | nil =>
            exact .inr ⟨hwide, noneCompletes_two hpair htriple,
              by simp only [leading, if_neg ha, hpair, htriple]⟩
          | cons d t =>
            cases hquad : quad? a b c d with
            | some code =>
              exact .inl ⟨[b, c, d], code, ⟨t, rfl⟩, hquad,
                leading_four hwide hpair htriple hquad t⟩
            | none =>
              exact .inr ⟨hwide, noneCompletes_three hpair htriple hquad,
                by simp only [leading, if_neg ha, hpair, htriple, hquad]⟩

/-- A byte is stray if it is not ASCII and nothing completes it. -/
theorem leading_stray (hwide : 0x80 ≤ a.toNat) (h : NoneCompletes a t) :
    leading a t = (.stray a, 0) := by
  rcases leading_cases a t with ⟨ha, _⟩ | ⟨tail, code, htail, hcode, _⟩ | ⟨_, _, hstray⟩
  · exact absurd ha (not_lt_ascii hwide)
  · rw [h tail htail] at hcode
    cases hcode
  · exact hstray

theorem isTail_ascii (hb : b < 0x80) : isTail b = false := by
  rw [← Bool.not_eq_true, isTail_iff]
  exact fun h => not_lt_ascii h.1 hb

/-- An ASCII byte completes nothing. -/
theorem completed?_eq_none_of_mem {tail : Text} (hb : b < 0x80) (hmem : b ∈ tail) :
    completed? a tail = none := by
  have htail := isTail_ascii hb
  unfold completed?
  split
  · rw [List.mem_singleton] at hmem
    simp [pair?, ← hmem, htail]
  · simp only [List.mem_cons, List.not_mem_nil, or_false] at hmem
    rcases hmem with rfl | rfl <;> simp [triple?, htail]
  · simp only [List.mem_cons, List.not_mem_nil, or_false] at hmem
    rcases hmem with rfl | rfl | rfl <;> simp [quad?, htail]
  · rfl

theorem NoneCompletes.of_append (h : NoneCompletes a (t ++ u)) : NoneCompletes a t :=
  fun tail htail => h tail (htail.trans (List.prefix_append t u))

/-- What nothing in a text completes, nothing that follows an ASCII byte completes. -/
theorem NoneCompletes.append_cons (hb : b < 0x80) (h : NoneCompletes a t) :
    NoneCompletes a (t ++ b :: u) := by
  intro tail htail
  rcases List.prefix_or_prefix_of_prefix htail (List.prefix_append t (b :: u))
    with hshort | ⟨rest, rfl⟩
  · exact h tail hshort
  · -- bytes that go on past the end of `t` include the ASCII byte
    cases rest with
    | nil => exact h _ (by rw [List.append_nil])
    | cons c rest =>
      obtain ⟨rfl, _⟩ := List.cons_prefix_cons.mp ((List.prefix_append_right_inj t).mp htail)
      exact completed?_eq_none_of_mem hb (List.mem_append_right t List.mem_cons_self)

end

/-! ## Rows -/

/-- A piece stands as it is in front of a text: no bytes of the text belong to it. -/
def Piece.Leads (t : Text) : Piece → Prop
  | .point code => isScalar code = true
  | .stray a => 0x80 ≤ a.toNat ∧ NoneCompletes a t

/-- A row of pieces in which each piece stands as it is in front of those that follow. -/
inductive Row : List Piece → Prop
  | nil : Row []
  | cons {p : Piece} {ps : List Piece} (hp : p.Leads (ofPieces ps)) (hps : Row ps) : Row (p :: ps)

section

variable {p : Piece} {ps qs : List Piece} {t u : Text} {b : UInt8}

theorem ofPieces_cons (p : Piece) (ps : List Piece) :
    ofPieces (p :: ps) = p.bytes ++ ofPieces ps := List.flatMap_cons

theorem ofPieces_append (ps qs : List Piece) : ofPieces (ps ++ qs) = ofPieces ps ++ ofPieces qs :=
  List.flatMap_append

theorem Piece.Leads.pieces_append (h : p.Leads t) : pieces (p.bytes ++ t) = p :: pieces t := by
  cases p with
  | stray a =>
    have hleading := leading_stray h.1 h.2
    rw [Piece.bytes, List.singleton_append, pieces, piecesFrom, hleading]
    rfl
  | point code =>
    by_cases hascii : code < 0x80
    · have hcode : code.toUInt8.toNat = code := toNat_toUInt8 (Nat.lt_trans hascii (by decide))
      rw [Piece.bytes, encodePoint_ascii hascii, List.singleton_append, pieces_ascii, hcode]
      rwa [UInt8.lt_iff_toNat_lt, hcode]
    · exact pieces_wide (Nat.le_of_not_lt hascii) h t

/-- A piece is an ASCII byte, or has none. -/
theorem Piece.Leads.ascii_or_wide (h : p.Leads t) : (∃ b : UInt8, b < 0x80 ∧ p = .point b.toNat) ∨
    (0x80 ≤ p.code ∧ isScalar p.code = true ∧ ∀ b ∈ p.bytes, 0x80 ≤ b.toNat) := by
  cases p with
  | stray a =>
    refine .inr ⟨(by decide : 0x80 ≤ replacement), rfl, fun b hb => ?_⟩
    rw [List.mem_singleton.mp hb]
    exact h.1
  | point code =>
    by_cases hascii : code < 0x80
    · have hcode : code.toUInt8.toNat = code := toNat_toUInt8 (Nat.lt_trans hascii (by decide))
      exact .inl ⟨code.toUInt8, by rwa [UInt8.lt_iff_toNat_lt, hcode], by rw [hcode]⟩
    · have hwide := Nat.le_of_not_lt hascii
      exact .inr ⟨hwide, h, le_of_mem_encodePoint hwide h⟩

/-- **A row is read back from its bytes.** -/
theorem Row.pieces_ofPieces (h : Row ps) : pieces (ofPieces ps) = ps := by
  induction h with
  | nil => rfl
  | @cons p ps hp _ ih => rw [ofPieces_cons, hp.pieces_append, ih]

theorem row_piecesFrom : ∀ (covered : Nat) (t : Text), Row (piecesFrom covered t)
  | _, [] => by
    unfold piecesFrom
    exact .nil
  | 0, a :: rest => by
    have ih := row_piecesFrom (leading a rest).2 rest
    rw [piecesFrom]
    refine .cons ?_ ih
    rw [ofPieces_piecesFrom]
    have hscalar := isScalar_leading a rest
    rcases leading_cases a rest with ⟨_, h⟩ | ⟨_, _, _, _, h⟩ | ⟨hwide, hnone, h⟩
    · rw [h] at hscalar ⊢
      exact hscalar
    · rw [h] at hscalar ⊢
      exact hscalar
    · rw [h]
      exact ⟨hwide, hnone⟩
  | covered + 1, _ :: rest => row_piecesFrom covered rest

/-- **The pieces of a text are a row.** -/
theorem row_pieces (t : Text) : Row (pieces t) := row_piecesFrom 0 t

theorem row_of_points (h : ∀ p ∈ ps, ∃ code, p = .point code ∧ isScalar code = true) : Row ps := by
  induction ps with
  | nil => exact .nil
  | cons p ps ih =>
    obtain ⟨hp, hps⟩ := List.forall_mem_cons.mp h
    obtain ⟨code, rfl, hscalar⟩ := hp
    exact .cons hscalar (ih hps)

theorem Piece.Leads.of_append (h : p.Leads (t ++ u)) : p.Leads t := by
  cases p with
  | point code => exact h
  | stray a => exact ⟨h.1, h.2.of_append⟩

theorem Piece.Leads.append_cons (hb : b < 0x80) (h : p.Leads t) : p.Leads (t ++ b :: u) := by
  cases p with
  | point code => exact h
  | stray a => exact ⟨h.1, h.2.append_cons hb⟩

theorem row_cons_iff : Row (p :: ps) ↔ p.Leads (ofPieces ps) ∧ Row ps := by
  constructor
  · intro h
    cases h with
    | cons hp hps => exact ⟨hp, hps⟩
  · intro h
    exact .cons h.1 h.2

theorem Row.of_append_left : ∀ {ps : List Piece}, Row (ps ++ qs) → Row ps
  | [], _ => .nil
  | p :: ps, h => by
    rw [List.cons_append, row_cons_iff, ofPieces_append] at h
    exact .cons h.1.of_append h.2.of_append_left

theorem Row.of_append_right : ∀ {ps : List Piece}, Row (ps ++ qs) → Row qs
  | [], h => h
  | p :: ps, h => by
    rw [List.cons_append, row_cons_iff] at h
    exact h.2.of_append_right

/-- A part of a row is a row. -/
theorem Row.of_part (h : Row qs) (hpart : ps <:+: qs) : Row ps := by
  obtain ⟨before, after, rfl⟩ := hpart
  exact h.of_append_left.of_append_right

/-- Rows can be joined at an ASCII byte. -/
theorem Row.append_cons (hb : b < 0x80) (hps : Row ps) (hqs : Row (.point b.toNat :: qs)) :
    Row (ps ++ .point b.toNat :: qs) := by
  induction hps with
  | nil => exact hqs
  | @cons p ps hp _ ih =>
    rw [List.cons_append, row_cons_iff, ofPieces_append, ofPieces_cons, Piece.bytes,
      encodePoint_toNat hb, List.singleton_append]
    exact ⟨hp.append_cons hb, ih⟩

/-- **A text can be cut at an ASCII byte.** -/
theorem pieces_append_cons (hb : b < 0x80) (t u : Text) :
    pieces (t ++ b :: u) = pieces t ++ .point b.toNat :: pieces u := by
  have hrow : Row (pieces t ++ .point b.toNat :: pieces u) := by
    refine (row_pieces t).append_cons hb ?_
    rw [← pieces_ascii hb]
    exact row_pieces (b :: u)
  have hread := hrow.pieces_ofPieces
  rwa [ofPieces_append, ofPieces_cons, Piece.bytes, encodePoint_toNat hb, ofPieces_pieces,
    ofPieces_pieces, List.singleton_append] at hread

/-! ## Trimming -/

/-- The pieces without white space at both ends. -/
def trimRow (ps : List Piece) : List Piece := (ps.dropWhile Piece.isBlank).rdropWhile Piece.isBlank

theorem trimRow_isPart (ps : List Piece) : trimRow ps <:+: ps :=
  (List.rdropWhile_prefix _ _).isInfix.trans (List.dropWhile_suffix _).isInfix

theorem trim_eq (t : Text) : trim t = ofPieces (trimRow (pieces t)) := rfl

/-- Trimming a text trims its pieces. -/
theorem pieces_trim (t : Text) : pieces (trim t) = trimRow (pieces t) :=
  ((row_pieces t).of_part (trimRow_isPart _)).pieces_ofPieces

end

end Mcs51.Text
