import Mathlib.Data.List.Basic
import Mathlib.Data.Nat.Digits.Defs
import Mcs51.Proofs.NegatedBits

/-!
# The values of literals

What a literal is, apart from the way it is read: how it marks its radix (`Numeral.Marked`), and
which numbers its digits are (`Numeral.Written`). Some letters that mark a radix are hexadecimal
digits too, so the mark at the start wins, and a letter is a mark only at the end and after some
digit.

* `Numeral.split_eq_iff`: a text marks one radix, and leaves the digits that are found
* `Numeral.all_isDigitOf_iff`, `Numeral.value_map_digitByte`: digits are read as they are written,
  and their value is that of `Nat.ofDigits`
* `Numeral.parse_exact`: which texts are literals, with which values, and what is wrong with others
-/

namespace Mcs51

theorem Text.dropPrefix?_eq_some_iff {start t rest : Text} :
    dropPrefix? start t = some rest ↔ t = start ++ rest := by
  refine ⟨eq_append_of_dropPrefix?, ?_⟩
  rintro rfl
  induction start with
  | nil => rfl
  | cons b start ih => rw [List.cons_append, dropPrefix?, if_pos (beq_self_eq_true b), ih]

/-- The letters that mark a radix at the end of a literal. -/
def Radix.letters : Radix → Text
  | .binary => Text.ofString "b"
  | .octal => Text.ofString "oq"
  | .decimal => Text.ofString "d"
  | .hexadecimal => Text.ofString "h"

theorem Radix.ofSuffix?_eq_some_iff {b : UInt8} {radix : Radix} :
    ofSuffix? b = some radix ↔ b ∈ radix.letters := by
  refine Text.forall_byte (p := fun b => ofSuffix? b = some radix ↔ b ∈ radix.letters) ?_ b
  cases radix <;> decide +kernel

theorem Radix.base_le (radix : Radix) : radix.base ≤ 16 := by
  cases radix <;> decide

namespace Numeral

/-! ## Marks of a radix -/

/-- How a literal in lower case marks its radix, and the digits that its mark leaves. -/
inductive Marked (lowered : Text) : Radix → Text → Prop
  /-- `0x` stands in front. -/
  | front {digits : Text} (htext : lowered = Text.ofString "0x" ++ digits) :
    Marked lowered .hexadecimal digits
  /-- A letter stands at the end, and `0x` does not stand in front. -/
  | letter {radix : Radix} {digits : Text} {b : UInt8} (hfront : ¬ Text.ofString "0x" <+: lowered)
    (htext : lowered = digits ++ [b]) (hdigits : digits ≠ []) (hletter : b ∈ radix.letters) :
    Marked lowered radix digits
  /-- There is no mark, so the literal is decimal. -/
  | none (hfront : ¬ Text.ofString "0x" <+: lowered)
    (hletter : ∀ digits b, lowered = digits ++ [b] → digits ≠ [] →
      ∀ radix : Radix, b ∉ radix.letters) :
    Marked lowered .decimal lowered

/-- The last of several bytes marks a radix. -/
theorem letter_eq_some_iff {lowered : Text} {radix : Radix} :
    1 < lowered.length ∧ (lowered.getLast? >>= Radix.ofSuffix?) = some radix ↔
      ∃ digits b, lowered = digits ++ [b] ∧ digits ≠ [] ∧ b ∈ radix.letters := by
  constructor
  · rintro ⟨hlength, hradix⟩
    obtain ⟨b, hlast, hletter⟩ := Option.bind_eq_some_iff.mp hradix
    obtain ⟨digits, rfl⟩ := List.getLast?_eq_some_iff.mp hlast
    refine ⟨digits, b, rfl, ?_, Radix.ofSuffix?_eq_some_iff.mp hletter⟩
    rintro rfl
    exact absurd hlength (by simp)
  · rintro ⟨digits, b, rfl, hdigits, hletter⟩
    have hpos := List.length_pos_iff.mpr hdigits
    refine ⟨by rw [List.length_append, List.length_singleton]; omega, ?_⟩
    rw [List.getLast?_append, List.getLast?_singleton]
    exact Radix.ofSuffix?_eq_some_iff.mpr hletter

/-- **What splitting a literal finds is what the literal marks.** -/
theorem marked_split (lowered : Text) : Marked lowered (split lowered).1 (split lowered).2 := by
  unfold split
  split
  · next digits hfront => exact .front (Text.dropPrefix?_eq_some_iff.mp hfront)
  · next hfront =>
    have hfront : ¬ Text.ofString "0x" <+: lowered := by
      rintro ⟨rest, rfl⟩
      rw [Text.dropPrefix?_eq_some_iff.mpr rfl] at hfront
      cases hfront
    split
    · next hlength =>
      split
      · next radix hradix =>
        obtain ⟨digits, b, rfl, hdigits, hletter⟩ := letter_eq_some_iff.mp ⟨hlength, hradix⟩
        rw [List.dropLast_concat]
        exact .letter hfront rfl hdigits hletter
      · next hradix =>
        refine .none hfront fun digits b htext hdigits radix hletter => ?_
        rw [(letter_eq_some_iff.mpr ⟨digits, b, htext, hdigits, hletter⟩).2] at hradix
        cases hradix
    · next hlength =>
      refine .none hfront fun digits b htext hdigits radix hletter => hlength ?_
      exact (letter_eq_some_iff.mpr ⟨digits, b, htext, hdigits, hletter⟩).1

/-- A literal marks one radix, and leaves the same digits. -/
theorem Marked.unique {lowered digits digits' : Text} {radix radix' : Radix}
    (h : Marked lowered radix digits) (h' : Marked lowered radix' digits') :
    radix = radix' ∧ digits = digits' := by
  cases h with
  | front htext =>
    cases h' with
    | front htext' => exact ⟨rfl, List.append_cancel_left (htext.symm.trans htext')⟩
    | letter hfront => exact absurd ⟨_, htext.symm⟩ hfront
    | none hfront => exact absurd ⟨_, htext.symm⟩ hfront
  | letter hfront htext hdigits hletter =>
    cases h' with
    | front htext' => exact absurd ⟨_, htext'.symm⟩ hfront
    | letter _ htext' _ hletter' =>
      obtain ⟨rfl, hb⟩ := List.append_inj' (htext.symm.trans htext') rfl
      cases hb
      have hradix := Radix.ofSuffix?_eq_some_iff.mpr hletter
      rw [Radix.ofSuffix?_eq_some_iff.mpr hletter', Option.some.injEq] at hradix
      exact ⟨hradix.symm, rfl⟩
    | none _ hnone => exact absurd hletter (hnone _ _ htext hdigits _)
  | none hfront hnone =>
    cases h' with
    | front htext' => exact absurd ⟨_, htext'.symm⟩ hfront
    | letter _ htext hdigits hletter => exact absurd hletter (hnone _ _ htext hdigits _)
    | none => exact ⟨rfl, rfl⟩

theorem split_eq_iff {lowered digits : Text} {radix : Radix} :
    split lowered = (radix, digits) ↔ Marked lowered radix digits := by
  constructor
  · intro h
    have hmarked := marked_split lowered
    rwa [h] at hmarked
  · intro h
    obtain ⟨hradix, hdigits⟩ := (marked_split lowered).unique h
    rw [← hradix, ← hdigits]

/-! ## Digits -/

/-- Reading a digit undoes writing it. -/
theorem digit?_digitByte {d : Nat} (h : d < 16) : digit? (Text.digitByte d) = some d := by
  have hall : ∀ d < 16, digit? (Text.digitByte d) = some d := by decide
  exact hall d h

theorem digitByte_of_digit? {b : UInt8} {d : Nat} (h : digit? b = some d) :
    Text.digitByte d = b := by
  have hall : ∀ b, ∀ d ∈ digit? b, Text.digitByte d = b :=
    Text.forall_byte (p := fun b => ∀ d ∈ digit? b, Text.digitByte d = b) (by decide +kernel)
  exact hall b d h

theorem isDigitOf_iff {base : Nat} {b : UInt8} (hbase : base ≤ 16) :
    isDigitOf base b = true ↔ ∃ d < base, b = Text.digitByte d := by
  unfold isDigitOf
  constructor
  · intro h
    split at h
    · next d hd => exact ⟨d, of_decide_eq_true h, (digitByte_of_digit? hd).symm⟩
    · cases h
  · rintro ⟨d, hd, rfl⟩
    rw [digit?_digitByte (Nat.lt_of_lt_of_le hd hbase)]
    exact decide_eq_true hd

/-- Bytes that are digits of a base are numbers below the base, written as digits. -/
theorem all_isDigitOf_iff {base : Nat} (hbase : base ≤ 16) : ∀ {text : Text},
    text.all (isDigitOf base) = true ↔
      ∃ digits : List Nat, (∀ d ∈ digits, d < base) ∧ text = digits.map Text.digitByte
  | [] => by
    refine iff_of_true rfl ⟨[], fun d hd => absurd hd List.not_mem_nil, rfl⟩
  | b :: text => by
    rw [List.all_cons, Bool.and_eq_true, isDigitOf_iff hbase, all_isDigitOf_iff hbase]
    constructor
    · rintro ⟨⟨d, hd, rfl⟩, digits, hdigits, rfl⟩
      exact ⟨d :: digits, List.forall_mem_cons.mpr ⟨hd, hdigits⟩, rfl⟩
    · rintro ⟨digits, hdigits, htext⟩
      obtain ⟨d, rest, rfl, rfl, rfl⟩ := List.map_eq_cons_iff.mp htext.symm
      obtain ⟨hd, hrest⟩ := List.forall_mem_cons.mp hdigits
      exact ⟨⟨d, hd, rfl⟩, rest, hrest, rfl⟩

/-- **The value of digits is the sum of their multiples of powers of the base.** -/
theorem value_map_digitByte (base : Nat) {digits : List Nat} (h : ∀ d ∈ digits, d < 16) :
    value base (digits.map Text.digitByte) = Nat.ofDigits base digits.reverse := by
  have hstep : ∀ n, ∀ d ∈ digits,
      n * base + (digit? (Text.digitByte d)).getD 0 = d + base * n := by
    intro n d hd
    rw [digit?_digitByte (h d hd), Option.getD_some, Nat.mul_comm, Nat.add_comm]
  calc value base (digits.map Text.digitByte)
      = digits.foldl (fun n d => n * base + (digit? (Text.digitByte d)).getD 0) 0 :=
        List.foldl_map
    _ = digits.foldl (fun n d => d + base * n) 0 := List.foldl_ext _ _ _ hstep
    _ = digits.reverse.foldr (fun d n => d + base * n) 0 := List.foldr_reverse.symm
    _ = Nat.ofDigits base digits.reverse := (Nat.ofDigits_eq_foldr base _).symm

/-! ## Literals -/

/-- The text in lower case is a literal of the radix with the digits, the most significant first. -/
structure Written (lowered : Text) (radix : Radix) (digits : List Nat) : Prop where
  marked : Marked lowered radix (digits.map Text.digitByte)
  nonempty : digits ≠ []
  below : ∀ d ∈ digits, d < radix.base

/-- The digits that a mark leaves are digits of its radix if and only if the text is a literal. -/
theorem Marked.digits_iff {lowered text : Text} {radix : Radix} (h : Marked lowered radix text) :
    (!text.isEmpty && text.all (isDigitOf radix.base)) = true ↔
      ∃ digits, text = digits.map Text.digitByte ∧ Written lowered radix digits := by
  rw [Bool.and_eq_true, Bool.not_eq_true', List.isEmpty_eq_false_iff,
    all_isDigitOf_iff radix.base_le]
  constructor
  · rintro ⟨hne, digits, hbelow, rfl⟩
    exact ⟨digits, rfl, h, fun hnil => hne (by rw [hnil, List.map_nil]), hbelow⟩
  · rintro ⟨digits, rfl, hwritten⟩
    refine ⟨fun hnil => hwritten.nonempty (List.map_eq_nil_iff.mp hnil), digits, ?_, rfl⟩
    exact hwritten.below

theorem parse_of_written {t : Text} {radix : Radix} {digits : List Nat}
    (h : Written (Text.lower t) radix digits) :
    parse t = .ok (min (Nat.ofDigits radix.base digits.reverse) largest) := by
  have hdigits := h.marked.digits_iff.mpr ⟨digits, rfl, h⟩
  have hvalue := value_map_digitByte radix.base
    fun d hd => Nat.lt_of_lt_of_le (h.below d hd) radix.base_le
  simp only [parse, split_eq_iff.mpr h.marked, hdigits, if_true, hvalue]

theorem parse_of_not_written {t text : Text} {radix : Radix}
    (hmarked : Marked (Text.lower t) radix text)
    (h : ¬ ∃ radix digits, Written (Text.lower t) radix digits) :
    parse t = .error ⟨t, radix⟩ := by
  have hdigits : ¬ (!text.isEmpty && text.all (isDigitOf radix.base)) = true := by
    intro hall
    obtain ⟨digits, _, hwritten⟩ := hmarked.digits_iff.mp hall
    exact h ⟨radix, digits, hwritten⟩
  simp only [parse, split_eq_iff.mpr hmarked, hdigits, Bool.false_eq_true, if_false]

/-- **A literal has its exact value, up to the largest one.** Whatever the bytes of a text are, it
is read as a number exactly if its lower-case form is a literal, and then as the value of the digits
or, if that is smaller, as the largest number of 63 bits. For any other text the error has the text
and the radix that the text marks. -/
theorem parse_exact (t : Text) :
    (∀ n, parse t = .ok n ↔ ∃ radix digits, Written (Text.lower t) radix digits ∧
      n = min (Nat.ofDigits radix.base digits.reverse) 0x7fffffffffffffff) ∧
    ∀ e, parse t = .error e ↔ e.text = t ∧ (∃ text, Marked (Text.lower t) e.radix text) ∧
      ¬ ∃ radix digits, Written (Text.lower t) radix digits := by
  by_cases h : ∃ radix digits, Written (Text.lower t) radix digits
  · obtain ⟨radix, digits, hwritten⟩ := h
    have hparse := parse_of_written hwritten
    refine ⟨fun n => ⟨fun hn => ?_, ?_⟩, fun e => ⟨fun he => ?_, ?_⟩⟩
    · rw [hparse, Except.ok.injEq] at hn
      exact ⟨radix, digits, hwritten, hn.symm⟩
    · rintro ⟨radix', digits', hwritten', rfl⟩
      exact parse_of_written hwritten'
    · rw [hparse] at he
      cases he
    · rintro ⟨_, _, hnone⟩
      exact absurd ⟨radix, digits, hwritten⟩ hnone
  · have hparse := parse_of_not_written (marked_split (Text.lower t)) h
    refine ⟨fun n => ⟨fun hn => ?_, ?_⟩, fun e => ⟨fun he => ?_, ?_⟩⟩
    · rw [hparse] at hn
      cases hn
    · rintro ⟨radix, digits, hwritten, _⟩
      exact absurd ⟨radix, digits, hwritten⟩ h
    · rw [hparse, Except.error.injEq] at he
      subst he
      exact ⟨rfl, ⟨_, marked_split _⟩, h⟩
    · rintro ⟨rfl, ⟨text, hmarked⟩, _⟩
      exact parse_of_not_written hmarked h

end Numeral
end Mcs51
