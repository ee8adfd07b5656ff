import Mcs51.Proofs.EncodedText
import Mcs51.Proofs.OperandClassification

/-!
# Decimal literals

The decimal form of a number reads back as the number: it is a row of digits (`Text.digits_ofNat`)
with the right value (`Text.valueOfDigits_ofNat`), and as it has no letters, nothing in it chooses
another radix (`Numeral.parse_ofNat`).
-/

namespace Mcs51

namespace Text

/-! ## Digits -/

theorem isDigit_iff {b : UInt8} : isDigit b = true ↔ 0x30 ≤ b.toNat ∧ b.toNat ≤ 0x39 := by
  simp only [isDigit, Bool.and_eq_true, decide_eq_true_eq, UInt8.le_iff_toNat_le]
  rfl

theorem isDigit_digitByte {d : Nat} (h : d < 10) :
    isDigit (digitByte d) = true ∧ digitValue (digitByte d) = d := by
  have hall : ∀ d < 10, isDigit (digitByte d) = true ∧ digitValue (digitByte d) = d := by decide
  exact hall d h

theorem digitsOnto_append (base : Nat) : ∀ (n : Nat) (rest : Text),
    digitsOnto base n rest = digitsOnto base n [] ++ rest := by
  intro n
  induction n using Nat.strongRecOn with
  | ind n ih =>
    intro rest
    rw [digitsOnto, digitsOnto.eq_1 base n []]
    split
    · next hbase =>
      have hlt : n / base < n := Nat.div_lt_self (by omega) (by omega)
      rw [ih _ hlt (digitByte (n % base) :: rest), ih _ hlt [digitByte (n % base)],
        List.append_assoc]
      rfl
    · rfl

theorem ofNat_of_lt {n : Nat} (h : n < 10) : ofNat n = [digitByte n] := by
  rw [ofNat, ofNatBase, digitsOnto, dif_neg (by omega)]

/-- The last digit stands after the digits of the rest. -/
theorem ofNat_of_le {n : Nat} (h : 10 ≤ n) :
    ofNat n = ofNat (n / 10) ++ [digitByte (n % 10)] := by
  rw [ofNat, ofNatBase, digitsOnto, dif_pos ⟨by omega, h⟩, digitsOnto_append]
  rfl

/-- A number has at least one digit, and nothing but digits. -/
theorem digits_ofNat (n : Nat) : ofNat n ≠ [] ∧ ∀ b ∈ ofNat n, isDigit b = true := by
  induction n using Nat.strongRecOn with
  | ind n ih =>
    by_cases h : n < 10
    · rw [ofNat_of_lt h]
      exact ⟨List.cons_ne_nil _ _, fun b hb => List.mem_singleton.mp hb ▸ (isDigit_digitByte h).1⟩
    · have hlt : n / 10 < n := Nat.div_lt_self (by omega) (by omega)
      rw [ofNat_of_le (by omega)]
      refine ⟨List.append_ne_nil_of_right_ne_nil _ (List.cons_ne_nil _ _), fun b hb => ?_⟩
      rcases List.mem_append.mp hb with hb | hb
      · exact (ih _ hlt).2 b hb
      · rw [List.mem_singleton.mp hb]
        exact (isDigit_digitByte (Nat.mod_lt n (by decide))).1

theorem valueOfDigits_append (digits : Text) (b : UInt8) :
    valueOfDigits (digits ++ [b]) = valueOfDigits digits * 10 + digitValue b := by
  simp [valueOfDigits]

/-- **The digits of a number have its value.** -/
theorem valueOfDigits_ofNat (n : Nat) : valueOfDigits (ofNat n) = n := by
  induction n using Nat.strongRecOn with
  | ind n ih =>
    by_cases h : n < 10
    · rw [ofNat_of_lt h, valueOfDigits, List.foldl_cons, List.foldl_nil, (isDigit_digitByte h).2]
      omega
    · rw [ofNat_of_le (by omega), valueOfDigits_append,
        ih _ (Nat.div_lt_self (by omega) (by omega)),
        (isDigit_digitByte (Nat.mod_lt n (by decide))).2]
      omega

theorem ascii_of_isDigit {b : UInt8} (h : isDigit b = true) : b < 0x80 := by
  rw [UInt8.lt_iff_toNat_lt]
  exact Nat.lt_of_le_of_lt (isDigit_iff.mp h).2 (by decide)

theorem lowerByte_ascii {b : UInt8} (h : b < 0x80) : lowerByte b < 0x80 ∧
    isUpper (lowerByte b) = false ∧ lowerPoint b.toNat = (lowerByte b).toNat := by
  revert h
  exact forall_byte (p := fun b => b < 0x80 → lowerByte b < 0x80 ∧ isUpper (lowerByte b) = false ∧
    lowerPoint b.toNat = (lowerByte b).toNat) (by decide +kernel) b

/-- In ASCII the lower case is found byte by byte. -/
theorem lower_ascii : ∀ {t : Text}, (∀ b ∈ t, b < 0x80) → lower t = t.map lowerByte
  | [], _ => rfl
  | b :: t, h => by
    obtain ⟨hb, ht⟩ := List.forall_mem_cons.mp h
    obtain ⟨hascii, _, hpoint⟩ := lowerByte_ascii hb
    have ih := lower_ascii ht
    unfold lower codes at ih ⊢
    rw [pieces_ascii hb, List.map_cons, List.map_cons, encode, List.flatMap_cons, Piece.code,
      hpoint, encodePoint_toNat hascii]
    exact congrArg (lowerByte b :: ·) ih

/-- Text without capital letters, and of ASCII characters only, is in lower case. -/
theorem lower_of_ascii {t : Text} (h : ∀ b ∈ t, b < 0x80 ∧ isUpper b = false) : lower t = t := by
  have hbyte : ∀ b ∈ t, lowerByte b = b := fun b hb => by
    rw [lowerByte, (h b hb).2]
    rfl
  rw [lower_ascii fun b hb => (h b hb).1, List.map_congr_left hbyte, List.map_id']

theorem lower_digits {t : Text} (h : ∀ b ∈ t, isDigit b = true) : lower t = t := by
  refine lower_of_ascii fun b hb => ⟨ascii_of_isDigit (h b hb), ?_⟩
  have hdigit := isDigit_iff.mp (h b hb)
  have hnot : ¬ (0x41 : UInt8) ≤ b := by
    rw [UInt8.le_iff_toNat_le]
    exact Nat.not_le.mpr (Nat.lt_of_le_of_lt hdigit.2 (by decide))
  simp [isUpper, hnot]

/-- A byte that is no digit does not stand in a row of digits. -/
theorem cut?_digits {sep : UInt8} (hsep : isDigit sep = false) {t : Text}
    (h : ∀ b ∈ t, isDigit b = true) : cut? sep t = none := by
  refine cut?_eq_none_iff.mpr fun hmem => ?_
  have hdigit := h sep hmem
  rw [hsep] at hdigit
  cases hdigit

end Text

namespace Numeral

open Text (isDigit ofNat)

/-! ## Reading -/

/-- A row of digits is a decimal literal. -/
theorem split_digits {t : Text} (h : ∀ b ∈ t, isDigit b = true) : split t = (.decimal, t) := by
  have hhex : Text.dropPrefix? "0x" t = none := by
    show Text.dropPrefix? [0x30, 0x78] t = none
    rcases t with _ | ⟨b, _ | ⟨c, t⟩⟩
    · rfl
    · simp [Text.dropPrefix?]
    · have hc : ((0x78 : UInt8) == c) = false := by
        refine beq_eq_false_iff_ne.mpr fun heq => ?_
        have hdigit := h c (by simp)
        rw [← heq] at hdigit
        cases hdigit
      simp [Text.dropPrefix?, hc]
  have hsuffix : (t.getLast? >>= Radix.ofSuffix?) = none := by
    have hall : ∀ b, isDigit b = true → Radix.ofSuffix? b = none :=
      Text.forall_byte (by decide +kernel)
    cases hlast : t.getLast? with
    | none => rfl
    | some b => exact hall b (h b (List.mem_of_getLast? hlast))
  rw [split, hhex]
  simp only [hsuffix]
  split <;> rfl

theorem digit?_of_isDigit {b : UInt8} (h : isDigit b = true) :
    digit? b = some (Text.digitValue b) :=
  if_pos h

theorem isDigitOf_ten {b : UInt8} (h : isDigit b = true) : isDigitOf 10 b = true := by
  have hbound := Text.isDigit_iff.mp h
  rw [isDigitOf, digit?_of_isDigit h]
  refine decide_eq_true (?_ : Text.digitValue b < 10)
  rw [Text.digitValue]
  omega

theorem value_digits {t : Text} (h : ∀ b ∈ t, isDigit b = true) :
    value 10 t = Text.valueOfDigits t := by
  have hfold : ∀ (t : Text) (n : Nat), (∀ b ∈ t, isDigit b = true) →
      t.foldl (fun n b => n * 10 + (digit? b).getD 0) n
        = t.foldl (fun n b => n * 10 + Text.digitValue b) n := by
    intro t
    induction t with
    | nil => exact fun _ _ => rfl
    | cons b t ih =>
      intro n hdigits
      rw [List.foldl_cons, List.foldl_cons, digit?_of_isDigit (hdigits b List.mem_cons_self),
        Option.getD_some]
      exact ih _ fun c hc => hdigits c (List.mem_cons_of_mem b hc)
  exact hfold t 0 h

/-- **The decimal form of a number reads as the number.** -/
theorem parse_ofNat {n : Nat} (h : n ≤ largest) : parse (ofNat n) = .ok n := by
  obtain ⟨hne, hdigits⟩ := Text.digits_ofNat n
  have hall : (ofNat n).all (isDigitOf 10) = true :=
    List.all_eq_true.mpr fun b hb => isDigitOf_ten (hdigits b hb)
  have hnonempty : (ofNat n).isEmpty = false := List.isEmpty_eq_false_iff.mpr hne
  simp only [parse, Text.lower_digits hdigits, split_digits hdigits, Radix.base, hall, hnonempty,
    value_digits hdigits, Text.valueOfDigits_ofNat, Nat.min_eq_left h]
  rfl

theorem looksNumeric_ofNat (n : Nat) : looksNumeric (ofNat n) = true := by
  obtain ⟨hne, hdigits⟩ := Text.digits_ofNat n
  cases hn : ofNat n with
  | nil => exact absurd hn hne
  | cons b t => exact hdigits b (hn ▸ List.mem_cons_self)

end Numeral

theorem readNumber_ofNat {n limit : Nat} (h : n ≤ limit) (hlimit : limit ≤ Numeral.largest)
    (pos : Position) : readNumber (Text.ofNat n) limit pos = .done n := by
  simp only [readNumber, Numeral.parse_ofNat (Nat.le_trans h hlimit), if_pos h]

end Mcs51
