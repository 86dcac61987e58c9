/-
Facts about numerals: they are made of digits, they have a number of digits
within the limit exactly if they can be written, and the number that a numeral
within the limit reads as can be written again.
-/
import PhraseGrammar.Numeral

namespace PhraseGrammar

theorem isDigit_of_mem_numeral {n : Nat} {c : Char} (h : c ∈ numeral n) : c.isDigit = true :=
  Nat.isDigit_of_mem_toDigits (by decide) (by decide) h

theorem numeral_ne_nil (n : Nat) : numeral n ≠ [] := Nat.toDigits_ne_nil

theorem numeral_head (n : Nat) : ∃ c ds, numeral n = c :: ds ∧ c.isDigit = true := by
  obtain ⟨c, ds, h⟩ := List.exists_cons_of_ne_nil (numeral_ne_nil n)
  exact ⟨c, ds, h, isDigit_of_mem_numeral (n := n) (by simp [h])⟩

theorem tooLongToWrite_eq_false {n : Nat} :
    tooLongToWrite n = false ↔ n < Nat.pow 10 digitLimit := by
  simp [tooLongToWrite]

theorem length_numeral_le {n k : Nat} (hk : 0 < k) : (numeral n).length ≤ k ↔ n < Nat.pow 10 k :=
  Nat.length_toDigits_le_iff (by decide) hk

/-- A number can be written exactly if its numeral is within the limit. -/
theorem length_numeral_le_iff {n : Nat} :
    (numeral n).length ≤ digitLimit ↔ tooLongToWrite n = false := by
  rw [tooLongToWrite_eq_false]
  exact length_numeral_le (by decide)

theorem writeNumeral_of_short {n : Nat} (h : tooLongToWrite n = false) :
    writeNumeral n = .ok (numeral n) := by
  rw [writeNumeral, h]
  rfl

theorem readNumeral_numeral {n : Nat} (h : tooLongToWrite n = false) :
    readNumeral (numeral n) = .ok n := by
  have hlen : ¬ digitLimit < (numeral n).length := Nat.not_lt.mpr (length_numeral_le_iff.mpr h)
  rw [readNumeral, if_neg hlen, digitsValue_numeral]

theorem digit_value_lt {c : Char} (h : c.isDigit = true) : c.toNat - '0'.toNat < 10 := by
  have hd : 48 ≤ c.toNat ∧ c.toNat ≤ 57 := by
    simpa [Char.isDigit, UInt32.le_iff_toNat_le] using h
  have h0 : '0'.toNat = 48 := rfl
  omega

theorem digitsValue_lt {ds : Text} (h : ∀ c ∈ ds, c.isDigit = true) :
    digitsValue ds < Nat.pow 10 ds.length := by
  unfold digitsValue
  induction ds with
  | nil => decide
  | cons d ds ih =>
    have hds := ih fun c hc => h c (by simp [hc])
    have hd : Nat.pow 10 ds.length * (d.toNat - '0'.toNat) ≤ Nat.pow 10 ds.length * 9 :=
      Nat.mul_le_mul_left _ (Nat.le_of_lt_succ (digit_value_lt (h d (by simp))))
    have hpow : Nat.pow 10 (d :: ds).length = Nat.pow 10 ds.length * 10 := rfl
    have hval : Nat.ofDigitChars 10 (d :: ds) 0 =
        Nat.pow 10 ds.length * (d.toNat - '0'.toNat) + Nat.ofDigitChars 10 ds 0 := by
      rw [Nat.ofDigitChars_cons, Nat.ofDigitChars_eq_ofDigitChars_zero, Nat.mul_zero, Nat.zero_add]
      rfl
    omega

theorem pow_ten_le {k l : Nat} (h : k ≤ l) : Nat.pow 10 k ≤ Nat.pow 10 l :=
  Nat.pow_le_pow_right (by decide) h

theorem short_of_readNumeral {ds : Text} {n : Nat} (hd : ∀ c ∈ ds, c.isDigit = true)
    (h : readNumeral ds = .ok n) : tooLongToWrite n = false := by
  unfold readNumeral at h
  split at h
  · cases h
  · next hlen =>
    cases h
    rw [tooLongToWrite_eq_false]
    exact Nat.lt_of_lt_of_le (digitsValue_lt hd) (pow_ten_le (Nat.le_of_not_lt hlen))

end PhraseGrammar
