/-
Whole numbers as they are written are read back, where people type them
(`readTypedInteger?_signedNumeral`) and in a query
(`readQueryInteger_signedNumeral`), as long as they are not too long to be
written. The two readers share the limit on digits, so they part only on
texts that are no numerals.
-/
import Mathlib
import PhraseGrammar.Text.Integer
import PhraseGrammar.Service.Query
import PhraseGrammar.Proofs.EscapeFacts
import PhraseGrammar.Proofs.NumeralFacts

namespace PhraseGrammar

/-! ## Digits -/

theorem isDigit_iff {c : Char} : c.isDigit = true ↔ 48 ≤ c.toNat ∧ c.toNat ≤ 57 := by
  simp [Char.isDigit, UInt32.le_iff_toNat_le]

theorem digitValue?_of_isDigit {c : Char} (h : c.isDigit = true) :
    digitValue? c = some (c.toNat - '0'.toNat) := by
  obtain ⟨hlow, hhigh⟩ := isDigit_iff.mp h
  have hfirst : (decide (0x30 ≤ c.toNat) && decide (c.toNat < 0x30 + 10)) = true := by
    simp only [Bool.and_eq_true, decide_eq_true_eq]
    omega
  have hzeros : digitZeros = 0x30 :: digitZeros.tail := rfl
  rw [digitValue?, hzeros, List.find?_cons]
  simp only [hfirst, Option.map_some]
  rfl

theorem typedDigits?_of_digits {ds : Text} (h : ∀ c ∈ ds, c.isDigit = true) {after : Bool}
    (hsome : after = true ∨ ds ≠ []) :
    typedDigits? after ds = some (ds.map fun c => c.toNat - '0'.toNat) := by
  induction ds generalizing after with
  | nil =>
    have hafter : after = true := hsome.resolve_right (by simp)
    rw [typedDigits?, if_pos hafter, List.map_nil]
  | cons c ds ih =>
    have hc := digitValue?_of_isDigit (h c (by simp))
    have hds := ih (fun d hd => h d (by simp [hd])) (.inl rfl : true = true ∨ ds ≠ [])
    simp only [typedDigits?, hc, hds, Option.map_some, List.map_cons]

theorem foldl_digits (ds : Text) :
    (ds.map fun c => c.toNat - '0'.toNat).foldl (fun n d => n * 10 + d) 0 = digitsValue ds := by
  rw [List.foldl_map, digitsValue, Nat.ofDigitChars]
  simp only [Nat.mul_comm]

theorem eq_zero_of_numeral_head {n : Nat} (h : (numeral n).head? = some '0') : n = 0 := by
  obtain ⟨ds, hds⟩ := List.head?_eq_some_iff.mp h
  have hvalue : digitsValue ('0' :: ds) = n := by rw [← hds, digitsValue_numeral]
  have hrest : digitsValue ('0' :: ds) = digitsValue ds := rfl
  have hdigits : ∀ c ∈ ds, c.isDigit = true := fun c hc =>
    isDigit_of_mem_numeral (n := n) (by simp [hds, hc])
  cases ds with
  | nil => exact hvalue.symm
  | cons d ds =>
    -- without the zero, fewer digits would do for the number
    have hlt : n < Nat.pow 10 (d :: ds).length := by
      rw [← hvalue, hrest]
      exact digitsValue_lt hdigits
    have hle := (length_numeral_le (by simp)).mpr hlt
    rw [hds] at hle
    simp at hle

/-! ## Signed numerals -/

theorem signedNumeral_cases (n : Int) :
    (n < 0 ∧ signedNumeral n = '-' :: numeral n.natAbs) ∨
      (0 ≤ n ∧ signedNumeral n = numeral n.natAbs) := by
  unfold signedNumeral
  split
  · next h => exact .inl ⟨h, rfl⟩
  · next h => exact .inr ⟨by omega, rfl⟩

theorem mem_signedNumeral {n : Int} {c : Char} (h : c ∈ signedNumeral n) :
    c = '-' ∨ c.isDigit = true := by
  rcases signedNumeral_cases n with ⟨-, hn⟩ | ⟨-, hn⟩ <;> rw [hn] at h
  · exact (List.mem_cons.mp h).imp_right isDigit_of_mem_numeral
  · exact .inr (isDigit_of_mem_numeral h)

theorem trimBoth_signedNumeral (n : Int) : trimBoth isWhiteSpace (signedNumeral n) = signedNumeral n := by
  refine trimBoth_eq_self fun c hc => ?_
  rcases mem_signedNumeral hc with rfl | hc
  · rfl
  · obtain ⟨hlow, hhigh⟩ := isDigit_iff.mp hc
    simp [isWhiteSpace]
    omega

theorem short_of_natAbs_le {n : Int} (h : n.natAbs ≤ 1000) : tooLongToWrite n = false := by
  have hpow : Nat.pow 10 4 ≤ Nat.pow 10 digitLimit := pow_ten_le (by decide)
  have hlt : n.natAbs < Nat.pow 10 4 := Nat.lt_of_le_of_lt h (by decide)
  exact decide_eq_false (Nat.not_le.mpr (Nat.lt_of_lt_of_le hlt hpow))

theorem not_digitLimit_lt_numeral {n : Int} (h : tooLongToWrite n = false) :
    ¬ digitLimit < (numeral n.natAbs).length :=
  Nat.not_lt.mpr (length_numeral_le_iff.mpr h)

/-- What is written of a number reads as the number that was typed. -/
theorem readTypedInteger?_signedNumeral {n : Int} (h : tooLongToWrite n = false) :
    readTypedInteger? (signedNumeral n) = some n := by
  have hdigits : typedDigits? false (numeral n.natAbs) = some _ :=
    typedDigits?_of_digits (fun _ => isDigit_of_mem_numeral) (.inr (numeral_ne_nil _))
  have hshort := not_digitLimit_lt_numeral h
  rw [readTypedInteger?, trimBoth_signedNumeral]
  rcases signedNumeral_cases n with ⟨hneg, hn⟩ | ⟨hpos, hn⟩
  · rw [hn]
    simp only [hdigits, List.length_map, if_neg hshort, foldl_digits, digitsValue_numeral, if_true,
      Option.some.injEq]
    omega
  · obtain ⟨c, ds, hhead, hc⟩ := numeral_head n.natAbs
    have hminus : c ≠ '-' := by rintro rfl; cases hc
    have hplus : c ≠ '+' := by rintro rfl; cases hc
    rw [hn]
    split
    next negative digits hsplit =>
    obtain ⟨rfl, rfl⟩ : negative = false ∧ digits = numeral n.natAbs := by
      rw [hhead] at hsplit ⊢
      split at hsplit
      · next heq => exact absurd (List.cons.inj heq).1 hminus
      · next heq => exact absurd (List.cons.inj heq).1 hplus
      · simpa [eq_comm] using hsplit
    simp only [hdigits, List.length_map, if_neg hshort, foldl_digits, digitsValue_numeral,
      Bool.false_eq_true, if_false, Option.some.injEq]
    omega

theorem readPlain_signedNumeral {n : Int} (h : tooLongToWrite n = false) :
    readPlain (signedNumeral n) = .ok n := by
  have hcut : cutMinus (signedNumeral n) = (decide (n < 0), numeral n.natAbs) := by
    rcases signedNumeral_cases n with ⟨hneg, hn⟩ | ⟨hpos, hn⟩
    · rw [hn, cutMinus, decide_eq_true hneg]
    · obtain ⟨c, ds, hhead, hc⟩ := numeral_head n.natAbs
      have hminus : c ≠ '-' := by rintro rfl; cases hc
      have hnot : ¬ n < 0 := by omega
      rw [hn, hhead, decide_eq_false hnot]
      unfold cutMinus
      split
      · next heq => exact absurd (List.cons.inj heq).1 hminus
      · rfl
  have htake : (numeral n.natAbs).takeWhile Char.isDigit = numeral n.natAbs :=
    List.takeWhile_eq_self_iff.mpr fun _ => isDigit_of_mem_numeral
  have hsign : (if n < 0 then -(n.natAbs : Int) else n.natAbs) = n := by split <;> omega
  have hshort := not_digitLimit_lt_numeral h
  rw [readPlain, hcut]
  simp only [htake]
  split
  · next hnil => exact absurd hnil (numeral_ne_nil _)
  · next rest hzero =>
    have hn : n.natAbs = 0 := eq_zero_of_numeral_head (by rw [hzero]; rfl)
    have hrest : numeral n.natAbs = ['0'] := by rw [hn]; rfl
    obtain rfl : n = 0 := by omega
    rw [if_pos hrest]
  · simp only [if_neg hshort, if_true, digitsValue_numeral, decide_eq_true_eq, hsign]

theorem readQueryInteger_signedNumeral {n : Int} (h : tooLongToWrite n = false) :
    readQueryInteger (signedNumeral n) = .ok n := by
  rw [readQueryInteger, readPlain_signedNumeral h]

end PhraseGrammar
