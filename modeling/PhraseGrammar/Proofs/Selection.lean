/-
Which values a rule can draw: every one of its values, and no other
(`canEnd_pick_iff`). That a value is left out by no draw rests on the store
invariant: each weight is at least one, so each option has a share of the
numbers below the total, and the total is the sum, so no number is past the
last share.
-/
import PhraseGrammar.Proofs.DrawingFacts
import PhraseGrammar.Proofs.StoreInvariant

namespace PhraseGrammar

open Drawing (CanEnd)

/-- A number below the sum of the weights is in the share of some option. -/
theorem valueAt_mem {os : List WeightedValue} {r : Nat} (h : r < weightSum os) :
    ∃ o ∈ os, valueAt r os = o.value := by
  induction os generalizing r with
  | nil => exact absurd h (Nat.not_lt_zero r)
  | cons o os ih =>
    rw [weightSum] at h
    rw [valueAt]
    split
    · exact ⟨o, by simp, rfl⟩
    · obtain ⟨o', ho', hv⟩ := ih (r := r - o.weight) (by omega)
      exact ⟨o', by simp [ho'], hv⟩

theorem exists_valueAt {os : List WeightedValue} {o : WeightedValue} (ho : o ∈ os)
    (hw : 1 ≤ o.weight) : ∃ r < weightSum os, valueAt r os = o.value := by
  induction os with
  | nil => simp at ho
  | cons o' os ih =>
    rw [weightSum]
    rcases List.mem_cons.mp ho with rfl | ho
    · exact ⟨0, by omega, if_pos hw⟩
    · obtain ⟨r, hr, hv⟩ := ih ho
      refine ⟨o'.weight + r, by omega, ?_⟩
      rw [valueAt, if_neg (by omega), Nat.add_sub_cancel_left, hv]

theorem Rule.Balanced.totalWeight_pos {r : Rule} (h : r.Balanced) (hne : r.options ≠ []) :
    0 < r.totalWeight := by
  obtain ⟨o, ho⟩ := List.exists_mem_of_ne_nil _ hne
  obtain ⟨i, hi, -⟩ := exists_valueAt ho (h.positive o ho)
  rw [h.total]
  exact Nat.zero_lt_of_lt hi

/-- **A rule draws every one of its values, and no other**; without options it
gives the empty value. -/
theorem canEnd_pick_iff {r : Rule} (h : r.Balanced) {v : Text} :
    CanEnd r.pick v ↔ (r.options = [] ∧ v = []) ∨ ∃ o ∈ r.options, v = o.value := by
  rw [Rule.pick]
  by_cases hne : r.options = []
  · simp [hne, Drawing.canEnd_done_iff]
  rw [if_neg (by simpa using hne)]
  simp only [hne, false_and, false_or]
  split
  · rw [Drawing.canEnd_draw_iff]
    simp only [Drawing.canEnd_done_iff]
    constructor
    · rintro ⟨i, hi, rfl⟩
      exact ⟨r.options[i], List.getElem_mem hi, by simp [hi]⟩
    · rintro ⟨o, ho, rfl⟩
      obtain ⟨i, hi, rfl⟩ := List.getElem_of_mem ho
      exact ⟨i, hi, by simp [hi]⟩
  · rw [Drawing.canEnd_draw_iff, h.total]
    simp only [Drawing.canEnd_done_iff]
    constructor
    · rintro ⟨i, hi, rfl⟩
      exact valueAt_mem hi
    · rintro ⟨o, ho, rfl⟩
      obtain ⟨i, hi, hv⟩ := exists_valueAt ho (h.positive o ho)
      exact ⟨i, hi, hv.symm⟩

theorem asksPositive_pick {r : Rule} (h : r.Balanced) : r.pick.AsksPositive := by
  rw [Rule.pick]
  split
  · trivial
  next hne =>
  have hne : r.options ≠ [] := by simpa using hne
  split
  · exact ⟨List.length_pos_iff.mpr hne, fun _ => trivial⟩
  · exact ⟨h.totalWeight_pos hne, fun _ => trivial⟩

end PhraseGrammar
