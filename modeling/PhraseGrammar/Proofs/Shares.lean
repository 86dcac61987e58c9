/-
Which option a draw stands for. Each option of a rule has as many of the numbers
below the total as it weighs, and its share starts where the shares before it end.
The draw of a rule is one number below the total, and the rule gives the value of
the option whose share has that number (`drawsByShare_of_adds`).

The walk along the shares is told here with the position at which it stops, so that
stopping at an option is not the same as going past the last one, where there is
nothing to give. A walk stops exactly at the option whose share has the number
(`walk?_eq_some_iff`), from which the rest follows: the position is unique since the
walk is a function, and no number below the total goes past the last option.
-/
import Mathlib
import PhraseGrammar.Proofs.WeightCopies

namespace PhraseGrammar

/-! ## Shares -/

/-- The weights of the options before a position. -/
def weightBefore (os : List WeightedValue) (k : Nat) : Nat := weightSum (os.take k)

/-- The number is in the share of the option at a position. -/
def InShare (os : List WeightedValue) (k r : Nat) : Prop :=
  weightBefore os k ≤ r ∧ r < weightBefore os (k + 1)

instance (os : List WeightedValue) (k r : Nat) : Decidable (InShare os k r) :=
  inferInstanceAs (Decidable (_ ∧ _))

/-- The position at which the walk along the shares stops, if it does not go past
the last option. -/
def walk? (r : Nat) : List WeightedValue → Option Nat
  | [] => none
  | o :: rest => if r < o.weight then some 0 else (walk? (r - o.weight) rest).map (· + 1)

theorem weightBefore_zero (os : List WeightedValue) : weightBefore os 0 = 0 := rfl

theorem weightBefore_cons (o : WeightedValue) (os : List WeightedValue) (k : Nat) :
    weightBefore (o :: os) (k + 1) = o.weight + weightBefore os k := rfl

theorem weightBefore_succ {os : List WeightedValue} {k : Nat} {o : WeightedValue}
    (h : os[k]? = some o) : weightBefore os (k + 1) = weightBefore os k + o.weight := by
  rw [weightBefore, weightBefore, List.take_add_one, weightSum_append, h]
  rfl

theorem weightBefore_le (os : List WeightedValue) (k : Nat) : weightBefore os k ≤ weightSum os := by
  have hsplit : weightSum os = weightBefore os k + weightSum (os.drop k) := by
    rw [weightBefore, ← weightSum_append, List.take_append_drop]
  omega

theorem walk?_eq_some_iff {os : List WeightedValue} {k r : Nat} :
    walk? r os = some k ↔ InShare os k r := by
  induction os generalizing k r with
  | nil => simp [walk?, InShare, weightBefore, weightSum]
  | cons o os ih =>
    rw [walk?]
    cases k with
    | zero =>
      have hshare : InShare (o :: os) 0 r ↔ r < o.weight := by
        simp [InShare, weightBefore_cons, weightBefore_zero]
      rw [hshare]
      split
      · next hr => simp [hr]
      · next hr => simp [hr]
    | succ k =>
      rw [InShare, weightBefore_cons, weightBefore_cons]
      split
      · next hr =>
        simp only [Option.some.injEq]
        omega
      · next hr =>
        simp only [Option.map_eq_some_iff, Nat.add_right_cancel_iff, exists_eq_right]
        rw [ih, InShare]
        omega

theorem exists_walk {os : List WeightedValue} {r : Nat} (h : r < weightSum os) : ∃ k, walk? r os = some k := by
  induction os generalizing r with
  | nil => exact absurd h (Nat.not_lt_zero r)
  | cons o os ih =>
    rw [walk?]
    split
    · exact ⟨0, rfl⟩
    · next hr =>
      rw [weightSum] at h
      obtain ⟨k, hk⟩ := ih (r := r - o.weight) (by omega)
      exact ⟨k + 1, by rw [hk]; rfl⟩

/-- The walk gives the value of the option at which it stops, and nothing past the
last one. -/
theorem valueAt_eq_walk (os : List WeightedValue) (r : Nat) :
    valueAt r os = (((walk? r os).bind (os[·]?)).map (·.value)).getD [] := by
  induction os generalizing r with
  | nil => rfl
  | cons o os ih =>
    rw [valueAt, walk?]
    split
    · rfl
    · rw [ih]
      cases walk? (r - o.weight) os <;> rfl

theorem valueAt_of_inShare {os : List WeightedValue} {k r : Nat} {o : WeightedValue}
    (ho : os[k]? = some o) (hr : InShare os k r) : valueAt r os = o.value := by
  rw [valueAt_eq_walk, walk?_eq_some_iff.mpr hr, Option.bind_some, ho]
  rfl

/-- As many numbers are in the share of an option as it weighs. -/
theorem card_share {os : List WeightedValue} {k : Nat} {o : WeightedValue} (ho : os[k]? = some o) :
    ((Finset.range (weightSum os)).filter (InShare os k)).card = o.weight := by
  have hend := weightBefore_le os (k + 1)
  have hico : (Finset.range (weightSum os)).filter (InShare os k) =
      Finset.Ico (weightBefore os k) (weightBefore os (k + 1)) := by
    ext r
    simp only [Finset.mem_filter, Finset.mem_range, InShare, Finset.mem_Ico]
    omega
  rw [hico, Nat.card_Ico, weightBefore_succ ho, Nat.add_sub_cancel_left]

/-! ## Drawing -/

/-- The rule asks for one number below its total, which is the sum of its weights,
and gives the value of the option whose share has it. -/
structure Rule.DrawsByShare (r : Rule) : Prop where
  total : r.totalWeight = weightSum r.options
  once : ∀ {σ : Type} (next : σ → Nat → Nat × σ) (s : σ),
    (r.pick.run next s).bounds = [r.totalWeight] ∧
      (r.pick.run next s).source = (next s r.totalWeight).2
  unique : ∀ a < r.totalWeight, ∃! k, k < r.options.length ∧ InShare r.options k a
  value : ∀ {σ : Type} (next : σ → Nat → Nat × σ) (s : σ) (k : Nat) (o : WeightedValue),
    r.options[k]? = some o → InShare r.options k (next s r.totalWeight).1 →
      (r.pick.run next s).result = o.value
  count : ∀ k o, r.options[k]? = some o →
    ((Finset.range r.totalWeight).filter (InShare r.options k)).card = o.weight
  shortcut : r.totalWeight = r.options.length → ∀ a < r.totalWeight,
    (r.options[a]?).map (·.value) = some (valueAt a r.options)
  stops : ∀ a < r.totalWeight, ∃ k < r.options.length, walk? a r.options = some k

theorem lt_length_of_inShare {os : List WeightedValue} {k r : Nat} (h : InShare os k r) : k < os.length := by
  refine Nat.lt_of_not_le fun hle => ?_
  rw [InShare, weightBefore, weightBefore, List.take_of_length_le hle,
    List.take_of_length_le (Nat.le_succ_of_le hle)] at h
  omega

theorem Rule.Balanced.drawsByShare {r : Rule} (h : r.Balanced) (hne : r.options ≠ []) : r.DrawsByShare := by
  have htotal := h.total
  have hpick := h.pick_eq_walk hne
  have hstop {a : Nat} (ha : a < r.totalWeight) : ∃ k, walk? a r.options = some k := exists_walk (htotal ▸ ha)
  refine ⟨htotal, fun next s => ?_, fun a ha => ?_, fun next s k o ho hk => ?_, fun k o ho => ?_,
    fun hlight a ha => ?_, fun a ha => ?_⟩
  · rw [hpick, htotal]
    exact ⟨rfl, rfl⟩
  · obtain ⟨k, hk⟩ := hstop ha
    have hshare := walk?_eq_some_iff.mp hk
    refine ⟨k, ⟨lt_length_of_inShare hshare, hshare⟩, ?_⟩
    rintro k' ⟨-, hk'⟩
    rw [← walk?_eq_some_iff, hk, Option.some.injEq] at hk'
    exact hk'.symm
  · rw [htotal] at hk
    rw [hpick]
    exact valueAt_of_inShare ho hk
  · rw [htotal]
    exact card_share ho
  · -- weights that make up no more than the number of options are all one
    have hcopies := copies_of_light h.positive (Nat.le_of_eq (htotal ▸ hlight))
    have hlength : a < r.options.length := hlight ▸ ha
    have hvalue := getElem?_copies r.options a
    rw [hcopies] at hvalue
    rw [← hvalue, List.getElem?_eq_getElem hlength]
    rfl
  · obtain ⟨k, hk⟩ := hstop ha
    exact ⟨k, lt_length_of_inShare (walk?_eq_some_iff.mp hk), hk⟩

/-! ## Rules made by additions -/

/-- Adds options one after the other. -/
def Rule.addEach (r : Rule) (adds : List (Text × Int)) : Rule :=
  adds.foldl (fun r a => r.add a.1 a.2) r

theorem Rule.options_addEach (r : Rule) (adds : List (Text × Int)) :
    (r.addEach adds).options = r.options ++ adds.map fun a => ⟨a.1, keptWeight a.2⟩ := by
  induction adds generalizing r with
  | nil => simp [addEach]
  | cons a adds ih =>
    have hstep : r.addEach (a :: adds) = (r.add a.1 a.2).addEach adds := rfl
    rw [hstep, ih, Rule.add]
    simp

theorem Rule.Balanced.addEach {r : Rule} (h : r.Balanced) (adds : List (Text × Int)) :
    (r.addEach adds).Balanced := by
  induction adds generalizing r with
  | nil => exact h
  | cons a adds ih => exact ih (h.add a.1 a.2)

/-- **A rule draws by weight, exactly.** However its options were added, with weights
of any sign and size, it asks for one number below the sum of the weights that were
kept, and gives the value of the one option whose share has the number. So each
option has as many of the draws as it weighs; where all weights are one, going by the
position finds the same; and no draw goes past the last option. -/
theorem drawsByShare_of_adds (name : Text) {adds : List (Text × Int)} (hne : adds ≠ []) :
    let r := (Rule.empty name).addEach adds
    r.options = adds.map (fun a => ⟨a.1, keptWeight a.2⟩) ∧ r.DrawsByShare := by
  intro r
  have hoptions : r.options = adds.map fun a => ⟨a.1, keptWeight a.2⟩ := by
    rw [Rule.options_addEach]
    rfl
  have hsome : r.options ≠ [] := by simpa [hoptions] using hne
  exact ⟨hoptions, ((Rule.Balanced.empty name).addEach adds).drawsByShare hsome⟩

/-- A weight of zero and a negative one count one; the last of four draws is the second
of the option that weighs two. -/
theorem drawsByShare_of_mixed_signs :
    let adds : List (Text × Int) := [(['a'], 0), (['b'], -3), (['c'], 2)]
    let r := (Rule.empty ['r']).addEach adds
    adds ≠ [] ∧ r.totalWeight = 4 ∧ InShare r.options 2 3 ∧
      (r.pick.run Source.next (.scripted [3])).result = ['c'] ∧
      (r.pick.run Source.next (.scripted [3])).bounds = [4] := by
  intro adds r
  have hne : adds ≠ [] := by decide
  have htotal : r.totalWeight = 4 := by decide
  have hshare : InShare r.options 2 3 := by decide
  obtain ⟨-, hdraws⟩ := drawsByShare_of_adds ['r'] hne
  have hanswer : (Source.next (.scripted [3]) r.totalWeight).1 = 3 := by decide
  refine ⟨hne, htotal, hshare, ?_, ?_⟩
  · exact hdraws.value Source.next (.scripted [3]) 2 ⟨['c'], 2⟩ (by decide) (hanswer ▸ hshare)
  · rw [(hdraws.once Source.next (.scripted [3])).1, htotal]

end PhraseGrammar
