/-
A weight is a number of copies. Where a rule has an option of some weight, it
may as well have as many options of that value, each of weight one: it asks for
the same draw and makes the same value of every answer, so nothing that is
generated changes (`generatesAs_inCopies`).

The rule in copies is drawn from by position, while the rule with weights is
drawn from by a walk along the shares of its options. That the two find the same
value is `getElem?_copies`. The walk is left out where the total is the number of
options, which is where the rule is in copies already (`copies_of_light`).
-/
import Mathlib
import PhraseGrammar.Proofs.Locality
import PhraseGrammar.Proofs.StoreAdditions

namespace PhraseGrammar

/-- An option as options of weight one, as many as it weighs. -/
def WeightedValue.copies (o : WeightedValue) : List WeightedValue := List.replicate o.weight ⟨o.value, 1⟩

/-- Every option of the rule in copies, where it stands. -/
def Rule.inCopies (r : Rule) : Rule :=
  let os := r.options.flatMap WeightedValue.copies
  { r with options := os, totalWeight := weightSum os }

/-- Every rule of the store in copies. -/
def Store.inCopies (s : Store) : Store := { s with rules := s.rules.map fun e => (e.1, e.2.inCopies) }

/-! ## Copies of options -/

theorem weight_of_mem_copies {os : List WeightedValue} {o : WeightedValue}
    (h : o ∈ os.flatMap WeightedValue.copies) : o.weight = 1 := by
  obtain ⟨o', -, ho⟩ := List.mem_flatMap.mp h
  rw [(List.mem_replicate.mp ho).2]

theorem length_copies (os : List WeightedValue) :
    (os.flatMap WeightedValue.copies).length = weightSum os := by
  induction os with
  | nil => rfl
  | cons o os ih =>
    rw [List.flatMap_cons, List.length_append, ih, weightSum, WeightedValue.copies, List.length_replicate]

theorem weightSum_of_ones {os : List WeightedValue} (h : ∀ o ∈ os, o.weight = 1) :
    weightSum os = os.length := by
  induction os with
  | nil => rfl
  | cons o os ih =>
    rw [weightSum, h o List.mem_cons_self, ih fun o' ho' => h o' (List.mem_cons_of_mem o ho'),
      List.length_cons, Nat.add_comm]

/-- The copy at a position has the value whose share of the weights holds it. -/
theorem getElem?_copies (os : List WeightedValue) (i : Nat) :
    (((os.flatMap WeightedValue.copies)[i]?).map (·.value)).getD [] = valueAt i os := by
  induction os generalizing i with
  | nil => rfl
  | cons o os ih =>
    rw [List.flatMap_cons, valueAt]
    split
    · next hi =>
      have hcopy : (o.copies ++ os.flatMap WeightedValue.copies)[i]? = some ⟨o.value, 1⟩ := by
        rw [List.getElem?_append_left (by simpa [WeightedValue.copies] using hi)]
        simp [WeightedValue.copies, hi]
      rw [hcopy]
      rfl
    · next hi =>
      have hlength : o.copies.length = o.weight := List.length_replicate
      rw [List.getElem?_append_right (by omega), hlength]
      exact ih (i - o.weight)

theorem length_le_weightSum {os : List WeightedValue} (hpos : ∀ o ∈ os, 1 ≤ o.weight) :
    os.length ≤ weightSum os := by
  induction os with
  | nil => exact Nat.le_refl 0
  | cons o os ih =>
    have ho := hpos o List.mem_cons_self
    have hos := ih fun o' ho' => hpos o' (List.mem_cons_of_mem o ho')
    rw [weightSum, List.length_cons]
    omega

/-- Options that weigh no more than they are many are their own copies. -/
theorem copies_of_light {os : List WeightedValue} (hpos : ∀ o ∈ os, 1 ≤ o.weight)
    (hlight : weightSum os ≤ os.length) : os.flatMap WeightedValue.copies = os := by
  induction os with
  | nil => rfl
  | cons o os ih =>
    have hpos' : ∀ o' ∈ os, 1 ≤ o'.weight := fun o' ho' => hpos o' (List.mem_cons_of_mem o ho')
    have ho := hpos o List.mem_cons_self
    have hos := length_le_weightSum hpos'
    rw [weightSum, List.length_cons] at hlight
    have hone : o.weight = 1 := by omega
    have hcopies : o.copies = [o] := by
      obtain ⟨value, weight⟩ := o
      obtain rfl : weight = 1 := hone
      rfl
    rw [List.flatMap_cons, hcopies, ih hpos' (by omega), List.singleton_append]

/-! ## Drawing from copies -/

theorem Rule.balanced_inCopies (r : Rule) : r.inCopies.Balanced :=
  ⟨fun _ ho => (weight_of_mem_copies ho).ge, rfl⟩

/-- A rule draws by the walk along its shares; where it takes the shortcut, the
shares are the positions. -/
theorem Rule.Balanced.pick_eq_walk {r : Rule} (h : r.Balanced) (hne : r.options ≠ []) :
    r.pick = .draw (weightSum r.options) fun i => .done (valueAt i r.options) := by
  rw [pick, if_neg (by simpa using hne), h.total]
  split
  · next hlight =>
    rw [hlight]
    refine congrArg (Drawing.draw _) (funext fun i => congrArg Drawing.done ?_)
    rw [← getElem?_copies, copies_of_light h.positive (Nat.le_of_eq hlight)]
  · rfl

theorem Rule.Balanced.pick_inCopies {r : Rule} (h : r.Balanced) : r.inCopies.pick = r.pick := by
  by_cases hne : r.options = []
  · simp [pick, inCopies, hne]
  have hlength := length_copies r.options
  have hpos : 0 < weightSum r.options := h.total ▸ h.totalWeight_pos hne
  have hne' : r.options.flatMap WeightedValue.copies ≠ [] := List.ne_nil_of_length_pos (hlength ▸ hpos)
  have hlight : r.inCopies.totalWeight = r.inCopies.options.length :=
    weightSum_of_ones fun _ => weight_of_mem_copies
  rw [h.pick_eq_walk hne, pick, if_neg (by simpa [inCopies] using hne'), if_pos hlight]
  simp only [inCopies, hlength, getElem?_copies]

/-! ## Generating from copies -/

theorem Store.get?_inCopies (s : Store) (name : Text) :
    s.inCopies.get? name = (s.get? name).map Rule.inCopies := by
  simp only [get?, inCopies]
  induction s.rules with
  | nil => rfl
  | cons e rest ih =>
    rw [List.map_cons, List.lookup_cons, List.lookup_cons]
    split
    · rfl
    · exact ih

theorem Store.WellFormed.inCopies {s : Store} (h : s.WellFormed) : s.inCopies.WellFormed := by
  have hnames : s.inCopies.names = s.names := by
    rw [names, names, Store.inCopies, List.map_map]
    rfl
  refine ⟨fun e he => ?_, hnames ▸ h.distinct, fun e he => ?_, hnames ▸ h.start⟩
  · obtain ⟨e', he', rfl⟩ := List.mem_map.mp he
    exact h.filed e' he'
  · obtain ⟨e', he', rfl⟩ := List.mem_map.mp he
    exact e'.2.balanced_inCopies

/-- **A weight is so many copies.** Every store has a store in copies, in which all
weights are one and no rule is missing or out of its place, and it generates the
same from every name, or from the start, with the same draws. -/
theorem generatesAs_inCopies {s : Store} (hs : s.Reachable) (name : Option Text) :
    s.inCopies.Reachable ∧ s.GeneratesAs s.inCopies name := by
  have hwf := hs.wellFormed
  refine ⟨Store.reachable_iff_wellFormed.mpr hwf.inCopies, ?_⟩
  intro limit levels σ next stop count source
  have hpick (m : Text) : (s.get? m).map Rule.pick = (s.inCopies.get? m).map Rule.pick := by
    rw [Store.get?_inCopies]
    cases hr : s.get? m with
    | none => rfl
    | some r =>
      have hb := hwf.balanced _ (Store.mem_rules_of_get? hr)
      rw [Option.map_some, Option.map_some, Option.map_some, hb.pick_inCopies]
  have hexpand (m : Text) : s.expand limit levels 0 m = s.inCopies.expand limit levels 0 m :=
    Store.expand_congr (fun m _ _ => hpick m) (fun _ _ _ _ _ => trivial) limit levels 0 trivial
  have hgenerate : (Generator.mk s limit levels).generate name =
      (Generator.mk s.inCopies limit levels).generate name := by
    have hstart : s.inCopies.start = s.start := rfl
    simp only [Generator.generate, hstart, hexpand]
  exact Generator.session_congr hgenerate next stop count source

/-- A rule that mixes weights and refers to itself, and one in copies already. -/
theorem generatesAs_three_copies :
    let s : Store :=
      ⟨[(['a'], ⟨['a'], [⟨"[b]".toList, 1⟩, ⟨"[a]y".toList, 3⟩], 4⟩),
        (['b'], ⟨['b'], [⟨['x'], 1⟩, ⟨['z'], 1⟩], 2⟩)], some ['a']⟩
    let u : Store :=
      ⟨[(['a'], ⟨['a'], [⟨"[b]".toList, 1⟩, ⟨"[a]y".toList, 1⟩, ⟨"[a]y".toList, 1⟩,
          ⟨"[a]y".toList, 1⟩], 4⟩),
        (['b'], ⟨['b'], [⟨['x'], 1⟩, ⟨['z'], 1⟩], 2⟩)], some ['a']⟩
    s.Reachable ∧ s.inCopies = u ∧ s.GeneratesAs u none := by
  intro s u
  have hread : (Store.empty.read "*a\n[b]\n3:[a]y\n*b\nx\nz".toList).store = s := by decide
  have hs : s.Reachable := hread ▸ .read _ .empty
  have hu : s.inCopies = u := by decide
  exact ⟨hs, hu, hu ▸ (generatesAs_inCopies hs none).2⟩

end PhraseGrammar
