/-
A store as the additions that make it. Listing the options of a store, rule by
rule, and adding them one after the other to the empty store gives the store
back (`addAll_additions`), if it has no rule without options. So two stores of
that kind are equal as soon as their additions are, and what a function does
to a store can be told by what it does to the additions.
-/
import PhraseGrammar.Proofs.StoreInvariant

namespace PhraseGrammar

/-- An option to be added to a rule. -/
structure Addition where
  rule : Text
  value : Text
  weight : Nat
  deriving DecidableEq

/-- The options of a rule, as they are added. -/
def Rule.additions (r : Rule) : List Addition := r.options.map fun o => ⟨r.name, o.value, o.weight⟩

/-- The rule has options, and none of them is empty. -/
structure Rule.Filled (r : Rule) : Prop where
  options : r.options ≠ []
  values : ∀ o ∈ r.options, o.value ≠ []

theorem keptWeight_of_pos {n : Nat} (h : 1 ≤ n) : keptWeight n = n := by
  unfold keptWeight
  split <;> omega

namespace Store

/-- All options of a store: rules in the order of their creation, options in
the order of the rule. -/
def additions (s : Store) : List Addition := s.rules.flatMap fun e => e.2.additions

/-- Adds options one after the other. -/
def addAll (s : Store) (as : List Addition) : Store :=
  as.foldl (fun s a => s.add a.rule a.value a.weight) s

/-- No rule without options, and no option without a value. -/
def Filled (s : Store) : Prop := ∀ e ∈ s.rules, e.2.Filled

theorem addAll_nil (s : Store) : s.addAll [] = s := rfl

theorem addAll_cons (s : Store) (a : Addition) (as : List Addition) :
    s.addAll (a :: as) = (s.add a.rule a.value a.weight).addAll as := rfl

theorem addAll_append (s : Store) (as bs : List Addition) :
    s.addAll (as ++ bs) = (s.addAll as).addAll bs := List.foldl_append

/-! ## What every addition keeps -/

theorem WellFormed.addAll {s : Store} (h : s.WellFormed) (as : List Addition) :
    (s.addAll as).WellFormed := by
  induction as generalizing s with
  | nil => exact h
  | cons a as ih => exact ih (h.add a.rule a.value a.weight)

/-- A property of every rule, kept by adding an option to a rule that has it
and had by a rule with one option, holds after all additions. -/
theorem addAll_forall {P : Text × Rule → Prop} {s : Store} {as : List Addition}
    (hs : ∀ e ∈ s.rules, P e)
    (hnew : ∀ a ∈ as, P (a.rule, (Rule.empty a.rule).add a.value a.weight))
    (hold : ∀ a ∈ as, ∀ r, P (a.rule, r) → P (a.rule, r.add a.value a.weight)) :
    ∀ e ∈ (s.addAll as).rules, P e := by
  induction as generalizing s with
  | nil => exact hs
  | cons a as ih =>
    refine ih (fun e he => ?_) (fun b hb => hnew b (by simp [hb])) fun b hb => hold b (by simp [hb])
    rcases mem_rules_add he with ⟨he, -⟩ | ⟨r, rfl, hr | ⟨-, rfl⟩⟩
    · exact hs e he
    · exact hold a (by simp) r (hs _ hr)
    · exact hnew a (by simp)

/-- Every rule made by additions has options, and every option of it is what
one of them asked for. -/
theorem addAll_provenance (as : List Addition) : ∀ e ∈ (Store.empty.addAll as).rules,
    e.2.name = e.1 ∧ e.2.options ≠ [] ∧
      ∀ o ∈ e.2.options, ∃ a ∈ as, a.rule = e.2.name ∧ o = ⟨a.value, keptWeight a.weight⟩ := by
  refine addAll_forall (by simp [Store.empty]) ?_ ?_
  · intro a ha
    refine ⟨rfl, by simp [Rule.add], fun o ho => ⟨a, ha, rfl, ?_⟩⟩
    simpa [Rule.add, Rule.empty] using ho
  · rintro a ha r ⟨hname, -, hr⟩
    refine ⟨hname, by simp [Rule.add], fun o ho => ?_⟩
    simp only [Rule.add, List.mem_append, List.mem_singleton] at ho
    rcases ho with ho | rfl
    · exact hr o ho
    · exact ⟨a, ha, hname.symm, rfl⟩

theorem filled_addAll {as : List Addition} (h : ∀ a ∈ as, a.value ≠ []) :
    (Store.empty.addAll as).Filled := by
  intro e he
  obtain ⟨-, hne, hopts⟩ := addAll_provenance as e he
  refine ⟨hne, fun o ho => ?_⟩
  obtain ⟨a, ha, -, rfl⟩ := hopts o ho
  exact h a ha

/-! ## Adding to the last rule -/

theorem update_last {pre : List (Text × Rule)} {name : Text} (hn : name ∉ pre.map (·.1)) (r : Rule)
    (start : Option Text) (f : Rule → Rule) :
    (Store.mk (pre ++ [(name, r)]) start).update name f = ⟨pre ++ [(name, f r)], start⟩ := by
  have hpre : pre.map (fun e => if e.1 = name then (e.1, f e.2) else e) = pre := by
    refine (List.map_congr_left fun e he => if_neg ?_).trans (List.map_id' pre)
    rintro rfl
    exact hn (List.mem_map_of_mem he)
  simp [update, hpre]

/-- The options of one rule, added to a store that does not have it or has it
last. -/
theorem addAll_last {pre : List (Text × Rule)} {name : Text} (hn : name ∉ pre.map (·.1))
    {os : List WeightedValue} (hos : ∀ o ∈ os, 1 ≤ o.weight) (r : Rule) (start : Option Text) :
    (Store.mk (pre ++ [(name, r)]) start).addAll (os.map fun o => ⟨name, o.value, o.weight⟩) =
      ⟨pre ++ [(name, { r with
        options := r.options ++ os
        totalWeight := r.totalWeight + weightSum os })], start⟩ := by
  induction os generalizing r with
  | nil => simp [addAll_nil, weightSum]
  | cons o os ih =>
    have hmem : name ∈ (Store.mk (pre ++ [(name, r)]) start).names := by simp [names]
    rw [List.map_cons, addAll_cons, add, ensure_of_mem hmem, update_last hn,
      ih fun o' ho' => hos o' (by simp [ho'])]
    simp [Rule.add, weightSum, keptWeight_of_pos (hos o (by simp)), Nat.add_assoc]

theorem addAll_new {s : Store} {r : Rule} (hn : r.name ∉ s.names) (hb : r.Balanced)
    (hne : r.options ≠ []) :
    s.addAll r.additions = ⟨s.rules ++ [(r.name, r)], some (s.start.getD r.name)⟩ := by
  obtain ⟨name, options, totalWeight⟩ := r
  cases options with
  | nil => exact absurd rfl hne
  | cons o os =>
    have htotal := hb.total
    have hpos := hb.positive
    simp only [weightSum, List.mem_cons, forall_eq_or_imp] at htotal hpos
    rw [Rule.additions, List.map_cons, addAll_cons, add, ensure_of_not_mem hn, update_last hn,
      addAll_last hn hpos.2]
    simp [Rule.add, Rule.empty, keptWeight_of_pos hpos.1, htotal]

/-! ## Every store from its additions -/

theorem addAll_flatMap (pre suf : List (Text × Rule)) (hd : ((pre ++ suf).map (·.1)).Nodup)
    (hsuf : ∀ e ∈ suf, e.2.name = e.1 ∧ e.2.Balanced ∧ e.2.options ≠ []) :
    (Store.mk pre (pre.map (·.1)).head?).addAll (suf.flatMap fun e => e.2.additions) =
      ⟨pre ++ suf, ((pre ++ suf).map (·.1)).head?⟩ := by
  induction suf generalizing pre with
  | nil => simp [addAll_nil]
  | cons e suf ih =>
    obtain ⟨key, r⟩ := e
    obtain ⟨hname, hb, hne⟩ := hsuf (key, r) (by simp)
    obtain rfl : r.name = key := hname
    have happ : pre ++ (r.name, r) :: suf = (pre ++ [(r.name, r)]) ++ suf := by simp
    have hn : r.name ∉ pre.map (·.1) := by
      intro hmem
      rw [List.map_append, List.nodup_append] at hd
      exact hd.2.2 _ hmem _ (by simp) rfl
    rw [happ] at hd ⊢
    rw [List.flatMap_cons, addAll_append, addAll_new hn hb hne, ← ih _ hd fun e he => hsuf e (by simp [he])]
    cases pre <;> rfl

/-- **A store is made by its additions**, if every rule has options. -/
theorem addAll_additions {s : Store} (h : s.WellFormed) (hf : s.Filled) :
    Store.empty.addAll s.additions = s := by
  have hrules := addAll_flatMap [] s.rules h.distinct fun e he =>
    ⟨h.filed e he, h.balanced e he, (hf e he).options⟩
  rw [additions]
  exact hrules.trans (by rw [List.nil_append]; exact congrArg (Store.mk s.rules) h.start.symm)

/-! ## Every well-formed store can be made -/

theorem Reachable.addAll {s : Store} (h : s.Reachable) (as : List Addition) : (s.addAll as).Reachable := by
  induction as generalizing s with
  | nil => exact h
  | cons a as ih => exact ih (.add a.rule a.value (.whole a.weight) h)

/-- `ensure` creates a new rule at the end, and adding its options fills it. -/
theorem ensure_addAll_additions {s : Store} {r : Rule} (hn : r.name ∉ s.names) (hb : r.Balanced) :
    (s.ensure r.name).addAll r.additions = ⟨s.rules ++ [(r.name, r)], some (s.start.getD r.name)⟩ := by
  obtain ⟨name, options, totalWeight⟩ := r
  rw [ensure_of_not_mem hn, Rule.additions, addAll_last hn hb.positive]
  simp [Rule.empty, ← hb.total]

theorem reachable_append (pre suf : List (Text × Rule)) (hpre : (Store.mk pre (pre.map (·.1)).head?).Reachable)
    (hd : ((pre ++ suf).map (·.1)).Nodup) (hsuf : ∀ e ∈ suf, e.2.name = e.1 ∧ e.2.Balanced) :
    (Store.mk (pre ++ suf) ((pre ++ suf).map (·.1)).head?).Reachable := by
  induction suf generalizing pre with
  | nil => simpa using hpre
  | cons e suf ih =>
    obtain ⟨key, r⟩ := e
    obtain ⟨hname, hb⟩ := hsuf (key, r) (by simp)
    obtain rfl : r.name = key := hname
    have happ : pre ++ (r.name, r) :: suf = (pre ++ [(r.name, r)]) ++ suf := by simp
    have hn : r.name ∉ pre.map (·.1) := by
      intro hmem
      rw [List.map_append, List.nodup_append] at hd
      exact hd.2.2 _ hmem _ (by simp) rfl
    have hmade := (hpre.ensure r.name).addAll r.additions
    rw [ensure_addAll_additions hn hb] at hmade
    rw [happ] at hd ⊢
    refine ih _ ?_ hd fun e he => hsuf e (by simp [he])
    cases pre <;> exact hmade

/-- **The invariant is all there is to the stores that can be made.** -/
theorem reachable_iff_wellFormed {s : Store} : s.Reachable ↔ s.WellFormed := by
  refine ⟨Reachable.wellFormed, fun h => ?_⟩
  obtain ⟨rules, start⟩ := s
  obtain rfl : start = (rules.map (·.1)).head? := h.start
  exact reachable_append [] rules .empty h.distinct fun e he => ⟨h.filed e he, h.balanced e he⟩

end Store

end PhraseGrammar
