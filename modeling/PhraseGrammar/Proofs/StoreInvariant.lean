/-
The store invariant: whatever was done to a store, every rule is filed under
its own name and once only, its weights are positive and its total is their
sum, and the starting rule is the first of the rules.

Operations that fail are among what can be done: reading stops at a fault and
keeps what it added, and an option whose weight is no number still creates its
rule. So the invariant is proved of `ensure` and `add`, which make up all of
them, and carried along a run by induction (`Store.Reachable.wellFormed`).
-/
import PhraseGrammar.Script

namespace PhraseGrammar

/-- The sum of the weights of options. -/
def weightSum : List WeightedValue → Nat
  | [] => 0
  | o :: os => o.weight + weightSum os

theorem weightSum_append (os os' : List WeightedValue) :
    weightSum (os ++ os') = weightSum os + weightSum os' := by
  induction os with
  | nil => exact (Nat.zero_add _).symm
  | cons o os ih => rw [List.cons_append, weightSum, ih, weightSum, Nat.add_assoc]

/-- The total of a rule is the sum of its weights, which are positive. -/
structure Rule.Balanced (r : Rule) : Prop where
  positive : ∀ o ∈ r.options, 1 ≤ o.weight
  total : r.totalWeight = weightSum r.options

theorem Rule.Balanced.empty (name : Text) : (Rule.empty name).Balanced := ⟨by simp [Rule.empty], rfl⟩

theorem Rule.Balanced.add {r : Rule} (h : r.Balanced) (value : Text) (weight : Int) :
    (r.add value weight).Balanced where
  positive o ho := by
    simp only [Rule.add, List.mem_append, List.mem_singleton] at ho
    rcases ho with ho | rfl
    · exact h.positive o ho
    · exact keptWeight_pos weight
  total := by
    rw [Rule.add, weightSum_append, ← h.total]
    rfl

namespace Store

/-- What every store keeps that is made by its operations. -/
structure WellFormed (s : Store) : Prop where
  filed : ∀ e ∈ s.rules, e.2.name = e.1
  distinct : s.names.Nodup
  balanced : ∀ e ∈ s.rules, e.2.Balanced
  start : s.start = s.names.head?

/-- The stores that the operations lead to from the empty one, whether they
fail or not. -/
inductive Reachable : Store → Prop
  | empty : Reachable .empty
  | read {s : Store} (script : Text) : Reachable s → Reachable (s.read script).store
  | add {s : Store} (name value : Text) (weight : Weight) :
      Reachable s → Reachable (s.addWeighted name value weight).1
  | ensure {s : Store} (name : Text) : Reachable s → Reachable (s.ensure name)

/-! ## What one operation does -/

theorem contains_iff {s : Store} {name : Text} : s.contains name = true ↔ name ∈ s.names := by
  simp only [contains, get?, names, List.lookup_isSome_iff, List.mem_map, beq_iff_eq]
  constructor
  · intro h
    obtain ⟨e, he, h⟩ := h
    exact ⟨e, he, h.symm⟩
  · intro h
    obtain ⟨e, he, h⟩ := h
    exact ⟨e, he, h.symm⟩

theorem mem_rules_of_get? {s : Store} {name : Text} {r : Rule} (h : s.get? name = some r) :
    (name, r) ∈ s.rules := by
  obtain ⟨l₁, l₂, he, -⟩ := List.lookup_eq_some_iff.mp h
  exact he ▸ by simp

theorem ensure_of_mem {s : Store} {name : Text} (h : name ∈ s.names) : s.ensure name = s := by
  rw [ensure, if_pos (contains_iff.mpr h)]

theorem ensure_of_not_mem {s : Store} {name : Text} (h : name ∉ s.names) :
    s.ensure name = ⟨s.rules ++ [(name, Rule.empty name)], some (s.start.getD name)⟩ := by
  rw [ensure, if_neg (mt contains_iff.mp h)]

theorem names_update (s : Store) (name : Text) (f : Rule → Rule) :
    (s.update name f).names = s.names := by
  simp only [names, update, List.map_map]
  refine List.map_congr_left fun e _ => ?_
  simp only [Function.comp_apply]
  split <;> rfl

theorem names_ensure (s : Store) (name : Text) :
    (s.ensure name).names = if name ∈ s.names then s.names else s.names ++ [name] := by
  by_cases h : name ∈ s.names
  · rw [if_pos h, ensure_of_mem h]
  · rw [if_neg h, ensure_of_not_mem h]
    simp [names]

theorem names_add (s : Store) (name value : Text) (weight : Int) :
    (s.add name value weight).names = if name ∈ s.names then s.names else s.names ++ [name] := by
  rw [add, names_update, names_ensure]

theorem start_add (s : Store) (name value : Text) (weight : Int) :
    (s.add name value weight).start = (s.ensure name).start := rfl

theorem mem_rules_ensure {s : Store} {name : Text} {e : Text × Rule}
    (h : e ∈ (s.ensure name).rules) :
    e ∈ s.rules ∨ (name ∉ s.names ∧ e = (name, Rule.empty name)) := by
  by_cases hn : name ∈ s.names
  · rw [ensure_of_mem hn] at h
    exact .inl h
  · rw [ensure_of_not_mem hn, List.mem_append, List.mem_singleton] at h
    exact h.imp_right fun he => ⟨hn, he⟩

/-- A rule after `add` is another one that was there before, or the named one
with one option more. -/
theorem mem_rules_add {s : Store} {name value : Text} {weight : Int} {e : Text × Rule}
    (h : e ∈ (s.add name value weight).rules) :
    (e ∈ s.rules ∧ e.1 ≠ name) ∨
      ∃ r, e = (name, r.add value weight) ∧
        ((name, r) ∈ s.rules ∨ (name ∉ s.names ∧ r = Rule.empty name)) := by
  simp only [add, update, List.mem_map] at h
  obtain ⟨⟨key, r⟩, hmem, rfl⟩ := h
  by_cases hkey : key = name
  · subst hkey
    refine .inr ⟨r, by simp, ?_⟩
    rcases mem_rules_ensure hmem with h | ⟨hn, he⟩
    · exact .inl h
    · exact .inr ⟨hn, congrArg Prod.snd he⟩
  · rw [if_neg hkey]
    rcases mem_rules_ensure hmem with h | ⟨-, he⟩
    · exact .inl ⟨h, hkey⟩
    · exact absurd (congrArg Prod.fst he) hkey

/-! ## The invariant -/

theorem WellFormed.empty : WellFormed .empty :=
  ⟨by simp [Store.empty], List.nodup_nil, by simp [Store.empty], rfl⟩

theorem nodup_grow {ns : List Text} (h : ns.Nodup) (name : Text) :
    (if name ∈ ns then ns else ns ++ [name]).Nodup := by
  split
  · exact h
  · next hn => exact List.nodup_append.mpr ⟨h, by simp, by rintro a ha b hb rfl; simp_all⟩

theorem WellFormed.start_ensure {s : Store} (h : s.WellFormed) (name : Text) :
    (s.ensure name).start = (s.ensure name).names.head? := by
  rw [names_ensure]
  by_cases hn : name ∈ s.names
  · rw [if_pos hn, ensure_of_mem hn, h.start]
  · rw [if_neg hn, ensure_of_not_mem hn, h.start]
    cases s.names <;> rfl

theorem WellFormed.ensure {s : Store} (h : s.WellFormed) (name : Text) :
    (s.ensure name).WellFormed where
  filed e he := by
    rcases mem_rules_ensure he with he | ⟨-, rfl⟩
    · exact h.filed e he
    · rfl
  distinct := by
    rw [names_ensure]
    exact nodup_grow h.distinct name
  balanced e he := by
    rcases mem_rules_ensure he with he | ⟨-, rfl⟩
    · exact h.balanced e he
    · exact Rule.Balanced.empty name
  start := h.start_ensure name

theorem WellFormed.add {s : Store} (h : s.WellFormed) (name value : Text) (weight : Int) :
    (s.add name value weight).WellFormed where
  filed e he := by
    rcases mem_rules_add he with ⟨he, -⟩ | ⟨r, rfl, hr | ⟨-, rfl⟩⟩
    · exact h.filed e he
    · exact h.filed (name, r) hr
    · rfl
  distinct := by
    rw [names_add]
    exact nodup_grow h.distinct name
  balanced e he := by
    rcases mem_rules_add he with ⟨he, -⟩ | ⟨r, rfl, hr | ⟨-, rfl⟩⟩
    · exact h.balanced e he
    · exact (h.balanced _ hr).add value weight
    · exact (Rule.Balanced.empty name).add value weight
  start := by
    rw [start_add, h.start_ensure, names_ensure, names_add]

theorem WellFormed.addWeighted {s : Store} (h : s.WellFormed) (name value : Text) (weight : Weight) :
    (s.addWeighted name value weight).1.WellFormed := by
  unfold Store.addWeighted
  split
  · exact h.add name value _
  · exact h.ensure name

theorem WellFormed.readLines {s : Store} (h : s.WellFormed) (rule : Text) (added : Nat)
    (lines : List Text) : (readLines s rule added lines).store.WellFormed := by
  induction lines generalizing s rule added with
  | nil => exact h
  | cons line rest ih =>
    rw [PhraseGrammar.readLines]
    split
    · exact h
    · exact ih h _ _
    · split
      · exact ih h _ _
      · exact ih (h.add rule _ _) _ _

/-- **The store invariant** holds of every store that the operations lead to,
those that fail among them. -/
theorem Reachable.wellFormed {s : Store} (h : s.Reachable) : s.WellFormed := by
  induction h with
  | empty => exact .empty
  | read script _ ih => exact ih.readLines [] 0 _
  | add name value weight _ ih => exact ih.addWeighted name value weight
  | ensure name _ ih => exact ih.ensure name

end Store

end PhraseGrammar
