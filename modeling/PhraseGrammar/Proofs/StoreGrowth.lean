/-
A store only grows. Whatever is done to the store of a workbench, with success
or without, the starting rule stays once it is set, every rule stays where it
is, and what a rule offers is only added to at the end, until the workbench
turns to another store (`afterAll_invariant`).

Reading a script is adding options, and adding an option is `ensure` and then
one change of one rule, so growth is proved of these two and goes through from
step to step because it is transitive.
-/
import PhraseGrammar.Workbench
import PhraseGrammar.Proofs.ScriptAdditions

namespace PhraseGrammar

namespace Store

/-- Every rule of `s` is in `t`, in the same place and with all its options at
the front, and `t` starts where `s` does. -/
structure GrowsInto (s t : Store) : Prop where
  start : ∀ name, s.start = some name → t.start = some name
  rules : ∀ (i : Nat) name r, s.rules[i]? = some (name, r) →
    ∃ r', t.rules[i]? = some (name, r') ∧ r.options <+: r'.options

theorem GrowsInto.refl (s : Store) : s.GrowsInto s :=
  ⟨fun _ h => h, fun _ _ r h => ⟨r, h, List.prefix_refl _⟩⟩

theorem GrowsInto.trans {s t u : Store} (h : s.GrowsInto t) (h' : t.GrowsInto u) : s.GrowsInto u where
  start name hs := h'.start name (h.start name hs)
  rules i name r hr := by
    obtain ⟨r', hr', hprefix⟩ := h.rules i name r hr
    obtain ⟨r'', hr'', hprefix'⟩ := h'.rules i name r' hr'
    exact ⟨r'', hr'', hprefix.trans hprefix'⟩

/-! ## What one operation does -/

theorem growsInto_ensure (s : Store) (name : Text) : s.GrowsInto (s.ensure name) := by
  by_cases h : name ∈ s.names
  · rw [ensure_of_mem h]
    exact .refl s
  · rw [ensure_of_not_mem h]
    constructor
    · intro first hs
      simp [hs]
    · intro i other r hr
      obtain ⟨hi, -⟩ := List.getElem?_eq_some_iff.mp hr
      exact ⟨r, by rw [List.getElem?_append_left hi, hr], List.prefix_refl _⟩

theorem growsInto_update (s : Store) (name : Text) {f : Rule → Rule}
    (hf : ∀ r, r.options <+: (f r).options) : s.GrowsInto (s.update name f) where
  start _ h := h
  rules i other r hr := by
    simp only [update, List.getElem?_map, hr, Option.map_some]
    split
    · exact ⟨f r, rfl, hf r⟩
    · exact ⟨r, rfl, List.prefix_refl _⟩

theorem growsInto_add (s : Store) (name value : Text) (weight : Int) :
    s.GrowsInto (s.add name value weight) :=
  (s.growsInto_ensure name).trans
    (growsInto_update _ name fun _ => List.prefix_append _ _)

theorem growsInto_addWeighted (s : Store) (name value : Text) (weight : Weight) :
    s.GrowsInto (s.addWeighted name value weight).1 := by
  unfold addWeighted
  split
  · exact s.growsInto_add name value _
  · exact s.growsInto_ensure name

theorem growsInto_addAll (s : Store) (as : List Addition) : s.GrowsInto (s.addAll as) := by
  induction as generalizing s with
  | nil => exact .refl s
  | cons a as ih => exact (s.growsInto_add a.rule a.value a.weight).trans (ih _)

theorem growsInto_read (s : Store) (script : Text) : s.GrowsInto (s.read script).store := by
  rw [read_eq]
  exact s.growsInto_addAll _

theorem reachable_ofScript {script : Text} {s : Store} (h : Store.ofScript script = .ok s) :
    s.Reachable := by
  obtain ⟨-, rfl⟩ := ofScript_eq_ok_iff.mp h
  have hread : (Store.empty.read script).store = Store.empty.addAll (scriptAdditions script).1 := by
    rw [read_eq]
  exact hread ▸ .read script .empty

/-! ## What the invariant says of totals and of the start -/

theorem WellFormed.totalWeight_eq_zero_iff {s : Store} (h : s.WellFormed) {e : Text × Rule}
    (he : e ∈ s.rules) : e.2.totalWeight = 0 ↔ e.2.options = [] := by
  have hb := h.balanced e he
  constructor
  · intro hzero
    cases hopts : e.2.options with
    | nil => rfl
    | cons o os =>
      have hpos := hb.positive o (by simp [hopts])
      have htotal := hb.total
      rw [hopts, weightSum] at htotal
      omega
  · intro hnone
    rw [hb.total, hnone]
    rfl

theorem WellFormed.start_eq_none_iff {s : Store} (h : s.WellFormed) : s.start = none ↔ s.rules = [] := by
  rw [h.start, List.head?_eq_none_iff, names, List.map_eq_nil_iff]

end Store

/-! ## Work on a store -/

/-- What can be done to the store of a workbench. -/
inductive StoreWork
  | renew (script : Option Text)
  | read (script : Text)
  | add (name value : Text) (weight : Weight)
  | ensure (name : Text)

/-- The work puts another store in the place of the one under work. -/
def StoreWork.replaces : StoreWork → Bool
  | .renew none => true
  | .renew (some script) => (Store.ofScript script).isOk
  | .read _ | .add .. | .ensure _ => false

namespace Workbench

/-- The workbench after work on its store, whether the work failed or not. -/
def after (b : Workbench) : StoreWork → Workbench
  | .renew none => b.turnTo .empty
  | .renew (some script) =>
    match b.renew script with
    | .ok b' => b'
    | .error _ => b
  | .read script => (b.read script).2
  | .add name value weight => (b.add name value weight).2
  | .ensure name => b.ensure name

/-- The workbench after all work. -/
def afterAll (b : Workbench) (works : List StoreWork) : Workbench := works.foldl after b

theorem afterAll_append (b : Workbench) (works more : List StoreWork) :
    b.afterAll (works ++ more) = (b.afterAll works).afterAll more := List.foldl_append

theorem after_renew_cases (b : Workbench) (script : Text) :
    (∃ s, Store.ofScript script = .ok s ∧ b.after (.renew (some script)) = b.turnTo s) ∨
      ((Store.ofScript script).isOk = false ∧ b.after (.renew (some script)) = b) := by
  cases h : Store.ofScript script with
  | ok s => exact .inl ⟨s, rfl, by simp only [after, renew, h, Except.map]⟩
  | error e => exact .inr ⟨rfl, by simp only [after, renew, h, Except.map]⟩

theorem reachable_after {b : Workbench} (h : b.store.Reachable) (work : StoreWork) :
    (b.after work).store.Reachable := by
  cases work with
  | renew script =>
    cases script with
    | none => exact .empty
    | some script =>
      rcases b.after_renew_cases script with ⟨s, hs, ha⟩ | ⟨-, ha⟩
      · rw [ha]
        exact Store.reachable_ofScript hs
      · rw [ha]
        exact h
  | read script => exact .read script h
  | add name value weight => exact .add name value weight h
  | ensure name => exact .ensure name h

theorem growsInto_after (b : Workbench) {work : StoreWork} (h : work.replaces = false) :
    b.store.GrowsInto (b.after work).store := by
  cases work with
  | renew script =>
    cases script with
    | none => cases h
    | some script =>
      rcases b.after_renew_cases script with ⟨s, hs, -⟩ | ⟨-, ha⟩
      · rw [StoreWork.replaces, hs] at h
        cases h
      · rw [ha]
        exact .refl _
  | read script => exact b.store.growsInto_read script
  | add name value weight => exact b.store.growsInto_addWeighted name value weight
  | ensure name => exact b.store.growsInto_ensure name

theorem reachable_afterAll {b : Workbench} (h : b.store.Reachable) (works : List StoreWork) :
    (b.afterAll works).store.Reachable := by
  induction works generalizing b with
  | nil => exact h
  | cons work works ih => exact ih (reachable_after h work)

theorem growsInto_afterAll (b : Workbench) {works : List StoreWork}
    (h : ∀ work ∈ works, work.replaces = false) : b.store.GrowsInto (b.afterAll works).store := by
  induction works generalizing b with
  | nil => exact .refl _
  | cons work works ih =>
    exact (b.growsInto_after (h work (by simp))).trans
      (ih (b.after work) fun w hw => h w (List.mem_cons_of_mem _ hw))

/-- **The store invariant over whole runs.** After any work, failed work among
it, rules are filed once and under their own names, weights are positive, a
total is the sum of its weights and so zero only without options, and the start
is the first rule, missing only without rules; and each later state of the same
store has grown out of each earlier one. -/
theorem afterAll_invariant (works since : List StoreWork) :
    let s := (empty.afterAll works).store
    (s.WellFormed ∧ (∀ e ∈ s.rules, e.2.totalWeight = 0 ↔ e.2.options = []) ∧
        (s.start = none ↔ s.rules = [])) ∧
      ((∀ work ∈ since, work.replaces = false) →
        s.GrowsInto (empty.afterAll (works ++ since)).store) := by
  intro s
  have h : s.WellFormed := (reachable_afterAll .empty works).wellFormed
  refine ⟨⟨h, fun e he => h.totalWeight_eq_zero_iff he, h.start_eq_none_iff⟩, fun hsince => ?_⟩
  rw [afterAll_append]
  exact growsInto_afterAll _ hsince

/-- A weight that is no number, and a script that cannot be read to its end. -/
theorem growsInto_after_failures :
    let works : List StoreWork := [.add ['a'] ['x'] (.real .notANumber), .add ['b'] ['y'] (.whole (-3))]
    let since : List StoreWork :=
      [.read ("*c\nz\n".toList ++ List.replicate 5000 '1' ++ [':', 'v']), .add ['a'] ['w'] (.whole 2)]
    (∀ work ∈ since, work.replaces = false) ∧
      (empty.afterAll works).store.GrowsInto (empty.afterAll (works ++ since)).store := by
  intro works since
  have hsince : ∀ work ∈ since, work.replaces = false :=
    List.forall_mem_cons.mpr ⟨rfl, List.forall_mem_cons.mpr ⟨rfl, List.forall_mem_nil _⟩⟩
  exact ⟨hsince, (afterAll_invariant works since).2 hsince⟩

end Workbench

end PhraseGrammar
