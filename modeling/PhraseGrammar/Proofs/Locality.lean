/-
What an expansion depends on: the rules that can be got to along references
from the name it starts at, and of these only what they offer. Two stores that
agree on it generate the same phrases and errors from the name, and ask for the
same draws (`generatesAs_of_agreesFrom`); where the rules stand in the store
plays no part.

The two expansions are compared as drawings, before any source answers, and
they turn out to be one drawing. So nothing has to be said of the source, and
the same argument (`Store.expand_congr`) serves whenever the rules of two
stores draw alike, for whatever reason.
-/
import Mathlib
import PhraseGrammar.Proofs.Nesting

namespace PhraseGrammar

/-! ## Drawings that agree -/

/-- What is drawn from a rule is one of its values, or empty, whatever the
answer. -/
theorem valueAt_eq_nil_or_mem (r : Nat) (os : List WeightedValue) :
    valueAt r os = [] ∨ ∃ o ∈ os, valueAt r os = o.value := by
  induction os generalizing r with
  | nil => exact .inl rfl
  | cons o os ih =>
    rw [valueAt]
    split
    · exact .inr ⟨o, by simp, rfl⟩
    · rcases ih (r - o.weight) with h | ⟨o', ho', h⟩
      · exact .inl h
      · exact .inr ⟨o', by simp [ho'], h⟩

/-- Two drawings that go on from a drawn value are one if they agree on the
values of the rule and on the empty one. -/
theorem Rule.pick_bind_congr {α : Type} {r : Rule} {f g : Text → Drawing α} (hnil : f [] = g [])
    (hoptions : ∀ o ∈ r.options, f o.value = g o.value) : r.pick.bind f = r.pick.bind g := by
  unfold Rule.pick
  split
  · exact hnil
  split
  · refine congrArg (Drawing.draw _) (funext fun i => ?_)
    simp only [Drawing.bind]
    cases hi : r.options[i]? with
    | none => exact hnil
    | some o => exact hoptions o (List.mem_of_getElem? hi)
  · refine congrArg (Drawing.draw _) (funext fun i => ?_)
    simp only [Drawing.bind]
    rcases valueAt_eq_nil_or_mem i r.options with h | ⟨o, ho, h⟩
    · rw [h, hnil]
    · rw [h, hoptions o ho]

theorem assemble_congr {expand expand' : Text → Drawing Expanded} {ps : List Piece}
    (h : ∀ name capitalize, Piece.reference name capitalize ∈ ps → expand name = expand' name) :
    assemble expand ps = assemble expand' ps := by
  induction ps with
  | nil => rfl
  | cons p rest ih =>
    have hrest := ih fun name capitalize hmem => h name capitalize (List.mem_cons_of_mem p hmem)
    cases p with
    | literal text => rw [assemble, assemble, hrest]
    | reference name capitalize =>
      rw [assemble, assemble, h name capitalize List.mem_cons_self, hrest]

/-- Expansions in two stores are one drawing, if the rules of every name that
they get to draw alike. `P` holds of these names. -/
theorem Store.expand_congr {s t : Store} {P : Text → Prop}
    (hpick : ∀ name, P name → isLiteralName name = false →
      (s.get? name).map Rule.pick = (t.get? name).map Rule.pick)
    (hnext : ∀ name next, P name → isLiteralName name = false → s.Refers name next → P next)
    (limit : Option Nat) (levels depth : Nat) {name : Text} (hname : P name) :
    s.expand limit levels depth name = t.expand limit levels depth name := by
  induction levels using Nat.strong_induction_on generalizing depth name with
  | _ levels ih =>
    cases hn : isLiteralName name with
    | true => rw [expand_of_literal hn, expand_of_literal hn]
    | false =>
      cases hl : limitReached limit depth with
      | true => rw [expand_of_limit hn hl, expand_of_limit hn hl]
      | false =>
        have hp := hpick name hname hn
        cases hs : s.get? name with
        | none =>
          have ht : t.get? name = none := by simpa [hs] using hp.symm
          rw [expand_of_undefined hn hl hs, expand_of_undefined hn hl ht]
        | some rule =>
          obtain ⟨rule', ht, hsame⟩ : ∃ r, t.get? name = some r ∧ r.pick = rule.pick := by
            simpa [hs] using hp.symm
          cases levels with
          | zero => rw [expand_of_full_stack hn hl hs, expand_of_full_stack hn hl ht]
          | succ levels =>
            rw [expand_of_rule hn hl hs, expand_of_rule hn hl ht, hsame]
            refine Rule.pick_bind_congr (by rw [pieces_nil]; rfl) fun o ho => ?_
            refine assemble_congr fun next capitalize hmem => ?_
            have hrefers : s.Refers name next := ⟨rule, o, capitalize, hs, ho, hmem⟩
            exact ih levels (Nat.lt_succ_self levels) (depth + 1) (hnext name next hname hn hrefers)

/-! ## Generation -/

/-- From the name, or from the starting rule, `t` generates what `s` does: one
phrase or error after the other, with the same draws, for all bounds on nesting,
whatever answers the draws and whichever errors end the session. -/
def Store.GeneratesAs (s t : Store) (name : Option Text) : Prop :=
  ∀ (limit : Option Nat) (levels : Nat) (σ : Type) (next : σ → Nat → Nat × σ)
    (stop : ExpansionError → Bool) (count : Nat) (source : σ),
    (Generator.mk s limit levels).session next stop name count source =
      (Generator.mk t limit levels).session next stop name count source

theorem Generator.session_congr {g g' : Generator} {name : Option Text}
    (h : g.generate name = g'.generate name) {σ : Type} (next : σ → Nat → Nat × σ)
    (stop : ExpansionError → Bool) (count : Nat) (source : σ) :
    g.session next stop name count source = g'.session next stop name count source := by
  induction count generalizing source with
  | zero => rfl
  | succ count ih => simp only [session, h, ih]

/-- The names that an expansion of `name` gets to. A literal name stands for
itself, so nothing is got to through it, even if a rule has that name. -/
inductive Store.Reaches (s : Store) (name : Text) : Text → Prop
  | self : isLiteralName name = false → s.Reaches name name
  | refers {via next : Text} :
      s.Reaches name via → s.Refers via next → isLiteralName next = false → s.Reaches name next

/-- `t` offers what `s` does at every name that `s` gets to: the same values with
the same weights, or no rule. -/
def Store.AgreesFrom (s t : Store) (name : Text) : Prop :=
  ∀ m, s.Reaches name m → (s.get? m).map (·.options) = (t.get? m).map (·.options)

theorem Rule.Balanced.pick_congr {r r' : Rule} (h : r.Balanced) (h' : r'.Balanced)
    (hoptions : r.options = r'.options) : r.pick = r'.pick := by
  have htotal : r.totalWeight = r'.totalWeight := by rw [h.total, h'.total, hoptions]
  rw [pick, pick, hoptions, htotal]

theorem Store.pick_congr_of_options {s t : Store} (hs : s.WellFormed) (ht : t.WellFormed) {name : Text}
    (h : (s.get? name).map (·.options) = (t.get? name).map (·.options)) :
    (s.get? name).map Rule.pick = (t.get? name).map Rule.pick := by
  cases hr : s.get? name with
  | none =>
    have hr' : t.get? name = none := by simpa [hr] using h.symm
    rw [hr']
  | some r =>
    obtain ⟨r', hr', hoptions⟩ : ∃ r', t.get? name = some r' ∧ r'.options = r.options := by
      simpa [hr] using h.symm
    have hb := hs.balanced _ (mem_rules_of_get? hr)
    have hb' := ht.balanced _ (mem_rules_of_get? hr')
    rw [hr', Option.map_some, Option.map_some, hb.pick_congr hb' hoptions.symm]

theorem Store.WellFormed.get?_eq_some_iff {s : Store} (h : s.WellFormed) {name : Text} {r : Rule} :
    s.get? name = some r ↔ (name, r) ∈ s.rules := by
  refine ⟨mem_rules_of_get?, fun hmem => ?_⟩
  obtain ⟨before, after, hsplit⟩ := List.append_of_mem hmem
  have hd := h.distinct
  rw [names, hsplit, List.map_append, List.map_cons, List.nodup_append] at hd
  refine List.lookup_eq_some_iff.mpr ⟨before, after, hsplit, fun e he => ?_⟩
  have hne : e.1 ≠ name := hd.2.2 e.1 (List.mem_map_of_mem he) name List.mem_cons_self
  simpa using hne.symm

theorem Store.get?_of_perm {s t : Store} (hs : s.WellFormed) (ht : t.WellFormed)
    (h : s.rules.Perm t.rules) (name : Text) : s.get? name = t.get? name := by
  ext r
  rw [hs.get?_eq_some_iff, ht.get?_eq_some_iff, h.mem_iff]

/-- **Rules that are not got to do not matter**, nor does the order of rules. Two
stores that agree on what the first gets to from a name generate alike from it, so
other rules may be added, removed or changed. -/
theorem generatesAs_of_agreesFrom {s t : Store} (hs : s.Reachable) (ht : t.Reachable) (name : Text) :
    (s.AgreesFrom t name → s.GeneratesAs t (some name)) ∧
      (s.rules.Perm t.rules → s.GeneratesAs t (some name)) := by
  have hagrees (h : s.AgreesFrom t name) : s.GeneratesAs t (some name) := by
    intro limit levels σ next stop count source
    -- a literal name is got to as well, but nothing is asked of its rule
    let P (m : Text) : Prop := isLiteralName m = true ∨ s.Reaches name m
    have hreaches {m : Text} (hm : P m) (hn : isLiteralName m = false) : s.Reaches name m :=
      hm.resolve_left (by simp [hn])
    have hpick (m : Text) (hm : P m) (hn : isLiteralName m = false) :
        (s.get? m).map Rule.pick = (t.get? m).map Rule.pick :=
      Store.pick_congr_of_options hs.wellFormed ht.wellFormed (h m (hreaches hm hn))
    have hnext (via m : Text) (hvia : P via) (hn : isLiteralName via = false) (hr : s.Refers via m) :
        P m := by
      cases hm : isLiteralName m with
      | true => exact .inl hm
      | false => exact .inr (.refers (hreaches hvia hn) hr hm)
    have hname : P name := by
      cases hn : isLiteralName name with
      | true => exact .inl hn
      | false => exact .inr (.self hn)
    have hexpand : s.expand limit levels 0 name = t.expand limit levels 0 name :=
      Store.expand_congr hpick hnext limit levels 0 hname
    have hgenerate : (Generator.mk s limit levels).generate (some name) =
        (Generator.mk t limit levels).generate (some name) :=
      congrArg (Drawing.note (.generating name)) hexpand
    exact Generator.session_congr hgenerate next stop count source
  refine ⟨hagrees, fun hperm => hagrees fun m _ => ?_⟩
  rw [Store.get?_of_perm hs.wellFormed ht.wellFormed hperm]

/-- A rule that only a literal name refers to is changed, a rule of that literal
name is removed, and the rules change places; a name without a rule stays one. -/
theorem generatesAs_without_literal_rule :
    let s : Store :=
      ⟨[(['a'], ⟨['a'], [⟨"[b][*]".toList, 2⟩, ⟨"[u]".toList, 1⟩], 3⟩),
        (['*'], ⟨['*'], [⟨"[z]".toList, 1⟩], 1⟩), (['z'], ⟨['z'], [⟨['0'], 1⟩], 1⟩),
        (['b'], ⟨['b'], [⟨"x[a]".toList, 1⟩], 1⟩)], some ['a']⟩
    let t : Store :=
      ⟨[(['z'], ⟨['z'], [⟨['1'], 4⟩], 4⟩), (['b'], ⟨['b'], [⟨"x[a]".toList, 1⟩], 1⟩),
        (['a'], ⟨['a'], [⟨"[b][*]".toList, 2⟩, ⟨"[u]".toList, 1⟩], 3⟩)], some ['z']⟩
    s.Reachable ∧ t.Reachable ∧ s.AgreesFrom t ['a'] ∧ s.GeneratesAs t (some ['a']) := by
  intro s t
  have hreadS : (Store.empty.read "*a\n2:[b][*]\n[u]\n*\\*\n[z]\n*z\n0\n*b\nx[a]".toList).store = s := by
    decide
  have hreadT : (Store.empty.read "*z\n4:1\n*b\nx[a]\n*a\n2:[b][*]\n[u]".toList).store = t := by
    decide
  have hs : s.Reachable := hreadS ▸ .read _ .empty
  have ht : t.Reachable := hreadT ▸ .read _ .empty
  have hpieces : pieces "[b][*]".toList = [.reference ['b'] false, .reference ['*'] false] ∧
      pieces "[u]".toList = [.reference ['u'] false] ∧
      pieces "x[a]".toList = [.literal ['x'], .reference ['a'] false] := by
    refine ⟨?_, ?_, ?_⟩ <;> cbv
  have hreaches : ∀ m, s.Reaches ['a'] m → m = ['a'] ∨ m = ['b'] ∨ m = ['u'] := by
    intro m hm
    induction hm with
    | self => exact .inl rfl
    | refers _ hrefers hn ih =>
      obtain ⟨rule, o, capitalize, hr, ho, hmem⟩ := hrefers
      rcases ih with rfl | rfl | rfl
      · obtain rfl : _ = rule := Option.some.inj hr
        simp only [List.mem_cons, List.not_mem_nil, or_false] at ho
        rcases ho with rfl | rfl
        · simp only [hpieces.1, List.mem_cons, Piece.reference.injEq, List.not_mem_nil, or_false] at hmem
          rcases hmem with ⟨rfl, -⟩ | ⟨rfl, -⟩
          · exact .inr (.inl rfl)
          · cases hn
        · simp only [hpieces.2.1, List.mem_singleton, Piece.reference.injEq] at hmem
          exact .inr (.inr hmem.1)
      · obtain rfl : _ = rule := Option.some.inj hr
        simp only [List.mem_singleton] at ho
        subst ho
        simp only [hpieces.2.2, List.mem_cons, reduceCtorEq, Piece.reference.injEq, List.not_mem_nil,
          false_or, or_false] at hmem
        exact .inl hmem.1
      · cases hr
  have hagree : s.AgreesFrom t ['a'] := by
    intro m hm
    rcases hreaches m hm with rfl | rfl | rfl <;> rfl
  exact ⟨hs, ht, hagree, (generatesAs_of_agreesFrom hs ht ['a']).1 hagree⟩

end PhraseGrammar
