/-
The language of a store: the phrases that a name derives within a limit on
nesting, told by rules of derivation, and the theorem that generation produces
exactly these (`generate_iff_derives`).

A derivation knows nothing of draws. Its rules follow the three things that
expansion does: a literal name is itself; a name without a rule, or whose rule
has no options, derives the empty phrase; any other derives what one of its
values derives, piece by piece. The limit counts the names that are open, and
a literal name is free.
-/
import Mathlib
import PhraseGrammar.Proofs.Selection

namespace PhraseGrammar

open Drawing (CanEnd)

mutual

/-- The name derives the phrase, `room` more levels of nesting being allowed. -/
inductive Derives (s : Store) : Nat → Text → Text → Prop
  | literal {room : Nat} {name : Text} : isLiteralName name = true → Derives s room name name
  | undefined {room : Nat} {name : Text} :
      isLiteralName name = false → s.get? name = none → Derives s (room + 1) name []
  | empty {room : Nat} {name : Text} {rule : Rule} :
      isLiteralName name = false → s.get? name = some rule → rule.options = [] →
      Derives s (room + 1) name []
  | value {room : Nat} {name phrase : Text} {rule : Rule} {o : WeightedValue} :
      isLiteralName name = false → s.get? name = some rule → o ∈ rule.options →
      DerivesAll s room (pieces o.value) phrase → Derives s (room + 1) name phrase

/-- The pieces derive the phrase: literal text is itself, and a reference is
what its name derives, its first character in upper case if that is asked for. -/
inductive DerivesAll (s : Store) : Nat → List Piece → Text → Prop
  | nil {room : Nat} : DerivesAll s room [] []
  | literal {room : Nat} {text after : Text} {rest : List Piece} :
      DerivesAll s room rest after → DerivesAll s room (.literal text :: rest) (text ++ after)
  | reference {room : Nat} {name phrase after : Text} {capitalize : Bool} {rest : List Piece} :
      Derives s room name phrase → DerivesAll s room rest after →
      DerivesAll s room (.reference name capitalize :: rest)
        ((if capitalize then capitalizeFirst phrase else phrase) ++ after)

end

/-! ## What derives from a name -/

section Derives

variable {s : Store} {room : Nat} {name phrase : Text}

theorem derives_literal_iff (hn : isLiteralName name = true) :
    Derives s room name phrase ↔ phrase = name := by
  constructor
  · intro h
    cases h with
    | literal _ => rfl
    | undefined h | empty h | value h => simp [hn] at h
  · intro h
    subst h
    exact .literal hn

theorem not_derives_zero (hn : isLiteralName name = false) : ¬ Derives s 0 name phrase := by
  intro h
  cases h with
  | literal h => simp [hn] at h

theorem derives_undefined_iff (hn : isLiteralName name = false) (hr : s.get? name = none) :
    Derives s (room + 1) name phrase ↔ phrase = [] := by
  constructor
  · intro h
    cases h with
    | literal h => simp [hn] at h
    | undefined _ _ => rfl
    | empty _ h | value _ h => simp [hr] at h
  · intro h
    subst h
    exact .undefined hn hr

theorem derives_rule_iff {rule : Rule} (hn : isLiteralName name = false)
    (hr : s.get? name = some rule) :
    Derives s (room + 1) name phrase ↔
      (rule.options = [] ∧ phrase = []) ∨
        ∃ o ∈ rule.options, DerivesAll s room (pieces o.value) phrase := by
  constructor
  · intro h
    cases h with
    | literal h => simp [hn] at h
    | undefined _ h => simp [hr] at h
    | empty _ h hnone =>
      obtain rfl := Option.some.inj (hr.symm.trans h)
      exact .inl ⟨hnone, rfl⟩
    | value _ h ho hall =>
      obtain rfl := Option.some.inj (hr.symm.trans h)
      exact .inr ⟨_, ho, hall⟩
  · intro h
    rcases h with ⟨hnone, rfl⟩ | ⟨o, ho, hall⟩
    · exact .empty hn hr hnone
    · exact .value hn hr ho hall

end Derives

theorem derivesAll_nil_iff {s : Store} {room : Nat} {phrase : Text} :
    DerivesAll s room [] phrase ↔ phrase = [] := by
  constructor
  · intro h
    cases h
    rfl
  · intro h
    subst h
    exact .nil

/-! ## What one expansion does -/

section Expand

variable {s : Store} {limit : Option Nat} {levels depth : Nat} {name : Text}

theorem limitReached_of_le {n : Nat} (h : n ≤ depth) : limitReached (some n) depth = true :=
  decide_eq_true h

theorem not_limitReached_of_lt {n : Nat} (h : depth < n) : limitReached (some n) depth = false :=
  decide_eq_false (Nat.not_le.mpr h)

theorem expand_of_literal (h : isLiteralName name = true) :
    s.expand limit levels depth name = .done (.ok name) := by
  rw [Store.expand, if_pos h]

theorem expand_of_limit (hn : isLiteralName name = false) (hl : limitReached limit depth = true) :
    s.expand limit levels depth name = .done (.error (.limitExceeded name (limit.getD 0))) := by
  rw [Store.expand, if_neg (by simp [hn]), if_pos hl]

theorem expand_of_undefined (hn : isLiteralName name = false) (hl : limitReached limit depth = false)
    (hr : s.get? name = none) :
    s.expand limit levels depth name = .note (.undefined name) (.done (.ok [])) := by
  rw [Store.expand, if_neg (by simp [hn]), if_neg (by simp [hl]), hr]

theorem expand_of_rule {rule : Rule} (hn : isLiteralName name = false)
    (hl : limitReached limit depth = false) (hr : s.get? name = some rule) :
    s.expand limit (levels + 1) depth name =
      rule.pick.bind fun value => assemble (s.expand limit levels (depth + 1)) (pieces value) := by
  rw [Store.expand, if_neg (by simp [hn]), if_neg (by simp [hl]), hr]

theorem expand_of_full_stack {rule : Rule} (hn : isLiteralName name = false)
    (hl : limitReached limit depth = false) (hr : s.get? name = some rule) :
    s.expand limit 0 depth name = .done (.error .stackExhausted) := by
  rw [Store.expand, if_neg (by simp [hn]), if_neg (by simp [hl]), hr]

/-- An expansion ends at once, or reports that the name has no rule, or draws a
value of the rule and puts its pieces together one level deeper. -/
theorem expand_cases (s : Store) (limit : Option Nat) (levels depth : Nat) (name : Text) :
    (∃ r, s.expand limit levels depth name = .done r) ∨
      s.expand limit levels depth name = .note (.undefined name) (.done (.ok [])) ∨
      ∃ rule below, levels = below + 1 ∧ s.get? name = some rule ∧
        s.expand limit levels depth name =
          rule.pick.bind fun value => assemble (s.expand limit below (depth + 1)) (pieces value) := by
  cases hn : isLiteralName name with
  | true => exact .inl ⟨_, expand_of_literal hn⟩
  | false =>
    cases hl : limitReached limit depth with
    | true => exact .inl ⟨_, expand_of_limit hn hl⟩
    | false =>
      cases hr : s.get? name with
      | none => exact .inr (.inl (expand_of_undefined hn hl hr))
      | some rule =>
        cases levels with
        | zero => exact .inl ⟨_, expand_of_full_stack hn hl hr⟩
        | succ below => exact .inr (.inr ⟨rule, below, rfl, rfl, expand_of_rule hn hl hr⟩)

end Expand

/-! ## Ends of an expansion -/

theorem canEnd_map_ok_iff {d : Drawing Expanded} {f : Text → Text} {w : Text} :
    CanEnd (d.map fun after => after.map f) (.ok w) ↔ ∃ after, CanEnd d (.ok after) ∧ w = f after := by
  rw [Drawing.canEnd_map_iff]
  constructor
  · rintro ⟨r, hr, he⟩
    cases r with
    | error e => cases he
    | ok after => exact ⟨after, hr, Except.ok.inj he⟩
  · rintro ⟨after, hr, rfl⟩
    exact ⟨.ok after, hr, rfl⟩

/-- Pieces are assembled into what they derive, if names are expanded into
what they derive. -/
theorem canEnd_assemble_iff {s : Store} {room : Nat} {expand : Text → Drawing Expanded}
    (hexpand : ∀ name w, CanEnd (expand name) (.ok w) ↔ Derives s room name w) {ps : List Piece}
    {w : Text} : CanEnd (assemble expand ps) (.ok w) ↔ DerivesAll s room ps w := by
  induction ps generalizing w with
  | nil =>
    rw [assemble, Drawing.canEnd_done_iff]
    exact ⟨fun h => Except.ok.inj h ▸ .nil, fun h => by cases h; rfl⟩
  | cons p rest ih =>
    cases p with
    | literal text =>
      rw [assemble, canEnd_map_ok_iff]
      constructor
      · rintro ⟨after, h, rfl⟩
        exact .literal (ih.mp h)
      · intro h
        cases h with
        | literal h => exact ⟨_, ih.mpr h, rfl⟩
    | reference name capitalize =>
      rw [assemble, Drawing.canEnd_bind_iff]
      constructor
      · rintro ⟨r, hr, h⟩
        cases r with
        | error e => cases h
        | ok phrase =>
          obtain ⟨after, hafter, rfl⟩ := canEnd_map_ok_iff.mp h
          exact .reference ((hexpand name phrase).mp hr) (ih.mp hafter)
      · intro h
        cases h with
        | reference hphrase hafter =>
          exact ⟨_, (hexpand name _).mpr hphrase, canEnd_map_ok_iff.mpr ⟨_, ih.mpr hafter, rfl⟩⟩

theorem pieces_nil : pieces [] = [] := by
  rw [pieces]
  rfl

theorem canEnd_pick_assemble_iff {s : Store} {rule : Rule} (hb : rule.Balanced) {room : Nat}
    {expand : Text → Drawing Expanded}
    (hexpand : ∀ name w, CanEnd (expand name) (.ok w) ↔ Derives s room name w) {w : Text} :
    CanEnd (rule.pick.bind fun value => assemble expand (pieces value)) (.ok w) ↔
      (rule.options = [] ∧ w = []) ∨ ∃ o ∈ rule.options, DerivesAll s room (pieces o.value) w := by
  rw [Drawing.canEnd_bind_iff]
  constructor
  · intro h
    obtain ⟨value, hpick, hall⟩ := h
    rw [canEnd_assemble_iff hexpand] at hall
    rcases (canEnd_pick_iff hb).mp hpick with ⟨hnone, rfl⟩ | ⟨o, ho, rfl⟩
    · rw [pieces_nil, derivesAll_nil_iff] at hall
      exact .inl ⟨hnone, hall⟩
    · exact .inr ⟨o, ho, hall⟩
  · intro h
    rcases h with ⟨hnone, rfl⟩ | ⟨o, ho, hall⟩
    · refine ⟨[], (canEnd_pick_iff hb).mpr (.inl ⟨hnone, rfl⟩), ?_⟩
      rw [canEnd_assemble_iff hexpand, pieces_nil]
      exact .nil
    · exact ⟨o.value, (canEnd_pick_iff hb).mpr (.inr ⟨o, ho, rfl⟩),
        (canEnd_assemble_iff hexpand).mpr hall⟩

/-- A name expands into what it derives in the room that is left, if the stack
has as much. -/
theorem canEnd_expand_iff {s : Store} (hs : s.WellFormed) {limit room levels depth : Nat}
    (hroom : limit = depth + room) (hlevels : room ≤ levels) {name w : Text} :
    CanEnd (s.expand (some limit) levels depth name) (.ok w) ↔ Derives s room name w := by
  induction room generalizing levels depth name w with
  | zero =>
    cases hn : isLiteralName name with
    | true =>
      rw [expand_of_literal hn, Drawing.canEnd_done_iff, derives_literal_iff hn, Except.ok.injEq]
    | false =>
      have hl : limitReached (some limit) depth = true := limitReached_of_le (by omega)
      rw [expand_of_limit hn hl, Drawing.canEnd_done_iff]
      simp [not_derives_zero hn]
  | succ room ih =>
    cases hn : isLiteralName name with
    | true =>
      rw [expand_of_literal hn, Drawing.canEnd_done_iff, derives_literal_iff hn, Except.ok.injEq]
    | false =>
      have hl : limitReached (some limit) depth = false := not_limitReached_of_lt (by omega)
      cases hr : s.get? name with
      | none =>
        rw [expand_of_undefined hn hl hr, Drawing.canEnd_note_iff, Drawing.canEnd_done_iff,
          derives_undefined_iff hn hr, Except.ok.injEq]
      | some rule =>
        obtain ⟨levels, rfl⟩ : ∃ l, levels = l + 1 := ⟨levels - 1, by omega⟩
        have hb := hs.balanced _ (Store.mem_rules_of_get? hr)
        rw [expand_of_rule hn hl hr, derives_rule_iff hn hr]
        exact canEnd_pick_assemble_iff hb fun name w => ih (by omega) (by omega)

/-! ## Bounds that an expansion asks for -/

theorem asksPositive_assemble {expand : Text → Drawing Expanded}
    (hexpand : ∀ name, (expand name).AsksPositive) (ps : List Piece) :
    (assemble expand ps).AsksPositive := by
  induction ps with
  | nil => trivial
  | cons p rest ih =>
    cases p with
    | literal text => exact ih.map _
    | reference name capitalize =>
      refine (hexpand name).bind fun r => ?_
      cases r with
      | error e => trivial
      | ok phrase => exact ih.map _

theorem asksPositive_expand {s : Store} (hs : s.WellFormed) (limit : Option Nat)
    (levels depth : Nat) (name : Text) : (s.expand limit levels depth name).AsksPositive := by
  induction levels using Nat.strong_induction_on generalizing depth name with
  | _ levels ih =>
    rcases expand_cases s limit levels depth name with ⟨r, h⟩ | h | ⟨rule, below, rfl, hr, h⟩
    · rw [h]
      trivial
    · rw [h]
      trivial
    · have hb := hs.balanced _ (Store.mem_rules_of_get? hr)
      rw [h]
      refine (asksPositive_pick hb).bind fun value => ?_
      exact asksPositive_assemble (fun name => ih below (by omega) (depth + 1) name) (pieces value)

/-! ## Generation -/

/-- **A generator produces exactly the language of its store.** Some source of
draws makes it produce a phrase from a name if and only if the name derives
the phrase within the limit, whatever was done to the store before; the stack
must have room for as many levels as the limit allows. -/
theorem generate_iff_derives {s : Store} (hs : s.Reachable) {limit levels : Nat}
    (hlevels : limit ≤ levels) (name phrase : Text) :
    (∃ (σ : Type) (next : σ → Nat → Nat × σ) (source : σ), AnswersBelow next ∧
        (((Generator.mk s (some limit) levels).generate (some name)).run next source).result =
          .ok phrase) ↔
      Derives s limit name phrase := by
  have hexpand : CanEnd (s.expand (some limit) levels 0 name) (.ok phrase) ↔
      Derives s limit name phrase :=
    canEnd_expand_iff hs.wellFormed (Nat.zero_add limit).symm hlevels
  have hpos : ((Generator.mk s (some limit) levels).generate (some name)).AsksPositive :=
    asksPositive_expand hs.wellFormed (some limit) levels 0 name
  rw [← Drawing.canEnd_iff_run hpos, ← hexpand]
  exact Drawing.canEnd_note_iff

/-- Two levels are enough for a phrase of two rules that refer to each other. -/
theorem generate_within_two_levels :
    let s : Store :=
      ⟨[(['a'], ⟨['a'], [⟨"x[^b]".toList, 1⟩], 1⟩),
        (['b'], ⟨['b'], [⟨['y'], 1⟩, ⟨"[a]".toList, 2⟩], 3⟩)], some ['a']⟩
    s.Reachable ∧ 2 ≤ stackLevels ∧ Derives s 2 ['a'] ['x', 'Y'] := by
  intro s
  have hread : (Store.empty.read "*a\nx[^b]\n*b\ny\n2:[a]".toList).store = s := by decide
  have hs : s.Reachable := hread ▸ .read _ .empty
  have hlevels : 2 ≤ stackLevels := by decide
  have hrun : (((Generator.mk s (some 2) stackLevels).generate (some ['a'])).run Source.next
      (.scripted [0, 0])).result = .ok ['x', 'Y'] := by cbv
  exact ⟨hs, hlevels, (generate_iff_derives hs hlevels ['a'] ['x', 'Y']).mp
    ⟨Source, Source.next, .scripted [0, 0], answersBelow_next, hrun⟩⟩

end PhraseGrammar
