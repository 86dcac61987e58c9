/-
The limit on nesting: it is exceeded exactly on grammars that can nest so deep
(`generate_exceeds_iff`). How deep a grammar can nest is read off its references
alone, as the walks from a name along the references of its values.

In one direction, the names that are open when an expansion fails are such a
walk. In the other, the walk says which values to draw, but the references that
stand before the next name in a value are expanded first, with whatever draws
they ask for. They need no bound: every drawing can end, and if one of them
ends in an error, this error stands for the one that was looked for.
-/
import Mathlib
import PhraseGrammar.Proofs.Language

namespace PhraseGrammar

open Drawing (CanEnd)

/-! ## Walks -/

/-- A value of the rule of the first name refers to the second name. -/
def Store.Refers (s : Store) (name next : Text) : Prop :=
  ∃ rule o capitalize, s.get? name = some rule ∧ o ∈ rule.options ∧
    Piece.reference next capitalize ∈ pieces o.value

/-- Names of which each refers to the next, none of them literal. The last
need not have a rule. -/
structure Store.IsWalk (s : Store) (names : List Text) : Prop where
  refers : names.IsChain s.Refers
  named : ∀ name ∈ names, isLiteralName name = false

theorem Store.isWalk_singleton {s : Store} {name : Text} (h : isLiteralName name = false) :
    s.IsWalk [name] := ⟨List.isChain_singleton name, by simpa using h⟩

theorem Store.isWalk_cons_cons {s : Store} {name next : Text} {names : List Text} :
    s.IsWalk (name :: next :: names) ↔
      isLiteralName name = false ∧ s.Refers name next ∧ s.IsWalk (next :: names) := by
  constructor
  · intro h
    obtain ⟨hrefers, hchain⟩ := List.isChain_cons_cons.mp h.refers
    exact ⟨h.named name (by simp), hrefers, hchain, fun n hn => h.named n (List.mem_cons_of_mem _ hn)⟩
  · rintro ⟨hn, hrefers, h⟩
    refine ⟨List.isChain_cons_cons.mpr ⟨hrefers, h.refers⟩, fun n hmem => ?_⟩
    rcases List.mem_cons.mp hmem with rfl | hmem
    · exact hn
    · exact h.named n hmem

/-! ## Errors of assembled pieces -/

theorem Drawing.exists_canEnd {α : Type} {d : Drawing α} (h : d.AsksPositive) : ∃ a, CanEnd d a :=
  ⟨_, canEnd_run answersBelow_next h (.scripted [])⟩

theorem canEnd_map_error_iff {d : Drawing Expanded} {f : Text → Text} {e : ExpansionError} :
    CanEnd (d.map fun after => after.map f) (.error e) ↔ CanEnd d (.error e) := by
  rw [Drawing.canEnd_map_iff]
  constructor
  · rintro ⟨r, hr, he⟩
    cases r with
    | error e' => cases he; exact hr
    | ok after => cases he
  · intro h
    exact ⟨.error e, h, rfl⟩

theorem exists_reference_of_assemble_error {expand : Text → Drawing Expanded} {ps : List Piece}
    {e : ExpansionError} (h : CanEnd (assemble expand ps) (.error e)) :
    ∃ name capitalize, Piece.reference name capitalize ∈ ps ∧ CanEnd (expand name) (.error e) := by
  induction ps with
  | nil =>
    rw [assemble, Drawing.canEnd_done_iff] at h
    cases h
  | cons p rest ih =>
    have later (h : CanEnd (assemble expand rest) (.error e)) : ∃ name capitalize,
        Piece.reference name capitalize ∈ p :: rest ∧ CanEnd (expand name) (.error e) := by
      obtain ⟨name, capitalize, hmem, he⟩ := ih h
      exact ⟨name, capitalize, List.mem_cons_of_mem _ hmem, he⟩
    cases p with
    | literal text =>
      rw [assemble, canEnd_map_error_iff] at h
      exact later h
    | reference name capitalize =>
      rw [assemble, Drawing.canEnd_bind_iff] at h
      obtain ⟨r, hr, h⟩ := h
      cases r with
      | error e' =>
        rw [Drawing.canEnd_done_iff] at h
        cases h
        exact ⟨name, capitalize, by simp, hr⟩
      | ok phrase => exact later (canEnd_map_error_iff.mp h)

/-- Assembling can fail if one of the references can: those before it end
somehow, and if not well, assembling has failed already. -/
theorem exists_assemble_error {expand : Text → Drawing Expanded}
    (hexpand : ∀ name, (expand name).AsksPositive) {name : Text} {capitalize : Bool} {ps : List Piece}
    (hmem : Piece.reference name capitalize ∈ ps) {e : ExpansionError}
    (h : CanEnd (expand name) (.error e)) : ∃ e', CanEnd (assemble expand ps) (.error e') := by
  induction ps with
  | nil => cases hmem
  | cons p rest ih =>
    cases p with
    | literal text =>
      rcases List.mem_cons.mp hmem with heq | hmem
      · cases heq
      · obtain ⟨e', he'⟩ := ih hmem
        rw [assemble]
        exact ⟨e', canEnd_map_error_iff.mpr he'⟩
    | reference first capitalizeFirst =>
      rw [assemble]
      simp only [Drawing.canEnd_bind_iff]
      rcases List.mem_cons.mp hmem with heq | hmem
      · cases heq
        exact ⟨e, .error e, h, .done _⟩
      · -- what stands before the reference ends somehow, with an error or with a phrase
        obtain ⟨r, hr⟩ := Drawing.exists_canEnd (hexpand first)
        cases r with
        | error e' => exact ⟨e', .error e', hr, .done _⟩
        | ok phrase =>
          obtain ⟨e', he'⟩ := ih hmem
          exact ⟨e', .ok phrase, hr, canEnd_map_error_iff.mpr he'⟩

/-- What is assembled from a drawn value fails only if the expansion of a name
does that one of the values refers to. -/
theorem exists_option_of_pick_error {rule : Rule} (hb : rule.Balanced)
    {expand : Text → Drawing Expanded} {e : ExpansionError}
    (h : CanEnd (rule.pick.bind fun value => assemble expand (pieces value)) (.error e)) :
    ∃ o ∈ rule.options, ∃ name capitalize,
      Piece.reference name capitalize ∈ pieces o.value ∧ CanEnd (expand name) (.error e) := by
  obtain ⟨value, hpick, hall⟩ := Drawing.canEnd_bind_iff.mp h
  obtain ⟨name, capitalize, hmem, he⟩ := exists_reference_of_assemble_error hall
  rcases (canEnd_pick_iff hb).mp hpick with ⟨-, rfl⟩ | ⟨o, ho, rfl⟩
  · rw [pieces_nil] at hmem
    cases hmem
  · exact ⟨o, ho, name, capitalize, hmem, he⟩

/-! ## Errors of an expansion -/

section Expand

variable {s : Store} {limit room levels depth : Nat} {name : Text}

theorem named_of_expand_error {limit : Option Nat} {e : ExpansionError}
    (h : CanEnd (s.expand limit levels depth name) (.error e)) : isLiteralName name = false := by
  cases hn : isLiteralName name with
  | false => rfl
  | true =>
    rw [expand_of_literal hn, Drawing.canEnd_done_iff] at h
    cases h

/-- An expansion fails only at the end of a walk that takes all the room, and
then because the limit is exceeded there. -/
theorem exists_walk_of_expand_error (hs : s.WellFormed) (hroom : limit = depth + room)
    (hlevels : room ≤ levels) {e : ExpansionError}
    (h : CanEnd (s.expand (some limit) levels depth name) (.error e)) :
    ∃ names rule, names.length = room ∧ s.IsWalk (name :: names) ∧
      (name :: names).getLast? = some rule ∧ e = .limitExceeded rule limit := by
  have hn := named_of_expand_error h
  -- the depth goes up as the room goes down, so their sum stays the limit
  induction room generalizing levels depth name with
  | zero =>
    have hl : limitReached (some limit) depth = true := limitReached_of_le (by omega)
    rw [expand_of_limit hn hl, Drawing.canEnd_done_iff] at h
    exact ⟨[], name, rfl, Store.isWalk_singleton hn, rfl, Except.error.inj h⟩
  | succ room ih =>
    have hl : limitReached (some limit) depth = false := not_limitReached_of_lt (by omega)
    cases hr : s.get? name with
    | none =>
      rw [expand_of_undefined hn hl hr, Drawing.canEnd_note_iff, Drawing.canEnd_done_iff] at h
      cases h
    | some rule =>
      obtain ⟨levels, rfl⟩ : ∃ l, levels = l + 1 := ⟨levels - 1, by omega⟩
      have hb := hs.balanced _ (Store.mem_rules_of_get? hr)
      rw [expand_of_rule hn hl hr] at h
      obtain ⟨o, ho, next, capitalize, hmem, hnext⟩ := exists_option_of_pick_error hb h
      obtain ⟨names, last, hlength, hwalk, hlast, he⟩ :=
        ih (by omega) (by omega) hnext (named_of_expand_error hnext)
      have hrefers : s.Refers name next := ⟨rule, o, capitalize, hr, ho, hmem⟩
      exact ⟨next :: names, last, by rw [List.length_cons, hlength],
        Store.isWalk_cons_cons.mpr ⟨hn, hrefers, hwalk⟩, hlast, he⟩

/-- An expansion can fail if there is a walk that takes all the room. -/
theorem exists_expand_error (hs : s.WellFormed) (hroom : limit = depth + room)
    (hlevels : room ≤ levels) {names : List Text} (hlength : names.length = room)
    (hwalk : s.IsWalk (name :: names)) :
    ∃ e, CanEnd (s.expand (some limit) levels depth name) (.error e) := by
  induction room generalizing levels depth name names with
  | zero =>
    have hn := hwalk.named name (by simp)
    have hl : limitReached (some limit) depth = true := limitReached_of_le (by omega)
    rw [expand_of_limit hn hl]
    exact ⟨_, .done _⟩
  | succ room ih =>
    obtain ⟨next, names, rfl⟩ := List.exists_cons_of_length_eq_add_one hlength
    obtain ⟨hn, ⟨rule, o, capitalize, hr, ho, hmem⟩, hwalk⟩ := Store.isWalk_cons_cons.mp hwalk
    obtain ⟨levels, rfl⟩ : ∃ l, levels = l + 1 := ⟨levels - 1, by omega⟩
    have hl : limitReached (some limit) depth = false := not_limitReached_of_lt (by omega)
    obtain ⟨e, he⟩ : ∃ e, CanEnd (s.expand (some limit) levels (depth + 1) next) (.error e) :=
      ih (by omega) (by omega) (Nat.succ.inj hlength) hwalk
    obtain ⟨e', he'⟩ :=
      exists_assemble_error (asksPositive_expand hs (some limit) levels (depth + 1)) hmem he
    have hpick : CanEnd rule.pick o.value :=
      (canEnd_pick_iff (hs.balanced _ (Store.mem_rules_of_get? hr))).mpr (.inr ⟨o, ho, rfl⟩)
    rw [expand_of_rule hn hl hr]
    exact ⟨e', Drawing.canEnd_bind_iff.mpr ⟨o.value, hpick, he'⟩⟩

end Expand

/-! ## Generation -/

/-- **The limit is exceeded exactly where the grammar can nest so deep.** Some
source of draws makes the expansion of a name exceed the limit if and only if a
walk of as many references starts there. Whatever the source, a name is expanded
or the limit is exceeded, and then at the last name of such a walk; the stack
must have room for as many levels as the limit allows. -/
theorem generate_exceeds_iff {s : Store} (hs : s.Reachable) {limit levels : Nat}
    (hlevels : limit ≤ levels) (name : Text) :
    ((∃ (σ : Type) (next : σ → Nat → Nat × σ) (source : σ) (rule : Text) (bound : Nat),
        AnswersBelow next ∧
          (((Generator.mk s (some limit) levels).generate (some name)).run next source).result =
            .error (.limitExceeded rule bound)) ↔
      ∃ names, names.length = limit ∧ s.IsWalk (name :: names)) ∧
    ∀ (σ : Type) (next : σ → Nat → Nat × σ) (source : σ) (e : ExpansionError), AnswersBelow next →
      (((Generator.mk s (some limit) levels).generate (some name)).run next source).result =
        .error e →
      ∃ names rule, names.length = limit ∧ s.IsWalk (name :: names) ∧
        (name :: names).getLast? = some rule ∧ e = .limitExceeded rule limit := by
  have hroom : limit = 0 + limit := (Nat.zero_add limit).symm
  have hpos : ((Generator.mk s (some limit) levels).generate (some name)).AsksPositive :=
    asksPositive_expand hs.wellFormed (some limit) levels 0 name
  have hend {r : Expanded} : CanEnd ((Generator.mk s (some limit) levels).generate (some name)) r ↔
      CanEnd (s.expand (some limit) levels 0 name) r := Drawing.canEnd_note_iff
  have hfails {σ : Type} {next : σ → Nat → Nat × σ} {source : σ} {e : ExpansionError}
      (hnext : AnswersBelow next)
      (h : (((Generator.mk s (some limit) levels).generate (some name)).run next source).result =
        .error e) :
      ∃ names rule, names.length = limit ∧ s.IsWalk (name :: names) ∧
        (name :: names).getLast? = some rule ∧ e = .limitExceeded rule limit :=
    exists_walk_of_expand_error hs.wellFormed hroom hlevels
      (hend.mp (h ▸ Drawing.canEnd_run hnext hpos source))
  refine ⟨⟨?_, ?_⟩, fun σ next source e hnext h => hfails hnext h⟩
  · rintro ⟨σ, next, source, rule, bound, hnext, h⟩
    obtain ⟨names, -, hlength, hwalk, -, -⟩ := hfails hnext h
    exact ⟨names, hlength, hwalk⟩
  · rintro ⟨names, hlength, hwalk⟩
    obtain ⟨e, he⟩ := exists_expand_error hs.wellFormed hroom hlevels hlength hwalk
    obtain ⟨-, rule, -, -, -, rfl⟩ := exists_walk_of_expand_error hs.wellFormed hroom hlevels he
    obtain ⟨σ, next, source, hnext, h⟩ := (Drawing.canEnd_iff_run hpos).mp (hend.mpr he)
    exact ⟨σ, next, source, rule, limit, hnext, h⟩

/-- A walk may lead past references that are expanded before it, and end at a
name without a rule. -/
theorem generate_exceeds_after_sibling :
    let s : Store :=
      ⟨[(['a'], ⟨['a'], [⟨"[b][a][c]".toList, 1⟩], 1⟩), (['b'], ⟨['b'], [⟨['x'], 1⟩], 1⟩)], some ['a']⟩
    s.Reachable ∧ 2 ≤ stackLevels ∧ s.IsWalk [['a'], ['a'], ['c']] ∧
      ∃ (σ : Type) (next : σ → Nat → Nat × σ) (source : σ) (rule : Text) (bound : Nat),
        AnswersBelow next ∧
          (((Generator.mk s (some 2) stackLevels).generate (some ['a'])).run next source).result =
            .error (.limitExceeded rule bound) := by
  intro s
  have hread : (Store.empty.read "*a\n[b][a][c]\n*b\nx".toList).store = s := by decide
  have hs : s.Reachable := hread ▸ .read _ .empty
  have hlevels : 2 ≤ stackLevels := by decide
  have hpieces : pieces "[b][a][c]".toList =
      [.reference ['b'] false, .reference ['a'] false, .reference ['c'] false] := by cbv
  have hrefers : ∀ name ∈ [['b'], ['a'], ['c']], s.Refers ['a'] name := by
    intro name hmem
    refine ⟨⟨['a'], [⟨"[b][a][c]".toList, 1⟩], 1⟩, ⟨"[b][a][c]".toList, 1⟩, false, rfl, by simp, ?_⟩
    rw [hpieces]
    simpa using hmem
  have hwalk : s.IsWalk [['a'], ['a'], ['c']] :=
    Store.isWalk_cons_cons.mpr ⟨rfl, hrefers _ (by simp),
      Store.isWalk_cons_cons.mpr ⟨rfl, hrefers _ (by simp), Store.isWalk_singleton rfl⟩⟩
  exact ⟨hs, hlevels, hwalk, (generate_exceeds_iff hs hlevels ['a']).1.mpr ⟨_, rfl, hwalk⟩⟩

end PhraseGrammar
