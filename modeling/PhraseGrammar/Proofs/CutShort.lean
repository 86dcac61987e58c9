/-
What a limit on nesting does to a run: it cuts the run short, and changes nothing
else (`generate_cut_short`). No draw is asked for that a greater limit would not
ask for as well, in the same order and with the same answers before it, and once a
phrase has come out under some limit it comes out under every greater one.

The two expansions are compared before any source answers: as trees of draws, the
one with the smaller limit is the other with branches cut off. That an error goes
through everything above it without another draw is what keeps this so when
pieces are put together (`CutShort.bind`). The stack is the same for both, so
where it is exhausted the two end alike, if the limit has not cut in before.
-/
import PhraseGrammar.Proofs.Language

namespace PhraseGrammar

/-- The first drawing is the second, cut off wherever it ends in an exceeded
limit. -/
inductive CutShort : Drawing Expanded → Drawing Expanded → Prop
  | cut (rule : Text) (limit : Nat) (d : Drawing Expanded) :
      CutShort (.done (.error (.limitExceeded rule limit))) d
  | done (r : Expanded) : CutShort (.done r) (.done r)
  | note (n : Notice) {d d' : Drawing Expanded} : CutShort d d' → CutShort (.note n d) (.note n d')
  | draw (bound : Nat) {rest rest' : Nat → Drawing Expanded} :
      (∀ answer, CutShort (rest answer) (rest' answer)) → CutShort (.draw bound rest) (.draw bound rest')

namespace CutShort

/-! ## Drawings that are put together -/

theorem bind_right {α : Type} {f f' : α → Drawing Expanded} (hf : ∀ a, CutShort (f a) (f' a))
    (d : Drawing α) : CutShort (d.bind f) (d.bind f') := by
  induction d with
  | done a => exact hf a
  | note n rest ih => exact .note n ih
  | draw bound rest ih => exact .draw bound ih

/-- An exceeded limit that is handed on cuts off all that would come after it. -/
theorem bind {d d' : Drawing Expanded} (h : CutShort d d') {f f' : Expanded → Drawing Expanded}
    (hf : ∀ r, CutShort (f r) (f' r)) (herror : ∀ e, f (.error e) = .done (.error e)) :
    CutShort (d.bind f) (d'.bind f') := by
  induction h with
  | cut rule limit d' =>
    rw [Drawing.bind, herror]
    exact .cut rule limit _
  | done r => exact hf r
  | note n _ ih => exact .note n ih
  | draw bound _ ih => exact .draw bound ih

theorem map {d d' : Drawing Expanded} (h : CutShort d d') (f : Text → Text) :
    CutShort (d.map fun after => after.map f) (d'.map fun after => after.map f) :=
  h.bind (fun _ => .done _) fun _ => rfl

end CutShort

/-! ## Expansions -/

theorem cutShort_assemble {expand expand' : Text → Drawing Expanded}
    (h : ∀ name, CutShort (expand name) (expand' name)) (ps : List Piece) :
    CutShort (assemble expand ps) (assemble expand' ps) := by
  induction ps with
  | nil => exact .done _
  | cons p rest ih =>
    cases p with
    | literal text => exact ih.map _
    | reference name capitalize =>
      refine (h name).bind (fun r => ?_) fun _ => rfl
      cases r with
      | error e => exact .done _
      | ok phrase => exact ih.map _

theorem not_limitReached_of_le {limit depth : Nat} {limit' : Option Nat}
    (h : ∀ bound ∈ limit', limit ≤ bound) (hl : limitReached (some limit) depth = false) :
    limitReached limit' depth = false := by
  cases limit' with
  | none => rfl
  | some bound =>
    have hbound := h bound rfl
    have hdepth : ¬ limit ≤ depth := of_decide_eq_false hl
    exact not_limitReached_of_lt (by omega)

/-- The expansion with the smaller limit is the other one cut short. -/
theorem Store.cutShort_expand (s : Store) {limit : Nat} {limit' : Option Nat}
    (h : ∀ bound ∈ limit', limit ≤ bound) (levels depth : Nat) (name : Text) :
    CutShort (s.expand (some limit) levels depth name) (s.expand limit' levels depth name) := by
  induction levels using Nat.strong_induction_on generalizing depth name with
  | _ levels ih =>
    cases hn : isLiteralName name with
    | true =>
      rw [expand_of_literal hn, expand_of_literal hn]
      exact .done _
    | false =>
      cases hl : limitReached (some limit) depth with
      | true =>
        rw [expand_of_limit hn hl]
        exact .cut _ _ _
      | false =>
        have hl' := not_limitReached_of_le h hl
        cases hr : s.get? name with
        | none =>
          rw [expand_of_undefined hn hl hr, expand_of_undefined hn hl' hr]
          exact .note _ (.done _)
        | some rule =>
          cases levels with
          | zero =>
            rw [expand_of_full_stack hn hl hr, expand_of_full_stack hn hl' hr]
            exact .done _
          | succ levels =>
            rw [expand_of_rule hn hl hr, expand_of_rule hn hl' hr]
            refine .bind_right (fun value => ?_) rule.pick
            exact cutShort_assemble (ih levels (Nat.lt_succ_self levels) (depth + 1)) (pieces value)

/-! ## Runs -/

/-- A run that is cut short asks for the first of the bounds that the whole run
asks for. Either nothing was cut off and the runs are one, or it ends in an
exceeded limit. -/
theorem CutShort.run {d d' : Drawing Expanded} (h : CutShort d d') {σ : Type}
    (next : σ → Nat → Nat × σ) (source : σ) :
    (d.run next source).bounds <+: (d'.run next source).bounds ∧
      (d.run next source = d'.run next source ∨
        ∃ rule limit, (d.run next source).result = .error (.limitExceeded rule limit)) := by
  induction h generalizing source with
  | cut rule limit d' => exact ⟨List.nil_prefix, .inr ⟨rule, limit, rfl⟩⟩
  | done r => exact ⟨List.prefix_refl _, .inl rfl⟩
  | note n _ ih =>
    obtain ⟨hbounds, hend⟩ := ih source
    exact ⟨hbounds, hend.imp_left fun hsame => by simp only [Drawing.run, hsame]⟩
  | draw bound _ ih =>
    obtain ⟨hbounds, hend⟩ := ih (next source bound).1 (next source bound).2
    exact ⟨(List.prefix_cons_inj bound).mpr hbounds,
      hend.imp_left fun hsame => by simp only [Drawing.run, hsame]⟩

/-! ## Generation -/

theorem Generator.cutShort_generate (s : Store) {limit : Nat} {limit' : Option Nat}
    (h : ∀ bound ∈ limit', limit ≤ bound) (levels : Nat) (name : Option Text) :
    CutShort ((Generator.mk s (some limit) levels).generate name)
      ((Generator.mk s limit' levels).generate name) := by
  unfold generate
  cases name.or s.start with
  | none => exact .done _
  | some rule => exact .note _ (s.cutShort_expand h levels 0 rule)

/-- **A limit only cuts, and never changes a result.** Whatever the source, what a
generator with a smaller limit asks for is the beginning of what one with a greater
limit, or without one, asks for. If it produces a phrase, the other produces the
same phrase and asks for nothing more; and if the other exceeds its limit, it does
so too. Both have the same stack, which may be exhausted. -/
theorem generate_cut_short (s : Store) {limit : Nat} {limit' : Option Nat}
    (hlimit : ∀ bound ∈ limit', limit < bound) (levels : Nat) (name : Option Text) {σ : Type}
    (next : σ → Nat → Nat × σ) (source : σ) :
    let cut := ((Generator.mk s (some limit) levels).generate name).run next source
    let whole := ((Generator.mk s limit' levels).generate name).run next source
    cut.bounds <+: whole.bounds ∧
      (∀ phrase, cut.result = .ok phrase → whole.result = .ok phrase ∧ whole.bounds = cut.bounds) ∧
      ((∃ rule bound, whole.result = .error (.limitExceeded rule bound)) →
        ∃ rule bound, cut.result = .error (.limitExceeded rule bound)) := by
  intro cut whole
  have hcut := Generator.cutShort_generate s (fun bound hbound => (hlimit bound hbound).le) levels name
  obtain ⟨hbounds, hend⟩ := hcut.run next source
  refine ⟨hbounds, fun phrase hphrase => ?_, fun hexceeds => ?_⟩
  · rcases hend with hsame | ⟨rule, bound, hexceeded⟩
    · have hwhole : whole = cut := hsame.symm
      rw [hwhole]
      exact ⟨hphrase, rfl⟩
    · cases hphrase.symm.trans hexceeded
  · rcases hend with hsame | hexceeded
    · have hcutWhole : cut = whole := hsame
      rw [hcutWhole]
      exact hexceeds
    · exact hexceeded

/-- The smaller limit stops at the first of two references that the greater one
goes on with. -/
theorem generate_cut_short_before_reference :
    let s : Store :=
      ⟨[(['a'], ⟨['a'], [⟨"[b][a]".toList, 2⟩, ⟨['z'], 1⟩], 3⟩),
        (['b'], ⟨['b'], [⟨['x'], 1⟩, ⟨['y'], 1⟩], 2⟩)], some ['a']⟩
    let source : Source := .scripted [0, 1, 0, 0, 2]
    let cut := ((Generator.mk s (some 2) stackLevels).generate none).run Source.next source
    let whole := ((Generator.mk s (some 3) stackLevels).generate none).run Source.next source
    (∀ bound ∈ some 3, 2 < bound) ∧ cut.result = .error (.limitExceeded ['b'] 2) ∧
      whole.result = .ok "yxz".toList ∧ cut.bounds = [3, 2, 3] ∧ whole.bounds = [3, 2, 3, 2, 3] ∧
      cut.bounds <+: whole.bounds := by
  intro s source cut whole
  have hlimit : ∀ bound ∈ some 3, 2 < bound := by simp
  exact ⟨hlimit, by cbv, by cbv, by cbv, by cbv,
    (generate_cut_short s hlimit stackLevels none Source.next source).1⟩

end PhraseGrammar
