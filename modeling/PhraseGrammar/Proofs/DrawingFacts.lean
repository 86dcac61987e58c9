/-
What a drawing can end in, whatever the source answers. `CanEnd d a` says that
some answers below their bounds lead `d` to `a`. It is told apart from any
source, and yet it is what sources can do (`canEnd_iff_run`), if every bound
that the drawing asks for leaves an answer.

The answers of a drawing that goes on with another are those of the first and
then those of the second, so what `bind` can end in is told by its two parts
(`canEnd_bind_iff`): answers never need to be put together by hand.
-/
import PhraseGrammar.Source

namespace PhraseGrammar

/-- A source that answers every bound with a number below it. -/
def AnswersBelow {σ : Type} (next : σ → Nat → Nat × σ) : Prop :=
  ∀ s bound, 0 < bound → (next s bound).1 < bound

theorem answersBelow_next : AnswersBelow Source.next := fun s _ h => s.next_lt h

namespace Drawing

variable {α β : Type}

/-- Some answers lead the drawing to this end. -/
inductive CanEnd : Drawing α → α → Prop
  | done (a : α) : CanEnd (.done a) a
  | note {n : Notice} {rest : Drawing α} {a : α} : CanEnd rest a → CanEnd (.note n rest) a
  | draw {bound : Nat} {rest : Nat → Drawing α} {a : α} (answer : Nat) :
      answer < bound → CanEnd (rest answer) a → CanEnd (.draw bound rest) a

/-- No bound that the drawing asks for is zero. -/
def AsksPositive : Drawing α → Prop
  | .done _ => True
  | .note _ rest => rest.AsksPositive
  | .draw bound rest => 0 < bound ∧ ∀ answer, (rest answer).AsksPositive

/-! ## Ends of composed drawings -/

theorem canEnd_done_iff {a b : α} : CanEnd (.done a) b ↔ b = a :=
  ⟨fun h => by cases h; rfl, fun h => h ▸ .done a⟩

theorem canEnd_note_iff {n : Notice} {d : Drawing α} {a : α} : CanEnd (.note n d) a ↔ CanEnd d a :=
  ⟨fun h => by cases h; assumption, .note⟩

theorem canEnd_draw_iff {bound : Nat} {rest : Nat → Drawing α} {a : α} :
    CanEnd (.draw bound rest) a ↔ ∃ answer < bound, CanEnd (rest answer) a :=
  ⟨fun h => by cases h with | draw answer hlt h => exact ⟨answer, hlt, h⟩,
    fun ⟨answer, hlt, h⟩ => .draw answer hlt h⟩

theorem canEnd_bind_iff {d : Drawing α} {f : α → Drawing β} {b : β} :
    CanEnd (d.bind f) b ↔ ∃ a, CanEnd d a ∧ CanEnd (f a) b := by
  induction d with
  | done a => simp [bind, canEnd_done_iff]
  | note n rest ih => simp only [bind, canEnd_note_iff, ih]
  | draw bound rest ih =>
    simp only [bind, canEnd_draw_iff, ih]
    constructor
    · rintro ⟨answer, hlt, a, ha, hb⟩
      exact ⟨a, ⟨answer, hlt, ha⟩, hb⟩
    · rintro ⟨a, ⟨answer, hlt, ha⟩, hb⟩
      exact ⟨answer, hlt, a, ha, hb⟩

theorem canEnd_map_iff {d : Drawing α} {f : α → β} {b : β} :
    CanEnd (d.map f) b ↔ ∃ a, CanEnd d a ∧ b = f a := by
  simp only [map, canEnd_bind_iff, canEnd_done_iff]

theorem AsksPositive.bind {d : Drawing α} {f : α → Drawing β} (hd : d.AsksPositive)
    (hf : ∀ a, (f a).AsksPositive) : (d.bind f).AsksPositive := by
  induction d with
  | done a => exact hf a
  | note n rest ih => exact ih hd
  | draw bound rest ih => exact ⟨hd.1, fun answer => ih answer (hd.2 answer)⟩

theorem AsksPositive.map {d : Drawing α} (hd : d.AsksPositive) (f : α → β) :
    (d.map f).AsksPositive := hd.bind fun _ => trivial

/-- No run asks for a bound of zero, even if answers are not below their bounds. -/
theorem AsksPositive.bounds {σ : Type} {d : Drawing α} (hd : d.AsksPositive)
    (next : σ → Nat → Nat × σ) (s : σ) : ∀ b ∈ (d.run next s).bounds, 0 < b := by
  induction d generalizing s with
  | done a => simp [run]
  | note n rest ih => exact ih hd s
  | draw bound rest ih => exact List.forall_mem_cons.mpr ⟨hd.1, ih _ (hd.2 _) _⟩

/-! ## Ends and runs -/

theorem canEnd_run {σ : Type} {next : σ → Nat → Nat × σ} (hnext : AnswersBelow next)
    {d : Drawing α} (hd : d.AsksPositive) (s : σ) : CanEnd d (d.run next s).result := by
  induction d generalizing s with
  | done a => exact .done a
  | note n rest ih => exact .note (ih hd s)
  | draw bound rest ih => exact .draw _ (hnext s bound hd.1) (ih _ (hd.2 _) _)

/-- The answers that lead a drawing to an end, as a script. -/
theorem exists_script {d : Drawing α} {a : α} (h : CanEnd d a) :
    ∃ answers : List Int, (d.run Source.next (.scripted answers)).result = a := by
  induction h with
  | done a => exact ⟨[], rfl⟩
  | note _ ih => exact ih
  | @draw bound rest a answer hlt _ ih =>
    obtain ⟨answers, hrun⟩ := ih
    have hclamp : Source.clampBelow answer bound = answer := by
      simp only [Source.clampBelow]
      omega
    refine ⟨answer :: answers, ?_⟩
    simp only [run, Source.next, hclamp]
    exact hrun

/-- **What a drawing can end in is what runs of it end in.** -/
theorem canEnd_iff_run {d : Drawing α} (hd : d.AsksPositive) {a : α} :
    CanEnd d a ↔ ∃ (σ : Type) (next : σ → Nat → Nat × σ) (s : σ),
      AnswersBelow next ∧ (d.run next s).result = a := by
  constructor
  · intro h
    obtain ⟨answers, hrun⟩ := exists_script h
    exact ⟨Source, Source.next, .scripted answers, answersBelow_next, hrun⟩
  · rintro ⟨σ, next, s, hnext, rfl⟩
    exact canEnd_run hnext hd s

end Drawing

end PhraseGrammar
