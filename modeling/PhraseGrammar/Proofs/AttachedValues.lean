/-
Command lines of long names only, each a flag or with its value attached. Such
a line is read word by word (`Command.Sets.read`): no word of it can be taken
for an operand, for the start of another name or for the value of the word
before it, whatever the value is. The one value that does not arrive is `--`,
which leaves a blank (`Given.ofAttached`).
-/
import Mathlib
import PhraseGrammar.Options

namespace PhraseGrammar

/-- What a value that is attached gives to its switch. -/
def Given.ofAttached {α : Type} (read : Text → α) (value : Text) : Given α :=
  if value = twoDashes then .blank else .value (read value)

/-- A word with a value attached to a name. -/
def attachedWord (name value : Text) : Text := name ++ '=' :: value

namespace Command

variable {σ : Type} {c : Command σ}

/-- The names of the switches can be told from operands, from `--` and from
the values that are attached to them. -/
structure WellNamed (c : Command σ) : Prop where
  dash : ∀ name ∈ c.named.map (·.1), name.head? = some '-'
  ne_dash : ∀ name ∈ c.named.map (·.1), name ≠ ['-']
  ne_dashes : ∀ name ∈ c.named.map (·.1), name ≠ twoDashes
  no_equals : ∀ name ∈ c.named.map (·.1), '=' ∉ name

/-- The words, each of them a flag or with its value attached, take the first
arguments to the second. -/
inductive Sets (c : Command σ) : List Text → σ → σ → Prop
  | nil (a : σ) : c.Sets [] a a
  | flag {name : Text} {s : Switch σ} {set : σ → σ} {argv : List Text} {a b : σ} :
      c.find? name = some s → s.effect = .flag set → c.Sets argv (set a) b → c.Sets (name :: argv) a b
  | value {name value : Text} {s : Switch σ} {set : Option Text → σ → Except Text σ}
      {argv : List Text} {a a' b : σ} :
      c.find? name = some s → isShortName name = false → s.effect = .value set →
      set (attachedValue value) a = .ok a' → c.Sets argv a' b →
      c.Sets (attachedWord name value :: argv) a b

/-! ## Telling the words apart -/

theorem mem_named_of_find? {name : Text} {s : Switch σ} (h : c.find? name = some s) :
    name ∈ c.named.map (·.1) := by
  obtain ⟨before, after, hsplit, -⟩ := List.lookup_eq_some_iff.mp h
  rw [hsplit]
  simp

theorem tellWord_name (hc : c.WellNamed) {name : Text} {s : Switch σ} (h : c.find? name = some s) :
    c.tellWord name = .ok (.switch s (isShortName name) none) := by
  have hmem := mem_named_of_find? h
  have hswitch : ¬ (name.head? ≠ some '-' ∨ name = ['-']) := by
    simp [hc.dash _ hmem, hc.ne_dash _ hmem]
  rw [tellWord, if_neg hswitch, h]

theorem cutAt_attachedWord {name : Text} (h : '=' ∉ name) (value : Text) :
    cutAt '=' (attachedWord name value) = some (name, value) :=
  cutAt_append h value

theorem attachedWord_head (hc : c.WellNamed) {name : Text} {s : Switch σ}
    (h : c.find? name = some s) (value : Text) : (attachedWord name value).head? = some '-' := by
  obtain ⟨rest, rfl⟩ := List.head?_eq_some_iff.mp (hc.dash _ (mem_named_of_find? h))
  rfl

theorem mem_attachedWord (name value : Text) : '=' ∈ attachedWord name value := by simp [attachedWord]

theorem tellWord_attached (hc : c.WellNamed) {name : Text} {s : Switch σ} (h : c.find? name = some s)
    (value : Text) :
    c.tellWord (attachedWord name value) = .ok (.switch s (isShortName name) (some value)) := by
  have hequals := mem_attachedWord name value
  have hswitch : ¬ ((attachedWord name value).head? ≠ some '-' ∨ attachedWord name value = ['-']) := by
    rintro (hhead | hdash)
    · exact hhead (attachedWord_head hc h value)
    · simp [hdash] at hequals
  have hnone : c.find? (attachedWord name value) = none := by
    cases hfind : c.find? (attachedWord name value) with
    | none => rfl
    | some s' => exact absurd hequals (hc.no_equals _ (mem_named_of_find? hfind))
  have hcut := cutAt_attachedWord (hc.no_equals _ (mem_named_of_find? h)) value
  rw [tellWord, if_neg hswitch, hnone, hcut]
  simp only [h]

theorem attachedWord_ne_dashes (name value : Text) : attachedWord name value ≠ twoDashes := by
  intro h
  have hequals := mem_attachedWord name value
  simp [h, twoDashes] at hequals

/-! ## Taking the words in -/

theorem takeIn_flag {s : Switch σ} {set : σ → σ} (h : s.effect = .flag set) (short : Bool)
    (i : Intake σ) (rest : List (Word σ)) :
    c.takeIn i (.switch s short none :: rest) =
      c.takeIn { i with arguments := set i.arguments, running := false } rest := by
  have hbundle : c.unfoldWord s short none = .ok ⟨[s], none⟩ := by
    simp [unfoldWord, Bundle.single, Switch.takesValue, h]
  have hact : actAll ⟨[s], none⟩ none i =
      .ok { i with arguments := set i.arguments, running := false } := by
    simp [actAll, act, h]
  simp only [takeIn, hbundle, hact]
  rfl

theorem takeIn_value {s : Switch σ} {set : Option Text → σ → Except Text σ}
    (h : s.effect = .value set) {value : Text} {i : Intake σ} {a : σ}
    (hset : set (attachedValue value) i.arguments = .ok a) (rest : List (Word σ)) :
    c.takeIn i (.switch s false (some value) :: rest) =
      c.takeIn { i with arguments := a, running := false } rest := by
  have hbundle : c.unfoldWord s false (some value) = .ok ⟨[], some (s, some value)⟩ := by
    simp [unfoldWord, Switch.takesValue, h]
  have hact : actAll ⟨[], some (s, some value)⟩ (attachedValue value) i =
      .ok { i with arguments := a, running := false } := by
    simp [actAll, act, h, hset]
    rfl
  simp only [takeIn, hbundle, hact]
  rfl

theorem Sets.takeIn (hc : c.WellNamed) {argv : List Text} {a b : σ} (h : c.Sets argv a b) :
    ∃ words, c.tellWords argv = .ok words ∧
      ∀ i : Intake σ, i.arguments = a →
        ∃ running, c.takeIn i words = .ok { i with arguments := b, running } := by
  induction h with
  | nil a =>
    refine ⟨[], rfl, fun i hi => ⟨i.running, ?_⟩⟩
    subst hi
    rfl
  | @flag name s set argv a b hfind heffect _ ih =>
    obtain ⟨words, htold, hin⟩ := ih
    have hdashes : name ≠ twoDashes := hc.ne_dashes _ (mem_named_of_find? hfind)
    refine ⟨.switch s (isShortName name) none :: words, ?_, fun i hi => ?_⟩
    · rw [tellWords, if_neg hdashes, tellWord_name hc hfind, htold]
      rfl
    · rw [takeIn_flag heffect]
      exact hin _ (by rw [hi])
  | @value name value s set argv a a' b hfind hlong heffect hset _ ih =>
    obtain ⟨words, htold, hin⟩ := ih
    refine ⟨.switch s false (some value) :: words, ?_, fun i hi => ?_⟩
    · rw [tellWords, if_neg (attachedWord_ne_dashes name value), tellWord_attached hc hfind, htold,
        hlong]
      rfl
    · rw [takeIn_value heffect (by rw [hi]; exact hset)]
      exact hin _ rfl

/-- **A command line of flags and attached values is read word by word.** -/
theorem Sets.read (hc : c.WellNamed) {argv : List Text} {a b : σ} (h : c.Sets argv a b) :
    c.read a argv = .ok (match c.operands with
      | some set => set [] b
      | none => b) := by
  obtain ⟨words, htold, hin⟩ := h.takeIn hc
  obtain ⟨running, htaken⟩ := hin ⟨a, none, false, []⟩ rfl
  simp only [Command.read, htold, bind, Except.bind, htaken]
  rfl

end Command

end PhraseGrammar
