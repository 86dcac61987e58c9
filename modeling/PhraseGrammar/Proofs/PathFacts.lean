/-
Paths and their texts. The components of a path that was read from a text are
not empty, are not `.` and have no slash. Paths that are made of such paths are
again like this, and each of them is read back from its text
(`Path.ofText_text`).
-/
import Mathlib
import PhraseGrammar.Files

namespace PhraseGrammar

/-! ## Cutting and joining -/

theorem not_mem_of_mem_cutAtEach {c : Char} {t piece : Text} (h : piece ∈ cutAtEach c t) : c ∉ piece := by
  induction t generalizing piece with
  | nil => simp_all [cutAtEach]
  | cons d t ih =>
    rw [cutAtEach] at h
    split at h
    · rcases List.mem_cons.mp h with rfl | h
      · simp
      · exact ih h
    · next hd =>
      cases hcut : cutAtEach c t with
      | nil => simp [hcut] at h
      | cons first rest =>
        rw [hcut, List.modifyHead_cons] at h
        rcases List.mem_cons.mp h with rfl | h
        · have hfirst : c ∉ first := ih (by simp [hcut])
          simp [Ne.symm hd, hfirst]
        · exact ih (by simp [hcut, h])

theorem cutAtEach_ne_nil (c : Char) (t : Text) : cutAtEach c t ≠ [] := by
  induction t with
  | nil => simp [cutAtEach]
  | cons d t ih =>
    rw [cutAtEach]
    split
    · simp
    · simpa [List.modifyHead_eq_nil_iff] using ih

theorem exists_mem_cutAtEach_iff {c d : Char} (hne : d ≠ c) {t : Text} :
    (∃ piece ∈ cutAtEach c t, d ∈ piece) ↔ d ∈ t := by
  induction t with
  | nil => simp [cutAtEach]
  | cons e t ih =>
    rw [cutAtEach]
    split
    · next he => simp [ih, he, hne]
    · obtain ⟨first, rest, hcut⟩ := List.exists_cons_of_ne_nil (cutAtEach_ne_nil c t)
      rw [hcut] at ih ⊢
      simp only [List.modifyHead_cons, List.mem_cons, or_and_right, exists_or, exists_eq_left] at ih ⊢
      rw [or_assoc, ih]

theorem cutAtEach_of_not_mem {c : Char} {t : Text} (h : c ∉ t) : cutAtEach c t = [t] := by
  induction t with
  | nil => rfl
  | cons d t ih =>
    have hd : d ≠ c := fun hd => h (by simp [hd])
    have ht : c ∉ t := fun ht => h (by simp [ht])
    rw [cutAtEach, if_neg hd, ih ht, List.modifyHead_cons]

theorem cutAtEach_append {c : Char} {t : Text} (h : c ∉ t) (rest : Text) :
    cutAtEach c (t ++ c :: rest) = t :: cutAtEach c rest := by
  induction t with
  | nil => rw [List.nil_append, cutAtEach, if_pos rfl]
  | cons d t ih =>
    have hd : d ≠ c := fun hd => h (by simp [hd])
    have ht : c ∉ t := fun ht => h (by simp [ht])
    rw [List.cons_append, cutAtEach, if_neg hd, ih ht, List.modifyHead_cons]

theorem cutAtEach_joinWith {c : Char} {ts : List Text} (hne : ts ≠ []) (h : ∀ t ∈ ts, c ∉ t) :
    cutAtEach c (joinWith [c] ts) = ts := by
  induction ts with
  | nil => exact absurd rfl hne
  | cons t ts ih =>
    cases ts with
    | nil => exact cutAtEach_of_not_mem (h t (by simp))
    | cons u ts =>
      rw [joinWith, List.append_assoc, List.singleton_append, cutAtEach_append (h t (by simp)),
        ih (by simp) fun t' ht' => h t' (by simp [ht'])]

theorem joinWith_ne_nil {sep : Text} {ts : List Text} (h : ∀ t ∈ ts, t ≠ []) (hne : ts ≠ []) :
    joinWith sep ts ≠ [] := by
  obtain ⟨t, rest, rfl⟩ := List.exists_cons_of_ne_nil hne
  have ht := h t (by simp)
  cases rest <;> simp [joinWith, ht]

/-! ## Plain paths -/

/-- What can stand between two slashes of a path in its normal form. -/
structure IsComponent (part : Text) : Prop where
  ne_nil : part ≠ []
  ne_dot : part ≠ ['.']
  no_slash : '/' ∉ part

namespace Path

/-- A path that some text writes. -/
structure Plain (p : Path) : Prop where
  root : p.root = [] ∨ p.root = ['/'] ∨ p.root = ['/', '/']
  parts : ∀ part ∈ p.parts, IsComponent part

theorem rootOf_cases (t : Text) : rootOf t = [] ∨ rootOf t = ['/'] ∨ rootOf t = ['/', '/'] := by
  unfold rootOf
  split <;> simp

theorem plain_ofText (t : Text) : (ofText t).Plain where
  root := rootOf_cases t
  parts := by
    intro part hpart
    obtain ⟨hmem, hkept⟩ := List.mem_filter.mp hpart
    have hkept : part ≠ [] ∧ part ≠ ['.'] := by simpa using hkept
    exact ⟨hkept.1, hkept.2, not_mem_of_mem_cutAtEach hmem⟩

theorem Plain.parent {p : Path} (h : p.Plain) : p.parent.Plain where
  root := h.root
  parts := fun part hpart => h.parts part (List.mem_of_mem_dropLast hpart)

theorem Plain.join {p q : Path} (hp : p.Plain) (hq : q.Plain) : (p.join q).Plain := by
  unfold Path.join
  split
  · exact hq
  · refine ⟨hp.root, fun part hpart => ?_⟩
    exact (List.mem_append.mp hpart).elim (hp.parts part) (hq.parts part)

theorem isComponent_foldl {here parts : List Text} (hhere : ∀ part ∈ here, IsComponent part)
    (hparts : ∀ part ∈ parts, IsComponent part) :
    ∀ part ∈ parts.foldl stepLexically here, IsComponent part := by
  induction parts generalizing here with
  | nil => exact hhere
  | cons next parts ih =>
    refine ih (fun part hpart => ?_) fun part hpart => hparts part (by simp [hpart])
    unfold stepLexically at hpart
    split at hpart
    · exact hhere part (List.mem_of_mem_dropLast hpart)
    · rcases List.mem_append.mp hpart with hpart | hpart
      · exact hhere part hpart
      · rw [List.mem_singleton.mp hpart]
        exact hparts next (by simp)

theorem Plain.resolve {p : Path} (hp : p.Plain) {cwd : List Text}
    (hcwd : ∀ part ∈ cwd, IsComponent part) : (p.resolve cwd).Plain where
  root := .inr (.inl rfl)
  parts := by
    refine isComponent_foldl (fun part hpart => ?_) hp.parts
    split at hpart
    · cases hpart
    · exact hcwd part hpart

/-! ## Names with a NUL -/

theorem hasNul_ofText {name : Text} : (ofText name).hasNul = true ↔ '\x00' ∈ name := by
  rw [← exists_mem_cutAtEach_iff (c := '/') (by decide)]
  simp only [hasNul, List.any_eq_true, List.contains_iff_mem, ofText, List.mem_filter]
  refine ⟨fun ⟨part, hpart, hnul⟩ => ⟨part, hpart.1, hnul⟩, fun ⟨part, hpart, hnul⟩ => ?_⟩
  have hne : part ≠ [] := List.ne_nil_of_mem hnul
  have hdot : part ≠ ['.'] := by
    rintro rfl
    simp at hnul
  exact ⟨part, ⟨hpart, by simp [hne, hdot]⟩, hnul⟩

theorem hasNul_join {p q : Path} (hp : p.hasNul = false) : (p.join q).hasNul = q.hasNul := by
  unfold join
  split
  · rfl
  · rw [hasNul, List.any_append]
    unfold hasNul at hp
    rw [hp, Bool.false_or]
    rfl

theorem hasNul_parent {p : Path} (h : p.hasNul = false) : p.parent.hasNul = false := by
  rw [hasNul, List.any_eq_false] at h ⊢
  exact fun part hpart => h part (List.mem_of_mem_dropLast hpart)

/-! ## The text of a path -/

theorem joinWith_head {parts : List Text} (h : ∀ part ∈ parts, IsComponent part) :
    (joinWith ['/'] parts).head? ≠ some '/' := by
  cases parts with
  | nil => simp [joinWith]
  | cons part rest =>
    have hpart := h part (by simp)
    obtain ⟨c, t, rfl⟩ := List.exists_cons_of_ne_nil hpart.ne_nil
    have hc : c ≠ '/' := fun hc => hpart.no_slash (by simp [hc])
    cases rest <;> simpa [joinWith] using hc

theorem rootOf_append {root t : Text} (hroot : root = [] ∨ root = ['/'] ∨ root = ['/', '/'])
    (ht : t.head? ≠ some '/') : rootOf (root ++ t) = root := by
  cases t with
  | nil => rcases hroot with rfl | rfl | rfl <;> rfl
  | cons c t =>
    have hc : c ≠ '/' := by simpa using ht
    rcases hroot with rfl | rfl | rfl <;> simp [rootOf, hc]

/-- The components of a path with slashes in front. -/
theorem filter_cutAtEach_root {root : Text} (hroot : root = [] ∨ root = ['/'] ∨ root = ['/', '/'])
    (t : Text) :
    ((cutAtEach '/' (root ++ t)).filter fun part => !part.isEmpty && part != ['.']) =
      (cutAtEach '/' t).filter fun part => !part.isEmpty && part != ['.'] := by
  rcases hroot with rfl | rfl | rfl <;> simp [cutAtEach]

/-- **A plain path is read back from its text.** -/
theorem ofText_text {p : Path} (h : p.Plain) : ofText p.text = p := by
  obtain ⟨root, parts⟩ := p
  have hroot : root = [] ∨ root = ['/'] ∨ root = ['/', '/'] := h.root
  have hparts : ∀ part ∈ parts, IsComponent part := h.parts
  unfold text
  simp only
  split
  · next hempty =>
    have hboth : root = [] ∧ joinWith ['/'] parts = [] := by simpa using hempty
    have hnone : parts = [] :=
      by_contra fun hne => joinWith_ne_nil (fun part hpart => (hparts part hpart).ne_nil) hne hboth.2
    rw [hboth.1, hnone]
    rfl
  · have hkeep : (parts.filter fun part => !part.isEmpty && part != ['.']) = parts := by
      refine List.filter_eq_self.mpr fun part hpart => ?_
      simp [(hparts part hpart).ne_nil, (hparts part hpart).ne_dot]
    rw [ofText, rootOf_append hroot (joinWith_head hparts), filter_cutAtEach_root hroot]
    cases parts with
    | nil => rfl
    | cons part rest =>
      rw [cutAtEach_joinWith (by simp) fun part hpart => (hparts part hpart).no_slash, hkeep]

theorem text_head {p : Path} (h : p.Plain) (ha : p.isAbsolute = true) : p.text.head? = some '/' := by
  have hroot : p.root = ['/'] ∨ p.root = ['/', '/'] :=
    h.root.resolve_left fun hnil => by simp [isAbsolute, hnil] at ha
  rcases hroot with hroot | hroot <;> simp [text, hroot]

end Path

end PhraseGrammar
