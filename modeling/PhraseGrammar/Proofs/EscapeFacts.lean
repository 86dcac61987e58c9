/-
Facts about written texts: what reading makes of `escape t` and of
`escapeName name`.

Reading trims before it resolves, so the two could interfere: a cut might go
through a pair and leave its backslash behind. It never does in a written
text. The only padding there is the spaces of the text itself, for a tab is
written as a pair, and no pair that `escape` writes ends in a space. The pair
before the leading space of a name does, and is cut in two when the name is
nothing but spaces; what is left resolves to the empty name, as it should.
-/
import Mathlib.Data.List.DropRight
import PhraseGrammar.Text.Escape

namespace PhraseGrammar

/-- The text without the spaces that end it. -/
def trimEnd (t : Text) : Text := t.rdropWhile (· == ' ')

theorem trimEnd_concat (t : Text) (c : Char) :
    trimEnd (t ++ [c]) = if c = ' ' then trimEnd t else t ++ [c] := by
  simp [trimEnd, List.rdropWhile_concat]

theorem trimEnd_trimEnd (t : Text) : trimEnd (trimEnd t) = trimEnd t :=
  List.rdropWhile_idempotent _ t

theorem trimEnd_eq_self_iff {t : Text} : trimEnd t = t ↔ t.getLast? ≠ some ' ' := by
  rw [trimEnd, List.rdropWhile_eq_self_iff]
  cases t with
  | nil => simp
  | cons c t => simp [List.getLast?_eq_some_getLast]

theorem rdropWhile_append_cons {α : Type} {p : α → Bool} {c : α} (hc : p c = false) (t u : List α) :
    (t ++ c :: u).rdropWhile p = t ++ c :: u.rdropWhile p := by
  induction u using List.reverseRecOn with
  | nil => simp [hc]
  | append_singleton u d ih =>
    have happ : t ++ c :: (u ++ [d]) = (t ++ c :: u) ++ [d] := by simp
    rw [happ, List.rdropWhile_concat, List.rdropWhile_concat]
    split
    · exact ih
    · simp

theorem trimEnd_append_cons {c : Char} (hc : c ≠ ' ') (t u : Text) :
    trimEnd (t ++ c :: u) = t ++ c :: trimEnd u :=
  rdropWhile_append_cons (by simpa using hc) t u

/-! ## Padding of a written text -/

theorem escapeChar_cases (c : Char) :
    (∃ d ∈ ['\\', 'n', 'r', 't'], escapeChar c = ['\\', d]) ∨
      (escapeChar c = [c] ∧ c ∉ ['\\', '\n', '\r', '\t']) := by
  unfold escapeChar
  split
  · exact .inl ⟨_, by simp, rfl⟩
  split
  · exact .inl ⟨_, by simp, rfl⟩
  split
  · exact .inl ⟨_, by simp, rfl⟩
  split
  · exact .inl ⟨_, by simp, rfl⟩
  next hback hfeed hret htab => exact .inr ⟨rfl, by simp [hback, hfeed, hret, htab]⟩

theorem escapeChar_head {c : Char} (hc : c ≠ ' ') :
    ∃ d u, escapeChar c = d :: u ∧ isPadding d = false := by
  rcases escapeChar_cases c with ⟨d, -, h⟩ | ⟨h, hmem⟩
  · exact ⟨_, _, h, by decide⟩
  · simp only [List.mem_cons, not_or] at hmem
    exact ⟨c, [], h, by simp [isPadding, hc, hmem]⟩

theorem escapeChar_last {c : Char} (hc : c ≠ ' ') :
    ∃ u d, escapeChar c = u ++ [d] ∧ isPadding d = false := by
  rcases escapeChar_cases c with ⟨d, hd, h⟩ | ⟨h, hmem⟩
  · have hpad : ∀ d ∈ ['\\', 'n', 'r', 't'], isPadding d = false := by simp [isPadding]
    exact ⟨['\\'], d, h, hpad d hd⟩
  · simp only [List.mem_cons, not_or] at hmem
    exact ⟨[], c, h, by simp [isPadding, hc, hmem]⟩

theorem escape_concat (t : Text) (c : Char) : escape (t ++ [c]) = escape t ++ escapeChar c := by
  rw [escape_append, escape_cons, escape_nil, List.append_nil]

/-- The padding that ends a written text is the spaces that end the text. -/
theorem rdropWhile_escape (t : Text) : (escape t).rdropWhile isPadding = escape (trimEnd t) := by
  induction t using List.reverseRecOn with
  | nil => simp [escape_nil, trimEnd]
  | append_singleton t c ih =>
    rw [trimEnd_concat, escape_concat]
    by_cases hc : c = ' '
    · subst hc
      have hpad : isPadding ' ' = true := by decide
      rw [if_pos rfl, ← ih]
      exact List.rdropWhile_concat_pos _ _ _ hpad
    · obtain ⟨u, d, hlast, hpad⟩ := escapeChar_last hc
      rw [if_neg hc, escape_concat, hlast, ← List.append_assoc, List.rdropWhile_concat, hpad]
      rfl

/-- The padding that begins a written text is the spaces that begin the text. -/
theorem dropWhile_escape (t : Text) :
    (escape t).dropWhile isPadding = escape (t.dropWhile (· == ' ')) := by
  induction t with
  | nil => rfl
  | cons c t ih =>
    by_cases hc : c = ' '
    · subst hc
      rw [escape_cons]
      exact ih
    · obtain ⟨d, u, hhead, hpad⟩ := escapeChar_head hc
      have hdrop : (c :: t).dropWhile (· == ' ') = c :: t := by simp [hc]
      rw [hdrop, escape_cons, hhead, List.cons_append, List.dropWhile_cons, hpad]
      rfl

theorem not_mem_escape {c : Char} (hc : c ∈ ['\n', '\r', '\t']) (t : Text) : c ∉ escape t := by
  rw [escape, List.mem_flatMap]
  rintro ⟨d, -, hd⟩
  rcases escapeChar_cases d with ⟨e, he, h⟩ | ⟨h, hmem⟩
  · have hpair : ∀ c ∈ ['\n', '\r', '\t'], ∀ e ∈ ['\\', 'n', 'r', 't'], c ∉ ['\\', e] := by simp
    exact hpair c hc e he (h ▸ hd)
  · rw [h, List.mem_singleton] at hd
    exact hmem (List.mem_cons_of_mem _ (hd ▸ hc))

theorem escape_eq_self {t : Text} (h : ∀ c ∈ t, c ∉ ['\\', '\n', '\r', '\t']) : escape t = t := by
  induction t with
  | nil => rfl
  | cons c t ih =>
    have hc := h c (by simp)
    simp only [List.mem_cons, List.not_mem_nil, or_false, not_or] at hc
    rw [escape_cons, ih fun d hd => h d (by simp [hd])]
    simp [escapeChar, hc]

/-! ## Reading back -/

theorem trimBoth_of_ends {p : Char → Bool} {t : Text} (hfirst : ∀ c ∈ t.head?, p c = false)
    (hlast : ∀ c ∈ t.getLast?, p c = false) : trimBoth p t = t := by
  have hdrop {u : Text} (hu : ∀ c ∈ u.head?, p c = false) : u.dropWhile p = u := by
    cases u with
    | nil => rfl
    | cons c u => rw [List.dropWhile_cons, hu c rfl, if_neg Bool.false_ne_true]
  have hreverse : ∀ c ∈ t.reverse.head?, p c = false := by rwa [List.head?_reverse]
  rw [trimBoth, hdrop hfirst, hdrop hreverse, List.reverse_reverse]

theorem trimBoth_eq_self {p : Char → Bool} {t : Text} (h : ∀ c ∈ t, p c = false) : trimBoth p t = t :=
  trimBoth_of_ends (fun c hc => h c (List.mem_of_head? hc)) fun c hc => h c (List.mem_of_getLast? hc)

theorem resolve_eq_self {t : Text} (h : '\\' ∉ t) : resolve t = t := by
  induction t using resolve.induct with
  | case1 => rfl
  | case2 => simp at h
  | case3 c hc => simp [resolve, hc]
  | case4 => simp at h
  | case5 c d rest hc ih =>
    rw [resolve, if_neg hc, ih fun hmem => h (List.mem_cons_of_mem c hmem)]

theorem unescape_eq (raw : Text) :
    unescape raw = resolve ((raw.dropWhile isPadding).rdropWhile isPadding) := rfl

/-- What is written for a text reads back as the text, but for the spaces
around it. -/
theorem unescape_escape (t : Text) : unescape (escape t) = trimEnd (t.dropWhile (· == ' ')) := by
  rw [unescape_eq, dropWhile_escape, rdropWhile_escape, resolve_escape]

theorem escapeName_cons_space (rest : Text) :
    escapeName (' ' :: rest) = '\\' :: escape (' ' :: rest) := rfl

theorem escapeName_of_head {name : Text} (h : name.head? ≠ some ' ') :
    escapeName name = escape name := by
  cases name with
  | nil => rfl
  | cons c rest =>
    have hc : c ≠ ' ' := by simpa using h
    obtain ⟨d, u, hhead, hpad⟩ := escapeChar_head hc
    rw [escapeName, escape_cons, hhead]
    split
    · next he =>
      obtain ⟨rfl, -⟩ := List.cons.inj he
      exact absurd hpad (by decide)
    · rfl

/-- A backslash before a text that begins with a space adds nothing to what the
text reads back as, and nothing is left of it alone. -/
theorem resolve_backslash_escape {t : Text} (h : t = [] ∨ t.head? = some ' ') :
    resolve ('\\' :: escape t) = t := by
  cases t with
  | nil => rfl
  | cons c rest =>
    obtain rfl : c = ' ' := by simpa using h
    have hpair : resolve ('\\' :: escape (' ' :: rest)) = ' ' :: resolve (escape rest) := rfl
    rw [hpair, resolve_escape]

/-- What is written for a name after `* ` reads back as the name, but for the
spaces that end it. -/
theorem unescape_escapeName (name : Text) : unescape (' ' :: escapeName name) = trimEnd name := by
  have hdrop : (' ' :: escapeName name).dropWhile isPadding = (escapeName name).dropWhile isPadding :=
    rfl
  rw [unescape_eq, hdrop]
  by_cases hhead : name.head? = some ' '
  · obtain ⟨rest, rfl⟩ := List.head?_eq_some_iff.mp hhead
    have hback : isPadding '\\' = false := by decide
    have hcut := rdropWhile_append_cons hback [] (escape (' ' :: rest))
    rw [List.nil_append, rdropWhile_escape] at hcut
    rw [escapeName_cons_space, List.dropWhile_cons_of_neg (by simp [hback]), hcut]
    refine resolve_backslash_escape ?_
    obtain ⟨u, hu⟩ := List.rdropWhile_prefix (· == ' ') (l := ' ' :: rest)
    cases ht : trimEnd (' ' :: rest) with
    | nil => exact .inl rfl
    | cons c t =>
      rw [← trimEnd, ht] at hu
      exact .inr (by simpa using congrArg List.head? hu)
  · have hfirst : name.dropWhile (· == ' ') = name := by
      cases name with
      | nil => rfl
      | cons c rest => exact List.dropWhile_cons_of_neg (by simpa using hhead)
    rw [escapeName_of_head hhead, dropWhile_escape, hfirst, rdropWhile_escape, resolve_escape]

end PhraseGrammar
