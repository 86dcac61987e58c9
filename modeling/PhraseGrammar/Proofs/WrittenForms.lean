/-
The written forms: exactly the texts that `escape` gives, told without it. They hold
no raw line feed, carriage return or tab, and every backslash in them is the first of
a pair that is read as one character. On these reading and writing undo each other,
but for the spaces at the ends, which reading drops (`escape_inverse`).

Writing goes character by character, and is the same as four replacements in the whole
text, if that of the backslash comes first (`escape_eq_replacements`): the other three
write backslashes of their own.
-/
import PhraseGrammar.Proofs.EscapeFacts

namespace PhraseGrammar

/-- Writes `w` for every `c` of a text. -/
def replaceEach (c : Char) (w : Text) (t : Text) : Text := t.flatMap fun d => if d = c then w else [d]

theorem replaceEach_append (c : Char) (w t u : Text) :
    replaceEach c w (t ++ u) = replaceEach c w t ++ replaceEach c w u := List.flatMap_append

theorem replaceEach_singleton (c : Char) (w : Text) (d : Char) :
    replaceEach c w [d] = if d = c then w else [d] := List.flatMap_singleton _ _

/-- Four replacements, one after the other, in a whole text. -/
def replaceControls (t : Text) : Text :=
  replaceEach '\t' ['\\', 't'] (replaceEach '\r' ['\\', 'r'] (replaceEach '\n' ['\\', 'n']
    (replaceEach '\\' ['\\', '\\'] t)))

theorem replaceControls_append (t u : Text) :
    replaceControls (t ++ u) = replaceControls t ++ replaceControls u := by
  simp only [replaceControls, replaceEach_append]

theorem replaceControls_singleton (c : Char) : replaceControls [c] = escapeChar c := by
  rcases escapeChar_cases c with ⟨d, hd, h⟩ | ⟨h, hmem⟩
  · have hc : c ∈ ['\\', '\n', '\r', '\t'] := by
      refine Decidable.by_contra fun hc => ?_
      simp only [List.mem_cons, List.not_mem_nil, or_false, not_or] at hc
      simp [escapeChar, hc] at h
    have hcontrol : ∀ c ∈ ['\\', '\n', '\r', '\t'], replaceControls [c] = escapeChar c := by
      simp [replaceControls, replaceEach, escapeChar]
    exact hcontrol c hc
  · simp only [List.mem_cons, List.not_mem_nil, or_false, not_or] at hmem
    simp only [replaceControls, replaceEach_singleton, h, hmem, if_false]

/-- **Writing is four replacements**, that of the backslash first. -/
theorem escape_eq_replacements (t : Text) : escape t = replaceControls t := by
  induction t with
  | nil => rfl
  | cons c t ih =>
    rw [escape_cons, ih, ← replaceControls_singleton, ← replaceControls_append]
    rfl

/-! ## Written forms -/

/-- A row of characters that are no backslash, and of pairs: a backslash and one of
the characters that have a meaning after it. -/
inductive Paired : Text → Prop
  | nil : Paired []
  | plain {c : Char} {s : Text} : c ≠ '\\' → Paired s → Paired (c :: s)
  | pair {d : Char} {s : Text} : d ∈ ['\\', 'n', 'r', 't'] → Paired s → Paired ('\\' :: d :: s)

/-- What may be written: no control character stands bare, and the rest is in pairs. -/
structure IsWritten (s : Text) : Prop where
  bare : ∀ c ∈ s, c ∉ ['\n', '\r', '\t']
  paired : Paired s

theorem paired_escape (t : Text) : Paired (escape t) := by
  induction t with
  | nil => exact .nil
  | cons c t ih =>
    rw [escape_cons]
    rcases escapeChar_cases c with ⟨d, hd, h⟩ | ⟨h, hmem⟩
    · rw [h]
      exact .pair hd ih
    · rw [h]
      exact .plain (fun hc => hmem (by simp [hc])) ih

theorem isWritten_escape (t : Text) : IsWritten (escape t) :=
  ⟨fun _ hc hmem => not_mem_escape hmem t hc, paired_escape t⟩

theorem resolve_plain {c : Char} (hc : c ≠ '\\') (s : Text) : resolve (c :: s) = c :: resolve s := by
  cases s with
  | nil => simp [resolve, hc]
  | cons d s => simp [resolve, hc]

theorem resolve_pair (d : Char) (s : Text) : resolve ('\\' :: d :: s) = unescapeChar d :: resolve s := by
  simp [resolve]

/-- The character that a pair stands for is written as the pair. -/
theorem escapeChar_unescapeChar {d : Char} (hd : d ∈ ['\\', 'n', 'r', 't']) :
    escapeChar (unescapeChar d) = ['\\', d] := by
  have hpair : ∀ d ∈ ['\\', 'n', 'r', 't'], escapeChar (unescapeChar d) = ['\\', d] := by
    simp [escapeChar, unescapeChar]
  exact hpair d hd

theorem escape_resolve {s : Text} (h : IsWritten s) : escape (resolve s) = s := by
  obtain ⟨hbare, hpaired⟩ := h
  induction hpaired with
  | nil => rfl
  | @plain c s hc _ ih =>
    have hcontrol : c ∉ ['\n', '\r', '\t'] := hbare c (by simp)
    have hself : escapeChar c = [c] := by
      simp only [List.mem_cons, List.not_mem_nil, or_false, not_or] at hcontrol
      simp [escapeChar, hc, hcontrol]
    rw [resolve_plain hc, escape_cons, hself, ih fun d hd => hbare d (by simp [hd])]
    rfl
  | @pair d s hd _ ih =>
    rw [resolve_pair, escape_cons, escapeChar_unescapeChar hd, ih fun e he => hbare e (by simp [he])]
    rfl

/-! ## Spaces at the ends -/

theorem exists_spaces_before (t : Text) :
    ∃ m, t = List.replicate m ' ' ++ t.dropWhile (· == ' ') := by
  induction t with
  | nil => exact ⟨0, rfl⟩
  | cons c t ih =>
    by_cases hc : c = ' '
    · subst hc
      obtain ⟨m, hm⟩ := ih
      exact ⟨m + 1, congrArg (' ' :: ·) hm⟩
    · exact ⟨0, by simp [hc]⟩

theorem exists_spaces_after (t : Text) : ∃ n, t = trimEnd t ++ List.replicate n ' ' := by
  induction t using List.reverseRecOn with
  | nil => exact ⟨0, rfl⟩
  | append_singleton t c ih =>
    rw [trimEnd_concat]
    by_cases hc : c = ' '
    · subst hc
      obtain ⟨n, hn⟩ := ih
      refine ⟨n + 1, ?_⟩
      rw [if_pos rfl, List.replicate_succ', ← List.append_assoc, ← hn]
    · exact ⟨0, by simp [hc]⟩

theorem head?_dropWhile_space (t : Text) : (t.dropWhile (· == ' ')).head? ≠ some ' ' := by
  intro h
  have hnot := List.head?_dropWhile_not (· == ' ') t
  rw [h] at hnot
  cases hnot

theorem head?_trimEnd {t : Text} (h : t.head? ≠ some ' ') : (trimEnd t).head? ≠ some ' ' := by
  obtain ⟨u, hu⟩ := List.rdropWhile_prefix (· == ' ') (l := t)
  intro hhead
  refine h ?_
  rw [← hu, List.head?_append, ← trimEnd, hhead]
  rfl

/-- A written form has no padding but the spaces at its ends. -/
theorem trimBoth_of_isWritten {s : Text} (h : IsWritten s) (hfirst : s.head? ≠ some ' ')
    (hlast : s.getLast? ≠ some ' ') : trimBoth isPadding s = s := by
  have hpad {c : Char} (hc : c ∈ s) (hspace : c ≠ ' ') : isPadding c = false := by
    have hcontrol := h.bare c hc
    simp only [List.mem_cons, List.not_mem_nil, or_false, not_or] at hcontrol
    simp [isPadding, hspace, hcontrol]
  exact trimBoth_of_ends
    (fun c hc => hpad (List.mem_of_head? hc) fun hspace => hfirst (hspace ▸ hc))
    fun c hc => hpad (List.mem_of_getLast? hc) fun hspace => hlast (hspace ▸ hc)

/-- **Writing and reading undo each other, but for outer spaces.** What is written, by
four replacements, reads back as the text without the spaces at its ends; the texts that
are written are the written forms and no others; and one of them that has no space at an
end is written again for what it reads as. -/
theorem escape_inverse :
    (∀ t, escape t = replaceControls t) ∧
    (∀ t, ∃ m n, t = List.replicate m ' ' ++ unescape (escape t) ++ List.replicate n ' ' ∧
      (unescape (escape t)).head? ≠ some ' ' ∧ (unescape (escape t)).getLast? ≠ some ' ') ∧
    (∀ s, (∃ t, escape t = s) ↔ IsWritten s) ∧
    ∀ s, IsWritten s → s.head? ≠ some ' ' → s.getLast? ≠ some ' ' → escape (unescape s) = s := by
  refine ⟨escape_eq_replacements, fun t => ?_, fun s => ⟨?_, fun h => ⟨resolve s, escape_resolve h⟩⟩, ?_⟩
  · obtain ⟨m, hm⟩ := exists_spaces_before t
    obtain ⟨n, hn⟩ := exists_spaces_after (t.dropWhile (· == ' '))
    rw [unescape_escape]
    refine ⟨m, n, ?_, head?_trimEnd (head?_dropWhile_space t), ?_⟩
    · rw [List.append_assoc, ← hn, ← hm]
    · exact trimEnd_eq_self_iff.mp (trimEnd_trimEnd _)
  · rintro ⟨t, rfl⟩
    exact isWritten_escape t
  · intro s h hfirst hlast
    rw [unescape, trimBoth_of_isWritten h hfirst hlast, escape_resolve h]

/-- A run of backslashes before a letter, where the pairs decide what is meant: two
backslashes and a line feed, with a tab after them. -/
theorem escape_inverse_of_backslash_run :
    let s : Text := "\\\\\\\\\\n\\t".toList
    IsWritten s ∧ s.head? ≠ some ' ' ∧ s.getLast? ≠ some ' ' ∧
      unescape s = "\\\\\n\t".toList ∧ escape (unescape s) = s := by
  intro s
  have hread : unescape s = "\\\\\n\t".toList := by decide
  have hwritten : IsWritten s := (escape_inverse.2.2.1 s).mp ⟨"\\\\\n\t".toList, by decide⟩
  have hends : s.head? ≠ some ' ' ∧ s.getLast? ≠ some ' ' := by decide
  exact ⟨hwritten, hends.1, hends.2, hread, escape_inverse.2.2.2 s hwritten hends.1 hends.2⟩

end PhraseGrammar
