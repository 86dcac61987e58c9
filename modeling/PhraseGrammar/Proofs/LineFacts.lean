/-
Facts about lines: lines that are joined by line feeds are the logical lines
of the text that they make, if none of them holds a line end, is a comment or
goes on in the next (`logicalLines_joinWith`).

Whether a line goes on depends on the parity of the backslashes that end it.
A written text never changes that parity (`trailingBackslashes_escape`), so a
line that ends in one goes on only if what stands before it would.
-/
import PhraseGrammar.Text.Lines
import PhraseGrammar.Proofs.EscapeFacts

namespace PhraseGrammar

/-! ## Raw lines -/

theorem normalizeNewlines_cons {c : Char} (hc : c ≠ '\r') (t : Text) :
    normalizeNewlines (c :: t) = c :: normalizeNewlines t := by
  cases t <;> simp [normalizeNewlines, hc]

theorem normalizeNewlines_of_not_mem {t : Text} (h : '\r' ∉ t) : normalizeNewlines t = t := by
  induction t with
  | nil => rfl
  | cons c t ih =>
    simp only [List.mem_cons, not_or] at h
    rw [normalizeNewlines_cons (Ne.symm h.1), ih h.2]

theorem cutAtLineFeeds_of_not_mem {t : Text} (h : '\n' ∉ t) : cutAtLineFeeds t = [t] := by
  induction t with
  | nil => rfl
  | cons c t ih =>
    simp only [List.mem_cons, not_or] at h
    rw [cutAtLineFeeds, if_neg (Ne.symm h.1), ih h.2]
    rfl

theorem cutAtLineFeeds_append (t rest : Text) :
    cutAtLineFeeds (t ++ '\n' :: rest) = cutAtLineFeeds t ++ cutAtLineFeeds rest := by
  induction t with
  | nil => rfl
  | cons c t ih =>
    rw [List.cons_append, cutAtLineFeeds, cutAtLineFeeds, ih]
    split
    · rfl
    · obtain ⟨l, ls, h⟩ := List.exists_cons_of_ne_nil (cutAtLineFeeds_ne_nil t)
      rw [h]
      rfl

theorem mem_of_mem_cutAtLineFeeds {t l : Text} (h : l ∈ cutAtLineFeeds t) {c : Char} (hc : c ∈ l) :
    c ∈ t ∧ c ≠ '\n' := by
  induction t generalizing l with
  | nil =>
    rw [cutAtLineFeeds, List.mem_singleton] at h
    simp [h] at hc
  | cons d t ih =>
    have later {l : Text} (h : l ∈ cutAtLineFeeds t) (hc : c ∈ l) : c ∈ d :: t ∧ c ≠ '\n' :=
      ⟨List.mem_cons_of_mem d (ih h hc).1, (ih h hc).2⟩
    obtain ⟨k, ks, hk⟩ := List.exists_cons_of_ne_nil (cutAtLineFeeds_ne_nil t)
    rw [cutAtLineFeeds, hk] at h
    rw [hk] at later
    split at h
    · rcases List.mem_cons.mp h with rfl | h
      · cases hc
      · exact later h hc
    · next hd =>
      rcases List.mem_cons.mp h with rfl | h
      · rcases List.mem_cons.mp hc with rfl | hc
        · exact ⟨List.mem_cons_self, hd⟩
        · exact later List.mem_cons_self hc
      · exact later (List.mem_cons_of_mem k h) hc

theorem normalizeNewlines_append (t rest : Text) :
    normalizeNewlines (t ++ '\n' :: rest) =
      if t.getLast? = some '\r' then normalizeNewlines t ++ normalizeNewlines rest
      else normalizeNewlines t ++ '\n' :: normalizeNewlines rest := by
  have hfeed : normalizeNewlines ('\n' :: rest) = '\n' :: normalizeNewlines rest :=
    normalizeNewlines_cons (by decide) rest
  induction t using normalizeNewlines.induct with
  | case1 => exact hfeed
  | case2 => simp [normalizeNewlines]
  | case3 c hc => simp [normalizeNewlines, hc, hfeed]
  | case4 t ih =>
    -- the line feed at the end of the pair is no return, so what follows decides
    cases t with
    | nil => simp [normalizeNewlines, hfeed]
    | cons c t =>
      simp only [List.cons_append, normalizeNewlines, if_true, List.getLast?_cons_cons] at ih ⊢
      rw [ih]
      split <;> rfl
  | case5 d t hd ih =>
    simp only [List.cons_append, normalizeNewlines, if_true, hd, if_false, List.getLast?_cons_cons] at ih ⊢
    rw [ih]
    split <;> rfl
  | case6 c d t hc ih =>
    simp only [List.cons_append, normalizeNewlines, hc, if_false, List.getLast?_cons_cons] at ih ⊢
    rw [ih]
    split <;> rfl

theorem exists_normalizeNewlines_concat (t : Text) :
    ∃ t', normalizeNewlines (t ++ ['\r']) = t' ++ ['\n'] := by
  induction t using normalizeNewlines.induct with
  | case1 => exact ⟨[], rfl⟩
  | case2 => exact ⟨['\n'], rfl⟩
  | case3 c hc => exact ⟨[c], by simp [normalizeNewlines, hc]⟩
  | case4 t ih =>
    obtain ⟨t', ht'⟩ := ih
    exact ⟨'\n' :: t', by simp [normalizeNewlines, ht']⟩
  | case5 d t hd ih =>
    obtain ⟨t', ht'⟩ := ih
    rw [List.cons_append] at ht'
    exact ⟨'\n' :: t', by simp [normalizeNewlines, hd, ht']⟩
  | case6 c d t hc ih =>
    obtain ⟨t', ht'⟩ := ih
    rw [List.cons_append] at ht'
    exact ⟨c :: t', by simp [normalizeNewlines, hc, ht']⟩

/-- What comes after a line feed adds its raw lines. Only if a carriage return
stands before the line feed, the two make one line end, and the empty line
between them is gone. -/
theorem splitLines_append (t rest : Text) :
    ∃ ls, (splitLines t = ls ∨ splitLines t = ls ++ [[]]) ∧
      splitLines (t ++ '\n' :: rest) = ls ++ splitLines rest := by
  simp only [splitLines, normalizeNewlines_append]
  split
  · next hlast =>
    obtain ⟨t, rfl⟩ := List.getLast?_eq_some_iff.mp hlast
    obtain ⟨t', ht'⟩ := exists_normalizeNewlines_concat t
    refine ⟨cutAtLineFeeds t', .inr ?_, ?_⟩
    · rw [ht', cutAtLineFeeds_append]
      rfl
    · rw [ht', List.append_assoc, List.singleton_append, cutAtLineFeeds_append]
  · exact ⟨_, .inl rfl, cutAtLineFeeds_append _ _⟩

theorem not_mem_of_mem_splitLines {t l : Text} (h : l ∈ splitLines t) : '\n' ∉ l :=
  fun hc => (mem_of_mem_cutAtLineFeeds h hc).2 rfl

theorem no_return_normalizeNewlines (t : Text) : '\r' ∉ normalizeNewlines t := by
  induction t using normalizeNewlines.induct with
  | case1 => simp [normalizeNewlines]
  | case2 => simp [normalizeNewlines]
  | case3 c hc => simp [normalizeNewlines, hc, Ne.symm hc]
  | case4 t ih => simp [normalizeNewlines, ih]
  | case5 d t hd ih => simp [normalizeNewlines, hd, ih]
  | case6 c d t hc ih => simp [normalizeNewlines, hc, Ne.symm hc, ih]

theorem no_return_of_mem_splitLines {t l : Text} (h : l ∈ splitLines t) : '\r' ∉ l :=
  fun hc => no_return_normalizeNewlines t (mem_of_mem_cutAtLineFeeds h hc).1

theorem mem_joinWith {sep : Text} {c : Char} {ls : List Text} (h : c ∈ joinWith sep ls) :
    c ∈ sep ∨ ∃ l ∈ ls, c ∈ l := by
  induction ls using joinWith.induct with
  | case1 => simp [joinWith] at h
  | case2 l => exact .inr ⟨l, by simp, h⟩
  | case3 l l' ls ih =>
    simp only [joinWith, List.append_assoc, List.mem_append] at h
    rcases h with h | h | h
    · exact .inr ⟨l, by simp, h⟩
    · exact .inl h
    · rcases ih h with h | ⟨k, hk, hc⟩
      · exact .inl h
      · exact .inr ⟨k, List.mem_cons_of_mem _ hk, hc⟩

theorem splitLines_joinWith {ls : List Text} (hne : ls ≠ []) (hr : ∀ l ∈ ls, '\r' ∉ l)
    (hn : ∀ l ∈ ls, '\n' ∉ l) : splitLines (joinWith ['\n'] ls) = ls := by
  have hret : '\r' ∉ joinWith ['\n'] ls := by
    intro h
    rcases mem_joinWith h with h | ⟨l, hl, h⟩
    · exact absurd h (by decide)
    · exact hr l hl h
  rw [splitLines, normalizeNewlines_of_not_mem hret]
  clear hret hr
  induction ls using joinWith.induct with
  | case1 => exact absurd rfl hne
  | case2 l => exact cutAtLineFeeds_of_not_mem (hn l (by simp))
  | case3 l l' ls ih =>
    rw [joinWith, List.append_assoc, List.singleton_append, cutAtLineFeeds_append,
      cutAtLineFeeds_of_not_mem (hn l (by simp)),
      ih (by simp) fun k hk => hn k (List.mem_cons_of_mem _ hk)]
    rfl

/-! ## Logical lines -/

/-- A line that is a logical line as it stands. -/
structure PlainLine (l : Text) : Prop where
  noReturn : '\r' ∉ l
  noFeed : '\n' ∉ l
  noComment : isComment l = false
  complete : isContinued l = false

theorem joinLines_of_plain {ls : List Text} (h : ∀ l ∈ ls, PlainLine l) : joinLines none ls = ls := by
  induction ls with
  | nil => rfl
  | cons l ls ih =>
    have hl := h l (by simp)
    have hls := ih fun k hk => h k (List.mem_cons_of_mem _ hk)
    simp [joinLines, hl.noComment, hl.complete, hls]

theorem logicalLines_joinWith {ls : List Text} (hne : ls ≠ []) (h : ∀ l ∈ ls, PlainLine l) :
    logicalLines (joinWith ['\n'] ls) = ls := by
  rw [logicalLines,
    splitLines_joinWith hne (fun l hl => (h l hl).noReturn) fun l hl => (h l hl).noFeed]
  exact joinLines_of_plain h

/-! ## Backslashes at the end -/

theorem trailingBackslashes_concat (t : Text) (c : Char) :
    trailingBackslashes (t ++ [c]) = if c = '\\' then trailingBackslashes t + 1 else 0 := by
  by_cases hc : c = '\\' <;> simp [trailingBackslashes, hc]

theorem isContinued_of_no_feed {l : Text} (h : '\n' ∉ l) :
    isContinued l = (trailingBackslashes l % 2 == 1) := by
  have hlast : l.getLast? ≠ some '\n' := fun he => h (List.mem_of_getLast? he)
  rw [isContinued, dropFinalLineFeed, if_neg hlast]

theorem trailingBackslashes_escapeChar {t : Text} (h : trailingBackslashes t % 2 = 0) (c : Char) :
    trailingBackslashes (t ++ escapeChar c) % 2 = 0 := by
  rcases escapeChar_cases c with ⟨d, -, hpair⟩ | ⟨hself, hmem⟩
  · have happ : t ++ ['\\', d] = (t ++ ['\\']) ++ [d] := by simp
    rw [hpair, happ, trailingBackslashes_concat, trailingBackslashes_concat, if_pos rfl]
    split <;> omega
  · have hc : c ≠ '\\' := fun he => hmem (by simp [he])
    rw [hself, trailingBackslashes_concat, if_neg hc]

/-- After an even number of backslashes a written text ends in an even number
again. -/
theorem trailingBackslashes_escape {u : Text} (h : trailingBackslashes u % 2 = 0) (t : Text) :
    trailingBackslashes (u ++ escape t) % 2 = 0 := by
  induction t generalizing u with
  | nil => simpa [escape_nil] using h
  | cons c t ih =>
    rw [escape_cons, ← List.append_assoc]
    exact ih (trailingBackslashes_escapeChar h c)

end PhraseGrammar
