/-
Text as this library sees it: a list of characters, so that every fact about
it is an induction over a list, and the few signs and cuts that the other
modules share.
-/

namespace PhraseGrammar

/-- Text is the list of its characters. -/
abbrev Text := List Char

/-- The sign before the members of an object or a table. -/
@[simp] abbrev openBrace : Char := '\x7b'

/-- The sign after them. -/
@[simp] abbrev closeBrace : Char := '\x7d'

/-- Drops the characters that satisfy `p` from both ends. -/
def trimBoth (p : Char → Bool) (t : Text) : Text :=
  ((t.dropWhile p).reverse.dropWhile p).reverse

/-- The text before the first `c` and the text after it. -/
def cutAt (c : Char) : Text → Option (Text × Text)
  | [] => none
  | d :: rest => if d = c then some ([], rest) else (cutAt c rest).map fun (a, b) => (d :: a, b)

theorem cutAt_eq_some {c : Char} {t a b : Text} (h : cutAt c t = some (a, b)) :
    t = a ++ c :: b ∧ c ∉ a := by
  induction t generalizing a b with
  | nil => simp [cutAt] at h
  | cons d rest ih =>
    simp only [cutAt] at h
    split at h
    · rename_i hd
      simp only [Option.some.injEq, Prod.mk.injEq] at h
      obtain ⟨rfl, rfl⟩ := h
      simp [hd]
    · rename_i hd
      simp only [Option.map_eq_some_iff, Prod.exists, Prod.mk.injEq] at h
      obtain ⟨a', b', h', rfl, rfl⟩ := h
      obtain ⟨rfl, hmem⟩ := ih h'
      exact ⟨rfl, by simp [Ne.symm hd, hmem]⟩

theorem cutAt_append {c : Char} {a : Text} (h : c ∉ a) (b : Text) : cutAt c (a ++ c :: b) = some (a, b) := by
  induction a with
  | nil => simp [cutAt]
  | cons d a ih =>
    simp only [List.mem_cons, not_or] at h
    rw [List.cons_append, cutAt, if_neg (Ne.symm h.1), ih h.2]
    rfl

theorem cutAt_eq_none {c : Char} {t : Text} : cutAt c t = none ↔ c ∉ t := by
  induction t with
  | nil => simp [cutAt]
  | cons d rest ih =>
    simp only [cutAt]
    split
    · rename_i hd; simp [hd]
    · rename_i hd; simp [ih, Ne.symm hd]

/-- The pieces of a text before, between and after every `c`. -/
def cutAtEach (c : Char) : Text → List Text
  | [] => [[]]
  | d :: rest => if d = c then [] :: cutAtEach c rest else (cutAtEach c rest).modifyHead (d :: ·)

/-- Replaces the first character by what `f` makes of it. -/
def mapFirst (f : Char → Text) : Text → Text
  | [] => []
  | c :: rest => f c ++ rest

/-- `sep` between every two neighbours of `ts`. -/
def joinWith (sep : Text) : List Text → Text
  | [] => []
  | [t] => t
  | t :: u :: ts => t ++ sep ++ joinWith sep (u :: ts)

end PhraseGrammar
