/-
A value and its pieces. Written one after the other, the pieces of a value are the
value again, and of all lists of pieces that are written like that they are the
only one that is canonical (`pieces_eq_iff`): literal text is as long as it can be,
and what could be read as a reference is one.

A value is either without a reference, which is what `Unreferenced` says, or it has
a first one, that goes from the first `[` to the next `]`. So the proofs go from one
reference to the next, and ask of each piece only what comes right after it
(`canonical_cons`).
-/
import PhraseGrammar.Template

namespace PhraseGrammar

/-- What stands between the brackets of a reference. -/
def bracketed (name : Text) (capitalize : Bool) : Text := if capitalize then '^' :: name else name

/-- A piece as it stands in a value. -/
def Piece.written : Piece → Text
  | .literal text => text
  | .reference name capitalize => '[' :: (bracketed name capitalize ++ [']'])

/-- Pieces as a value. -/
def writePieces (ps : List Piece) : Text := ps.flatMap Piece.written

/-- No `[` of the text is followed by a `]`. -/
def Unreferenced (t : Text) : Prop := ∀ a b, t = a ++ '[' :: b → ']' ∉ b

/-- Pieces that could not be told otherwise from what is written. -/
structure Canonical (ps : List Piece) : Prop where
  filled : ∀ t, .literal t ∈ ps → t ≠ []
  apart : ∀ front t u back, ps ≠ front ++ .literal t :: .literal u :: back
  inner : ∀ front t p back, ps = front ++ .literal t :: p :: back → '[' ∉ t
  last : ∀ front t, ps = front ++ [.literal t] → Unreferenced t
  closed : ∀ name capitalize, .reference name capitalize ∈ ps → ']' ∉ name
  plain : ∀ name, .reference name false ∈ ps → name.head? ≠ some '^'

/-! ## The pieces of a value -/

theorem unreferenced_of_not_mem {t : Text} (h : '[' ∉ t) : Unreferenced t := by
  rintro a b rfl
  simp at h

/-- If no `]` comes after the first `[`, none comes after a later one. -/
theorem unreferenced_of_unclosed {before rest : Text} (hbefore : '[' ∉ before) (hrest : ']' ∉ rest) :
    Unreferenced (before ++ '[' :: rest) := by
  intro a b hab hmem
  rcases List.append_eq_append_iff.mp hab with ⟨c, rfl, hc⟩ | ⟨c, rfl, hc⟩
  · cases c with
    | nil =>
      obtain ⟨-, rfl⟩ := List.cons.inj hc
      exact hrest hmem
    | cons d c =>
      obtain ⟨-, rfl⟩ := List.cons.inj hc
      simp [hmem] at hrest
  · cases c with
    | nil =>
      obtain ⟨-, rfl⟩ := List.cons.inj hc
      exact hrest hmem
    | cons d c =>
      obtain ⟨rfl, -⟩ := List.cons.inj hc
      simp at hbefore

theorem pieces_of_unreferenced {value : Text} (h : Unreferenced value) :
    pieces value = literalPieces value := by
  rw [pieces]
  split
  · rfl
  · next before rest hopen =>
    obtain ⟨rfl, -⟩ := cutAt_eq_some hopen
    rw [cutAt_eq_none.mpr (h before rest rfl)]

theorem pieces_of_reference {before inside : Text} (hbefore : '[' ∉ before) (hinside : ']' ∉ inside)
    (after : Text) :
    pieces (before ++ '[' :: (inside ++ ']' :: after)) =
      literalPieces before ++ Piece.ofBracketed inside :: pieces after := by
  rw [pieces]
  split
  · next hopen => simp [cutAt_append hbefore] at hopen
  · next b rest hopen =>
    rw [cutAt_append hbefore] at hopen
    cases hopen
    split
    · next hclose => simp [cutAt_append hinside] at hclose
    · next i a hclose =>
      rw [cutAt_append hinside] at hclose
      cases hclose
      rfl

theorem pieces_of_leading_reference {inside : Text} (hinside : ']' ∉ inside) (after : Text) :
    pieces ('[' :: (inside ++ ']' :: after)) = Piece.ofBracketed inside :: pieces after :=
  pieces_of_reference List.not_mem_nil hinside after

/-- From one reference of a value to the next: what holds of values without a
reference, and of those with one if it holds of what comes after the first, holds of
all values. -/
theorem template_induction {P : Text → Prop} (unreferenced : ∀ value, Unreferenced value → P value)
    (reference : ∀ before inside after, '[' ∉ before → ']' ∉ inside → P after →
      P (before ++ '[' :: (inside ++ ']' :: after))) (value : Text) : P value := by
  induction value using pieces.induct with
  | case1 value hopen => exact unreferenced value (unreferenced_of_not_mem (cutAt_eq_none.mp hopen))
  | case2 value before rest hopen hclose =>
    obtain ⟨rfl, hbefore⟩ := cutAt_eq_some hopen
    exact unreferenced _ (unreferenced_of_unclosed hbefore (cutAt_eq_none.mp hclose))
  | case3 value before rest hopen inside after hclose ih =>
    obtain ⟨rfl, hbefore⟩ := cutAt_eq_some hopen
    obtain ⟨rfl, hinside⟩ := cutAt_eq_some hclose
    exact reference before inside after hbefore hinside ih

/-! ## Pieces as they are written -/

theorem writePieces_cons (p : Piece) (ps : List Piece) : writePieces (p :: ps) = p.written ++ writePieces ps :=
  List.flatMap_cons

theorem writePieces_append (ps qs : List Piece) :
    writePieces (ps ++ qs) = writePieces ps ++ writePieces qs :=
  List.flatMap_append

theorem writePieces_literalPieces (t : Text) : writePieces (literalPieces t) = t := by
  cases t with
  | nil => rfl
  | cons c t => simp [literalPieces, writePieces, Piece.written]

theorem written_reference_append (name : Text) (capitalize : Bool) (rest : Text) :
    (Piece.reference name capitalize).written ++ rest =
      '[' :: (bracketed name capitalize ++ ']' :: rest) := by
  simp [Piece.written]

theorem exists_reference_ofBracketed (inside : Text) :
    ∃ name capitalize, Piece.ofBracketed inside = .reference name capitalize := by
  unfold Piece.ofBracketed
  split <;> exact ⟨_, _, rfl⟩

theorem written_ofBracketed (inside : Text) :
    (Piece.ofBracketed inside).written = '[' :: (inside ++ [']']) := by
  unfold Piece.ofBracketed
  split <;> rfl

/-- A name that does not begin like a mark for upper case is read back as itself. -/
theorem ofBracketed_bracketed {name : Text} {capitalize : Bool}
    (h : capitalize = false → name.head? ≠ some '^') :
    Piece.ofBracketed (bracketed name capitalize) = .reference name capitalize := by
  cases capitalize with
  | true => rfl
  | false =>
    have hname := h rfl
    unfold Piece.ofBracketed
    split
    · next rest heq =>
      obtain rfl : name = '^' :: rest := heq
      exact absurd rfl hname
    · rfl

theorem writePieces_pieces (value : Text) : writePieces (pieces value) = value := by
  induction value using template_induction with
  | unreferenced value h => rw [pieces_of_unreferenced h, writePieces_literalPieces]
  | reference before inside after hbefore hinside ih =>
    rw [pieces_of_reference hbefore hinside, writePieces_append, writePieces_cons,
      writePieces_literalPieces, written_ofBracketed, ih]
    simp

/-! ## Canonical pieces -/

/-- What the piece asks of itself and of what comes right after it. -/
def Piece.Fits : Piece → List Piece → Prop
  | .literal t, [] => t ≠ [] ∧ Unreferenced t
  | .literal _, .literal _ :: _ => False
  | .literal t, .reference _ _ :: _ => t ≠ [] ∧ '[' ∉ t
  | .reference name capitalize, _ => ']' ∉ name ∧ (capitalize = false → name.head? ≠ some '^')

theorem canonical_nil : Canonical [] := by constructor <;> simp

namespace Canonical

variable {p : Piece} {ps : List Piece}

theorem fits (h : Canonical (p :: ps)) : p.Fits ps := by
  cases p with
  | reference name capitalize =>
    refine ⟨h.closed name capitalize List.mem_cons_self, ?_⟩
    rintro rfl
    exact h.plain name List.mem_cons_self
  | literal t =>
    have hfilled := h.filled t List.mem_cons_self
    cases ps with
    | nil => exact ⟨hfilled, h.last [] t rfl⟩
    | cons q ps =>
      cases q with
      | literal u => exact h.apart [] t u ps rfl
      | reference name capitalize => exact ⟨hfilled, h.inner [] t _ ps rfl⟩

theorem tail (h : Canonical (p :: ps)) : Canonical ps where
  filled t ht := h.filled t (List.mem_cons_of_mem p ht)
  apart front t u back heq := h.apart (p :: front) t u back (congrArg (p :: ·) heq)
  inner front t q back heq := h.inner (p :: front) t q back (congrArg (p :: ·) heq)
  last front t heq := h.last (p :: front) t (congrArg (p :: ·) heq)
  closed name capitalize hmem := h.closed name capitalize (List.mem_cons_of_mem p hmem)
  plain name hmem := h.plain name (List.mem_cons_of_mem p hmem)

end Canonical

theorem Piece.Fits.ne_nil {t : Text} {ps : List Piece} (h : (Piece.literal t).Fits ps) : t ≠ [] := by
  cases ps with
  | nil => exact h.1
  | cons q ps =>
    cases q with
    | literal u => exact h.elim
    | reference name capitalize => exact h.1

theorem canonical_cons {p : Piece} {ps : List Piece} : Canonical (p :: ps) ↔ p.Fits ps ∧ Canonical ps := by
  refine ⟨fun h => ⟨h.fits, h.tail⟩, fun ⟨hp, hps⟩ => ⟨?_, ?_, ?_, ?_, ?_, ?_⟩⟩
  · intro t ht
    rcases List.mem_cons.mp ht with rfl | ht
    · exact hp.ne_nil
    · exact hps.filled t ht
  · intro front t u back heq
    cases front with
    | nil =>
      obtain ⟨rfl, rfl⟩ := List.cons.inj heq
      exact hp
    | cons q front => exact hps.apart front t u back (List.cons.inj heq).2
  · intro front t q back heq
    cases front with
    | nil =>
      obtain ⟨rfl, rfl⟩ := List.cons.inj heq
      cases q with
      | literal u => exact hp.elim
      | reference name capitalize => exact hp.2
    | cons r front => exact hps.inner front t q back (List.cons.inj heq).2
  · intro front t heq
    cases front with
    | nil =>
      obtain ⟨rfl, rfl⟩ := List.cons.inj heq
      exact hp.2
    | cons q front => exact hps.last front t (List.cons.inj heq).2
  · intro name capitalize hmem
    rcases List.mem_cons.mp hmem with rfl | hmem
    · exact hp.1
    · exact hps.closed name capitalize hmem
  · intro name hmem
    rcases List.mem_cons.mp hmem with rfl | hmem
    · exact hp.2 rfl
    · exact hps.plain name hmem

theorem fits_ofBracketed {inside : Text} (h : ']' ∉ inside) (ps : List Piece) :
    (Piece.ofBracketed inside).Fits ps := by
  unfold Piece.ofBracketed
  split
  · simp only [List.mem_cons, not_or] at h
    exact ⟨h.2, by simp⟩
  · next hplain =>
    refine ⟨h, fun _ hhead => ?_⟩
    obtain ⟨rest, rfl⟩ := List.head?_eq_some_iff.mp hhead
    exact hplain rest rfl

theorem canonical_pieces (value : Text) : Canonical (pieces value) := by
  induction value using template_induction with
  | unreferenced value h =>
    rw [pieces_of_unreferenced h]
    cases value with
    | nil => exact canonical_nil
    | cons c value => exact canonical_cons.mpr ⟨⟨by simp, h⟩, canonical_nil⟩
  | reference before inside after hbefore hinside ih =>
    have hrest := canonical_cons.mpr ⟨fits_ofBracketed hinside (pieces after), ih⟩
    rw [pieces_of_reference hbefore hinside]
    cases before with
    | nil => exact hrest
    | cons c before =>
      obtain ⟨name, capitalize, href⟩ := exists_reference_ofBracketed inside
      rw [href] at hrest ⊢
      exact canonical_cons.mpr ⟨⟨by simp, hbefore⟩, hrest⟩

theorem literalPieces_of_ne_nil {t : Text} (h : t ≠ []) : literalPieces t = [.literal t] := by
  simp [literalPieces, h]

theorem not_mem_bracketed {name : Text} (h : ']' ∉ name) (capitalize : Bool) :
    ']' ∉ bracketed name capitalize := by
  cases capitalize <;> simp [bracketed, h]

/-- Canonical pieces are read back from what is written for them. -/
theorem pieces_writePieces {ps : List Piece} (h : Canonical ps) : pieces (writePieces ps) = ps := by
  induction ps with
  | nil => exact pieces_of_unreferenced (unreferenced_of_not_mem (by simp [writePieces]))
  | cons p ps ih =>
    obtain ⟨hp, hps⟩ := canonical_cons.mp h
    have hread := ih hps
    rw [writePieces_cons]
    cases p with
    | reference name capitalize =>
      rw [written_reference_append, pieces_of_leading_reference (not_mem_bracketed hp.1 capitalize),
        ofBracketed_bracketed hp.2, hread]
    | literal t =>
      cases ps with
      | nil =>
        have hempty : writePieces [] = [] := rfl
        rw [hempty, List.append_nil, Piece.written, pieces_of_unreferenced hp.2, literalPieces_of_ne_nil hp.1]
      | cons q ps =>
        cases q with
        | literal u => exact hp.elim
        | reference name capitalize =>
          -- the text ends at the reference that the other pieces start with
          have hinside := not_mem_bracketed (hps.closed name capitalize List.mem_cons_self) capitalize
          rw [writePieces_cons, written_reference_append] at hread ⊢
          rw [Piece.written, pieces_of_reference hp.2 hinside, ← pieces_of_leading_reference hinside,
            hread, literalPieces_of_ne_nil hp.1]
          rfl

/-- **The pieces of a value are the canonical ones that are written like it.** -/
theorem pieces_eq_iff (value : Text) (ps : List Piece) :
    pieces value = ps ↔ writePieces ps = value ∧ Canonical ps := by
  constructor
  · rintro rfl
    exact ⟨writePieces_pieces value, canonical_pieces value⟩
  · rintro ⟨rfl, h⟩
    exact pieces_writePieces h

end PhraseGrammar
