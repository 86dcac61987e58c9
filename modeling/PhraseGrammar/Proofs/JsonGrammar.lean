/-
The grammar of JSON, and that it is unambiguous. A text writes a value if it falls into
the tokens of the value, with blanks before, between and after them as one likes
(`Json.Writes`). A value has the same tokens however it is written, so they are listed
without a text (`Json.tokens`): marks, whole numbers, texts, and the name of nothing.
How a token can be written is told by rules, of which only the one for texts leaves a
choice: a character stands as it is, or is written as an escape of one of three kinds.

No text writes two values (`Json.Writes.unique`). The first character tells what kind of
token it begins, a token ends by itself or where its digits do, and the tokens of one
value are never the beginning of those of another (`Json.eq_of_tokens_append`). What is
written without blanks and with as few escapes as can be is a text of this kind
(`Json.writes_text`), so it reads as the value it was written for and as no other.
-/
import PhraseGrammar.Service.Json
import PhraseGrammar.Text.Hexadecimal
import PhraseGrammar.Proofs.SignedNumerals

namespace PhraseGrammar

namespace Json

/-! ## How a value is written -/

/-- The characters that a letter or sign after a backslash stands for. -/
def shortEscapes : List (Char × Char) :=
  [('"', '"'), ('\\', '\\'), ('/', '/'), ('b', '\x08'), ('f', '\x0c'), ('n', '\n'), ('r', '\r'), ('t', '\t')]

/-- Four hexadecimal digits write a number. -/
def WritesUnit (ds : Text) (n : Nat) : Prop := ds.length = 4 ∧ hexNumber? ds = some n

/-- How a character can be written between quotes: as it is, as a short escape, by its
number, or by the numbers of its two halves if it has more than four digits. -/
inductive WritesChar : Text → Char → Prop
  | plain {c : Char} : c ≠ '"' → c ≠ '\\' → 0x20 ≤ c.toNat → WritesChar [c] c
  | short {e c : Char} : (e, c) ∈ shortEscapes → WritesChar ['\\', e] c
  | numbered {ds : Text} {c : Char} : WritesUnit ds c.toNat → WritesChar ('\\' :: 'u' :: ds) c
  | halves {ds ds' : Text} {high low : Nat} {c : Char} :
      WritesUnit ds (0xd800 + high) → high < 0x400 → WritesUnit ds' (0xdc00 + low) → low < 0x400 →
      c.toNat = 0x10000 + 0x400 * high + low →
      WritesChar ('\\' :: 'u' :: ds ++ '\\' :: 'u' :: ds') c

/-- How a text can be written between quotes. -/
inductive WritesChars : Text → Text → Prop
  | nil : WritesChars [] []
  | cons {w u s : Text} {c : Char} : WritesChar w c → WritesChars u s → WritesChars (w ++ u) (c :: s)

/-- What a text of values falls into. -/
inductive Token
  | mark (c : Char)
  | null
  | number (n : Int)
  | string (t : Text)
  deriving DecidableEq

/-- A mark of arrays and objects. -/
def isMark (c : Char) : Bool := ['[', ']', openBrace, closeBrace, ',', ':'].contains c

/-- A blank that means nothing between tokens. -/
def isFiller (c : Char) : Bool := [' ', '\t', '\n', '\r'].contains c

/-- How a token can be written. No zero stands before the digits of a number. -/
inductive WritesToken : Text → Token → Prop
  | mark {c : Char} : isMark c = true → WritesToken [c] (.mark c)
  | null : WritesToken "null".toList .null
  | number (n : Nat) : WritesToken (numeral n) (.number n)
  | negative (n : Nat) : WritesToken ('-' :: numeral n) (.number (-n))
  | string {u s : Text} : WritesChars u s → WritesToken ('"' :: u ++ ['"']) (.string s)

/-- No digit comes first. -/
def OpensWithoutDigit (t : Text) : Prop := ∀ c ∈ t.head?, c.isDigit = false

/-- The token is over before the text: a number takes all digits that there are. -/
def Token.EndsBefore (token : Token) (t : Text) : Prop :=
  (∃ n, token = .number n) → OpensWithoutDigit t

/-- How tokens can be written one after the other. -/
inductive WritesTokens : Text → List Token → Prop
  | nil {f : Text} : (∀ c ∈ f, isFiller c = true) → WritesTokens f []
  | cons {f w t : Text} {token : Token} {ts : List Token} : (∀ c ∈ f, isFiller c = true) →
      WritesToken w token → token.EndsBefore t → WritesTokens t ts →
      WritesTokens (f ++ (w ++ t)) (token :: ts)

mutual

/-- The tokens of a value. -/
def tokens : Json → List Token
  | .null => [.null]
  | .number n => [.number n]
  | .string t => [.string t]
  | .array items => .mark '[' :: itemsTokens items ++ [.mark ']']
  | .object members => .mark openBrace :: membersTokens members ++ [.mark closeBrace]

/-- The tokens of the items of an array. -/
def itemsTokens : List Json → List Token
  | [] => []
  | [v] => v.tokens
  | v :: rest => v.tokens ++ .mark ',' :: itemsTokens rest

/-- The tokens of the members of an object. -/
def membersTokens : List (Text × Json) → List Token
  | [] => []
  | [(key, v)] => .string key :: .mark ':' :: v.tokens
  | (key, v) :: rest => .string key :: .mark ':' :: v.tokens ++ .mark ',' :: membersTokens rest

end

/-- The text writes the value. -/
def Writes (t : Text) (v : Json) : Prop := WritesTokens t v.tokens

/-! ## Characters -/

theorem WritesUnit.unique {ds ds' r r' : Text} {n n' : Nat} (h : WritesUnit ds n)
    (h' : WritesUnit ds' n') (heq : ds ++ r = ds' ++ r') : n = n' ∧ r = r' := by
  obtain ⟨rfl, rfl⟩ := List.append_inj heq (h.1.trans h'.1.symm)
  exact ⟨Option.some.inj (h.2.symm.trans h'.2), rfl⟩

theorem toNat_not_half (c : Char) : c.toNat < 0xd800 ∨ 0xe000 ≤ c.toNat := by
  have hvalid : c.toNat < 0xd800 ∨ 0xdfff < c.toNat ∧ c.toNat < 0x110000 := c.valid
  omega

/-- A first half is told from the number of a character. -/
theorem WritesUnit.high_ne {ds ds' r r' : Text} {high : Nat} {c : Char} (hhigh : high < 0x400)
    (h : WritesUnit ds (0xd800 + high)) (h' : WritesUnit ds' c.toNat) : ds ++ r ≠ ds' ++ r' := by
  intro heq
  have hsame := (h.unique h' heq).1
  have hnot := toNat_not_half c
  omega

theorem WritesChar.head {w : Text} {c : Char} (h : WritesChar w c) : ∃ d u, w = d :: u ∧ d ≠ '"' := by
  cases h with
  | plain hquote => exact ⟨_, _, rfl, hquote⟩
  | short => exact ⟨_, _, rfl, by decide⟩
  | numbered => exact ⟨_, _, rfl, by decide⟩
  | halves => exact ⟨_, _, rfl, by decide⟩

theorem not_mem_shortEscapes (c : Char) : ('u', c) ∉ shortEscapes := by simp [shortEscapes]

theorem shortEscapes_unique {e c c' : Char} (h : (e, c) ∈ shortEscapes) (h' : (e, c') ∈ shortEscapes) :
    c = c' := by
  have hlookup : ∀ p ∈ shortEscapes, shortEscapes.lookup p.1 = some p.2 := by
    simp [shortEscapes, List.lookup_cons]
  exact Option.some.inj ((hlookup _ h).symm.trans (hlookup _ h'))

/-- What a text begins with writes one character at most, and in one way. -/
theorem WritesChar.unique {w w' r r' : Text} {c c' : Char} (h : WritesChar w c)
    (h' : WritesChar w' c') (heq : w ++ r = w' ++ r') : c = c' ∧ r = r' := by
  cases h with
  | plain _ hback =>
    cases h' with
    | plain => exact List.cons.inj heq
    | short => exact absurd (List.cons.inj heq).1 hback
    | numbered => exact absurd (List.cons.inj heq).1 hback
    | halves => exact absurd (List.cons.inj heq).1 hback
  | short hmem =>
    cases h' with
    | plain _ hback => exact absurd (List.cons.inj heq).1.symm hback
    | short hmem' =>
      simp only [List.cons_append, List.nil_append, List.cons.injEq, true_and] at heq
      obtain ⟨rfl, rfl⟩ := heq
      exact ⟨shortEscapes_unique hmem hmem', rfl⟩
    | numbered | halves =>
      simp only [List.cons_append, List.nil_append, List.cons.injEq, true_and] at heq
      obtain ⟨rfl, -⟩ := heq
      exact absurd hmem (not_mem_shortEscapes _)
  | numbered hunit =>
    cases h' with
    | plain _ hback => exact absurd (List.cons.inj heq).1.symm hback
    | short hmem' =>
      simp only [List.cons_append, List.nil_append, List.cons.injEq, true_and] at heq
      obtain ⟨rfl, -⟩ := heq
      exact absurd hmem' (not_mem_shortEscapes _)
    | numbered hunit' =>
      simp only [List.cons_append, List.cons.injEq, true_and] at heq
      obtain ⟨hc, hr⟩ := hunit.unique hunit' heq
      exact ⟨Char.toNat_inj.mp hc, hr⟩
    | halves hhigh hlt =>
      simp only [List.cons_append, List.append_assoc, List.cons.injEq, true_and] at heq
      exact absurd heq.symm (hhigh.high_ne hlt hunit)
  | halves hhigh hlt hlow hlt' hc =>
    cases h' with
    | plain _ hback => exact absurd (List.cons.inj heq).1.symm hback
    | short hmem' =>
      simp only [List.cons_append, List.append_assoc, List.nil_append, List.cons.injEq, true_and] at heq
      obtain ⟨rfl, -⟩ := heq
      exact absurd hmem' (not_mem_shortEscapes _)
    | numbered hunit =>
      simp only [List.cons_append, List.append_assoc, List.cons.injEq, true_and] at heq
      exact absurd heq (hhigh.high_ne hlt hunit)
    | halves hhigh' _ hlow' _ hc' =>
      simp only [List.cons_append, List.append_assoc, List.cons.injEq, true_and] at heq
      obtain ⟨hsame, hrest⟩ := hhigh.unique hhigh' heq
      simp only [List.cons.injEq, true_and] at hrest
      obtain ⟨hsame', hr⟩ := hlow.unique hlow' hrest
      exact ⟨Char.toNat_inj.mp (by omega), hr⟩

/-- The first bare quote ends a text. -/
theorem WritesChars.unique {u u' s s' r r' : Text} (h : WritesChars u s) (h' : WritesChars u' s')
    (heq : u ++ '"' :: r = u' ++ '"' :: r') : s = s' ∧ r = r' := by
  induction h generalizing u' s' with
  | nil =>
    cases h' with
    | nil => exact ⟨rfl, (List.cons.inj heq).2⟩
    | cons hc =>
      obtain ⟨d, w, rfl, hd⟩ := hc.head
      exact absurd (List.cons.inj heq).1.symm hd
  | cons hc _ ih =>
    cases h' with
    | nil =>
      obtain ⟨d, w, rfl, hd⟩ := hc.head
      exact absurd (List.cons.inj heq).1 hd
    | cons hc' hu' =>
      rw [List.append_assoc, List.append_assoc] at heq
      obtain ⟨rfl, hrest⟩ := hc.unique hc' heq
      obtain ⟨rfl, hr⟩ := ih hu' hrest
      exact ⟨rfl, hr⟩

/-! ## Tokens -/

/-- The kinds of tokens. -/
inductive Kind
  | mark
  | null
  | number
  | string

/-- The kind of a token. -/
def Token.kind : Token → Kind
  | .mark _ => .mark
  | .null => .null
  | .number _ => .number
  | .string _ => .string

/-- The kind of the tokens that a character can begin. -/
def kindOf (c : Char) : Kind :=
  if isMark c then .mark else if c = 'n' then .null else if c = '"' then .string else .number

theorem kindOf_digit {c : Char} (h : c.isDigit = true) : kindOf c = .number ∧ isFiller c = false := by
  have hne {d : Char} (hd : d.isDigit = false) : c ≠ d := by
    intro hc
    rw [hc, hd] at h
    cases h
  have hmark : isMark c = false := by simp [isMark, hne]
  have hfiller : isFiller c = false := by simp [isFiller, hne]
  simp [kindOf, hmark, hfiller, hne]

/-- The first character tells what kind of token it begins, and is no filler. -/
theorem WritesToken.head {w : Text} {token : Token} (h : WritesToken w token) :
    ∃ c u, w = c :: u ∧ kindOf c = token.kind ∧ isFiller c = false := by
  cases h with
  | @mark c hc =>
    have hfiller : ∀ c ∈ ['[', ']', openBrace, closeBrace, ',', ':'], isFiller c = false := by simp [isFiller]
    exact ⟨c, [], rfl, if_pos hc, hfiller c (List.contains_iff_mem.mp hc)⟩
  | null => exact ⟨'n', _, rfl, rfl, rfl⟩
  | number n =>
    obtain ⟨c, ds, hn, hc⟩ := numeral_head n
    exact ⟨c, ds, hn, kindOf_digit hc⟩
  | negative n => exact ⟨'-', _, rfl, rfl, rfl⟩
  | string => exact ⟨'"', _, rfl, rfl, rfl⟩

theorem numeral_append_inj {n n' : Nat} {r r' : Text} (hr : OpensWithoutDigit r)
    (hr' : OpensWithoutDigit r') (h : numeral n ++ r = numeral n' ++ r') : n = n' ∧ r = r' := by
  have htake {n : Nat} {r : Text} (hr : OpensWithoutDigit r) :
      (numeral n ++ r).takeWhile Char.isDigit = numeral n := by
    rw [List.takeWhile_append_of_pos fun c hc => isDigit_of_mem_numeral hc]
    cases r with
    | nil => simp
    | cons c r => simp [hr c rfl]
  have hsame : numeral n = numeral n' := by rw [← htake hr, h, htake hr']
  refine ⟨?_, List.append_cancel_left (hsame ▸ h)⟩
  rw [← digitsValue_numeral n, hsame, digitsValue_numeral]

theorem numeral_ne_minus (n : Nat) (r t : Text) : numeral n ++ r ≠ '-' :: t := by
  obtain ⟨c, ds, hn, hc⟩ := numeral_head n
  intro h
  rw [hn] at h
  obtain ⟨rfl, -⟩ := List.cons.inj h
  cases hc

theorem WritesToken.unique {w w' r r' : Text} {token token' : Token} (h : WritesToken w token)
    (h' : WritesToken w' token') (hr : token.EndsBefore r) (hr' : token'.EndsBefore r')
    (heq : w ++ r = w' ++ r') : token = token' ∧ r = r' := by
  have hkind : token.kind = token'.kind := by
    obtain ⟨c, u, rfl, hc, -⟩ := h.head
    obtain ⟨c', u', rfl, hc', -⟩ := h'.head
    obtain ⟨rfl, -⟩ := List.cons.inj heq
    rw [← hc, hc']
  cases h with
  | mark =>
    cases h' with
    | mark =>
      obtain ⟨rfl, hr⟩ := List.cons.inj heq
      exact ⟨rfl, hr⟩
    | _ => cases hkind
  | null =>
    cases h' with
    | null => exact ⟨rfl, List.append_cancel_left heq⟩
    | _ => cases hkind
  | number n =>
    cases h' with
    | number n' =>
      obtain ⟨rfl, hrest⟩ := numeral_append_inj (hr ⟨_, rfl⟩) (hr' ⟨_, rfl⟩) heq
      exact ⟨rfl, hrest⟩
    | negative => exact absurd heq (numeral_ne_minus _ _ _)
    | _ => cases hkind
  | negative n =>
    cases h' with
    | number => exact absurd heq.symm (numeral_ne_minus _ _ _)
    | negative n' =>
      obtain ⟨rfl, hrest⟩ := numeral_append_inj (hr ⟨_, rfl⟩) (hr' ⟨_, rfl⟩) (List.cons.inj heq).2
      exact ⟨rfl, hrest⟩
    | _ => cases hkind
  | string hs =>
    cases h' with
    | string hs' =>
      simp only [List.cons_append, List.append_assoc, List.nil_append, List.cons.injEq, true_and] at heq
      obtain ⟨rfl, hrest⟩ := hs.unique hs' heq
      exact ⟨rfl, hrest⟩
    | _ => cases hkind

/-! ## Texts -/

theorem filler_append_inj {f f' w w' : Text} {token token' : Token} {t t' : Text}
    (hf : ∀ c ∈ f, isFiller c = true) (hf' : ∀ c ∈ f', isFiller c = true) (h : WritesToken w token)
    (h' : WritesToken w' token') (heq : f ++ (w ++ t) = f' ++ (w' ++ t')) : w ++ t = w' ++ t' := by
  have hdrop {f w t : Text} {token : Token} (hf : ∀ c ∈ f, isFiller c = true)
      (h : WritesToken w token) : (f ++ (w ++ t)).dropWhile isFiller = w ++ t := by
    obtain ⟨c, u, rfl, -, hc⟩ := h.head
    rw [List.dropWhile_append_of_pos hf]
    simp [hc]
  rw [← hdrop hf h, heq, hdrop hf' h']

theorem not_filler_of_token {f w t : Text} {token : Token} (h : WritesToken w token) :
    ¬ ∀ c ∈ f ++ (w ++ t), isFiller c = true := by
  obtain ⟨c, u, rfl, -, hc⟩ := h.head
  intro hall
  have hfiller := hall c (by simp)
  rw [hc] at hfiller
  cases hfiller

/-- **A text falls into tokens in one way at most.** -/
theorem WritesTokens.unique {t t' : Text} {ts ts' : List Token} (h : WritesTokens t ts)
    (h' : WritesTokens t' ts') (heq : t = t') : ts = ts' := by
  induction h generalizing t' ts' with
  | nil hf =>
    cases h' with
    | nil => rfl
    | cons _ hw => exact absurd (heq ▸ hf) (not_filler_of_token hw)
  | cons hf hw hends _ ih =>
    cases h' with
    | nil hf' => exact absurd (heq ▸ hf') (not_filler_of_token hw)
    | cons hf' hw' hends' hts' =>
      obtain ⟨rfl, hrest⟩ := hw.unique hw' hends hends' (filler_append_inj hf hf' hw hw' heq)
      rw [ih hts' hrest]

/-! ## Values -/

theorem itemsTokens_cons (v : Json) (vs : List Json) :
    itemsTokens (v :: vs) = v.tokens ++ if vs.isEmpty then [] else .mark ',' :: itemsTokens vs := by
  cases vs <;> simp [itemsTokens]

theorem membersTokens_cons (key : Text) (v : Json) (ms : List (Text × Json)) :
    membersTokens ((key, v) :: ms) = .string key :: .mark ':' ::
      (v.tokens ++ if ms.isEmpty then [] else .mark ',' :: membersTokens ms) := by
  cases ms <;> simp [membersTokens]

theorem tokens_head (v : Json) : ∃ token ts, v.tokens = token :: ts ∧ token ≠ .mark ']' := by
  cases v with
  | null | number | string => exact ⟨_, _, rfl, by simp⟩
  | array | object => exact ⟨_, _, rfl, by simp⟩

mutual

/-- The tokens of a value tell the value, whatever comes after them. -/
theorem eq_of_tokens_append : ∀ (v w : Json) {r r' : List Token},
    v.tokens ++ r = w.tokens ++ r' → v = w ∧ r = r'
  | .null, w, _, _, h => by
    cases w with
    | null => exact ⟨rfl, (List.cons.inj h).2⟩
    | _ => cases (List.cons.inj h).1
  | .number n, w, _, _, h => by
    cases w with
    | number =>
      obtain ⟨hfirst, hrest⟩ := List.cons.inj h
      cases hfirst
      exact ⟨rfl, hrest⟩
    | _ => cases (List.cons.inj h).1
  | .string t, w, _, _, h => by
    cases w with
    | string =>
      obtain ⟨hfirst, hrest⟩ := List.cons.inj h
      cases hfirst
      exact ⟨rfl, hrest⟩
    | _ => cases (List.cons.inj h).1
  | .array vs, w, _, _, h => by
    cases w with
    | array ws =>
      simp only [tokens, List.cons_append, List.append_assoc, List.nil_append, List.cons.injEq,
        true_and] at h
      obtain ⟨rfl, hrest⟩ := eq_of_itemsTokens_append vs ws h
      exact ⟨rfl, hrest⟩
    | _ => simp [tokens] at h
  | .object ms, w, _, _, h => by
    cases w with
    | object ms' =>
      simp only [tokens, List.cons_append, List.append_assoc, List.nil_append, List.cons.injEq,
        true_and] at h
      obtain ⟨rfl, hrest⟩ := eq_of_membersTokens_append ms ms' h
      exact ⟨rfl, hrest⟩
    | _ => simp [tokens] at h

theorem eq_of_itemsTokens_append : ∀ (vs ws : List Json) {r r' : List Token},
    itemsTokens vs ++ .mark ']' :: r = itemsTokens ws ++ .mark ']' :: r' → vs = ws ∧ r = r'
  | [], ws, _, _, h => by
    cases ws with
    | nil => exact ⟨rfl, (List.cons.inj h).2⟩
    | cons w ws =>
      obtain ⟨token, ts, hw, hne⟩ := tokens_head w
      rw [itemsTokens_cons, hw] at h
      exact absurd (List.cons.inj h).1.symm hne
  | v :: vs, ws, _, _, h => by
    cases ws with
    | nil =>
      obtain ⟨token, ts, hv, hne⟩ := tokens_head v
      rw [itemsTokens_cons, hv] at h
      exact absurd (List.cons.inj h).1 hne
    | cons w ws =>
      rw [itemsTokens_cons, itemsTokens_cons, List.append_assoc, List.append_assoc] at h
      obtain ⟨rfl, hrest⟩ := eq_of_tokens_append v w h
      cases vs with
      | nil =>
        cases ws with
        | nil => exact ⟨rfl, by simpa using hrest⟩
        | cons => simp at hrest
      | cons v' vs =>
        cases ws with
        | nil => simp at hrest
        | cons w' ws =>
          obtain ⟨heq, hr⟩ := eq_of_itemsTokens_append (v' :: vs) (w' :: ws) (List.cons.inj hrest).2
          exact ⟨by rw [heq], hr⟩

theorem eq_of_membersTokens_append : ∀ (ms ms' : List (Text × Json)) {r r' : List Token},
    membersTokens ms ++ .mark closeBrace :: r = membersTokens ms' ++ .mark closeBrace :: r' → ms = ms' ∧ r = r'
  | [], ms', _, _, h => by
    cases ms' with
    | nil => exact ⟨rfl, (List.cons.inj h).2⟩
    | cons m' ms' =>
      obtain ⟨key', w⟩ := m'
      rw [membersTokens_cons] at h
      cases (List.cons.inj h).1
  | (key, v) :: ms, ms', _, _, h => by
    cases ms' with
    | nil =>
      rw [membersTokens_cons] at h
      cases (List.cons.inj h).1
    | cons m' ms' =>
      obtain ⟨key', w⟩ := m'
      simp only [membersTokens_cons, List.cons_append, List.append_assoc, List.cons.injEq,
        Token.string.injEq, true_and] at h
      obtain ⟨rfl, hvalue⟩ := h
      obtain ⟨rfl, hrest⟩ := eq_of_tokens_append v w hvalue
      cases ms with
      | nil =>
        cases ms' with
        | nil => exact ⟨rfl, by simpa using hrest⟩
        | cons => simp at hrest
      | cons m ms =>
        cases ms' with
        | nil => simp at hrest
        | cons m' ms' =>
          obtain ⟨heq, hr⟩ := eq_of_membersTokens_append (m :: ms) (m' :: ms') (List.cons.inj hrest).2
          exact ⟨by rw [heq], hr⟩

end

/-- **No text writes two values.** -/
theorem Writes.unique {t : Text} {v w : Json} (h : Writes t v) (h' : Writes t w) : v = w := by
  have htokens : v.tokens ++ [] = w.tokens ++ [] := by rw [WritesTokens.unique h h' rfl]
  exact (eq_of_tokens_append v w htokens).1

/-! ## What is written without blanks -/

theorem writesUnit_hexDigits {n : Nat} (h : n < 0x20) : WritesUnit (hexDigits 4 n) n := by
  have hall : ∀ n < 0x20, (hexDigits 4 n).length = 4 ∧ hexNumber? (hexDigits 4 n) = some n := by decide
  exact hall n h

theorem escapedChar_eq_self_iff {c : Char} :
    escapedChar c = [c] ↔ c ≠ '"' ∧ c ≠ '\\' ∧ 0x20 ≤ c.toNat := by
  constructor
  · intro h
    have hcontrols : ∀ n < 0x20, (escapedChar (Char.ofNat n)).length ≠ 1 := by decide
    refine ⟨?_, ?_, ?_⟩
    · intro hc
      simp [hc, escapedChar] at h
    · intro hc
      simp [hc, escapedChar] at h
    · by_contra hlow
      have hlength := hcontrols c.toNat (by omega)
      rw [Char.ofNat_toNat, h] at hlength
      exact hlength rfl
  · intro h
    obtain ⟨hquote, hback, hcontrol⟩ := h
    have hne {d : Char} (hd : d.toNat < 0x20) : c ≠ d := by
      intro hc
      rw [hc] at hcontrol
      omega
    have hnot : ¬ c.toNat < 0x20 := by omega
    simp [escapedChar, hquote, hback, hnot, hne (show '\n'.toNat < 0x20 by decide),
      hne (show '\r'.toNat < 0x20 by decide), hne (show '\t'.toNat < 0x20 by decide),
      hne (show '\x08'.toNat < 0x20 by decide), hne (show '\x0c'.toNat < 0x20 by decide)]

theorem writesChar_escapedChar (c : Char) : WritesChar (escapedChar c) c := by
  by_cases hshort : c ∈ ['"', '\\', '\n', '\r', '\t', '\x08', '\x0c']
  · have hall : ∀ c ∈ ['"', '\\', '\n', '\r', '\t', '\x08', '\x0c'],
        ∃ e, (e, c) ∈ shortEscapes ∧ escapedChar c = ['\\', e] := by
      simp [shortEscapes, escapedChar]
    obtain ⟨e, he, hc⟩ := hall c hshort
    rw [hc]
    exact .short he
  · simp only [List.mem_cons, List.not_mem_nil, or_false, not_or] at hshort
    by_cases hcontrol : c.toNat < 0x20
    · simpa [escapedChar, hshort, hcontrol] using WritesChar.numbered (writesUnit_hexDigits hcontrol)
    · have hc : c ≠ '"' ∧ c ≠ '\\' ∧ 0x20 ≤ c.toNat :=
        ⟨hshort.1, hshort.2.1, Nat.le_of_not_lt hcontrol⟩
      rw [escapedChar_eq_self_iff.mpr hc]
      exact .plain hc.1 hc.2.1 hc.2.2

theorem writesChars_escaped (t : Text) : WritesChars (t.flatMap escapedChar) t := by
  induction t with
  | nil => exact .nil
  | cons c t ih => exact .cons (writesChar_escapedChar c) ih

theorem writesToken_number (n : Int) : WritesToken (signedNumeral n) (.number n) := by
  rcases signedNumeral_cases n with ⟨hneg, hn⟩ | ⟨hpos, hn⟩
  · have hvalue : n = -(n.natAbs : Int) := by omega
    have hnumber := WritesToken.negative n.natAbs
    rwa [← hvalue, ← hn] at hnumber
  · have hvalue : n = (n.natAbs : Int) := by omega
    have hnumber := WritesToken.number n.natAbs
    rwa [← hvalue, ← hn] at hnumber

theorem no_filler : ∀ c ∈ ([] : Text), isFiller c = true := by simp

theorem WritesTokens.token {w t : Text} {token : Token} {ts : List Token} (ht : WritesTokens t ts)
    (hopen : OpensWithoutDigit t) (hw : WritesToken w token) : WritesTokens (w ++ t) (token :: ts) :=
  .cons no_filler hw (fun _ => hopen) ht

theorem WritesTokens.mark {c : Char} {t : Text} {ts : List Token} (ht : WritesTokens t ts)
    (hc : isMark c = true) : WritesTokens (c :: t) (.mark c :: ts) :=
  .cons no_filler (.mark hc) (fun ⟨_, h⟩ => nomatch h) ht

theorem itemsText_cons (v : Json) (vs : List Json) :
    itemsText (v :: vs) = v.text ++ if vs.isEmpty then [] else ',' :: itemsText vs := by
  cases vs <;> simp [itemsText]

theorem membersText_cons (key : Text) (v : Json) (ms : List (Text × Json)) :
    membersText ((key, v) :: ms) =
      stringText key ++ ':' :: (v.text ++ if ms.isEmpty then [] else ',' :: membersText ms) := by
  cases ms <;> simp [membersText]

mutual

/-- The text of a value falls into the tokens of the value, before all that does not go on
as a number. -/
theorem writesTokens_text : ∀ (v : Json) {t : Text} {ts : List Token}, WritesTokens t ts →
    OpensWithoutDigit t → WritesTokens (v.text ++ t) (v.tokens ++ ts)
  | .null, _, _, ht, hopen => ht.token hopen .null
  | .number n, _, _, ht, hopen => ht.token hopen (writesToken_number n)
  | .string s, _, _, ht, hopen => ht.token hopen (.string (writesChars_escaped s))
  | .array vs, _, _, ht, _ => by
    have hclose := ht.mark (show isMark ']' = true by decide)
    have hitems := writesTokens_itemsText vs hclose (by simp [OpensWithoutDigit])
    simpa [text, tokens] using hitems.mark (show isMark '[' = true by decide)
  | .object ms, _, _, ht, _ => by
    have hclose := ht.mark (show isMark closeBrace = true by decide)
    have hmembers := writesTokens_membersText ms hclose (by simp [OpensWithoutDigit])
    simpa [text, tokens] using hmembers.mark (show isMark openBrace = true by decide)

theorem writesTokens_itemsText : ∀ (vs : List Json) {t : Text} {ts : List Token}, WritesTokens t ts →
    OpensWithoutDigit t → WritesTokens (itemsText vs ++ t) (itemsTokens vs ++ ts)
  | [], _, _, ht, _ => ht
  | [v], _, _, ht, hopen => writesTokens_text v ht hopen
  | v :: w :: vs, _, _, ht, hopen => by
    have hrest := (writesTokens_itemsText (w :: vs) ht hopen).mark (show isMark ',' = true by decide)
    have hfirst := writesTokens_text v hrest (by simp [OpensWithoutDigit])
    simpa [itemsText_cons v, itemsTokens_cons v] using hfirst

theorem writesTokens_membersText : ∀ (ms : List (Text × Json)) {t : Text} {ts : List Token},
    WritesTokens t ts → OpensWithoutDigit t → WritesTokens (membersText ms ++ t) (membersTokens ms ++ ts)
  | [], _, _, ht, _ => ht
  | [(key, v)], _, _, ht, hopen => by
    have hvalue := (writesTokens_text v ht hopen).mark (show isMark ':' = true by decide)
    have hkey := hvalue.token (by simp [OpensWithoutDigit]) (.string (writesChars_escaped key))
    simpa [membersText_cons, membersTokens_cons, stringText] using hkey
  | (key, v) :: m :: ms, _, _, ht, hopen => by
    have hrest := (writesTokens_membersText (m :: ms) ht hopen).mark (show isMark ',' = true by decide)
    have hvalue := (writesTokens_text v hrest (by simp [OpensWithoutDigit])).mark
      (show isMark ':' = true by decide)
    have hkey := hvalue.token (by simp [OpensWithoutDigit]) (.string (writesChars_escaped key))
    simpa [membersText_cons key v, membersTokens_cons key v, stringText] using hkey

end

theorem writes_text (v : Json) : Writes v.text v := by
  have h := writesTokens_text v (.nil no_filler) (by simp [OpensWithoutDigit])
  simpa [Writes] using h

/-- **What is written reads back**: the text of a value writes this value, and no other. -/
theorem writes_text_iff {v w : Json} : Writes v.text w ↔ w = v := by
  constructor
  · intro h
    exact h.unique (writes_text v)
  · intro h
    exact h ▸ writes_text v

end Json

end PhraseGrammar
