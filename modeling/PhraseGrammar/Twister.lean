/-
The Mersenne twister, a generator of pseudorandom 32-bit words with 624 words
of state, seeded from a whole number of any size; and draws below a bound from
its bits. A draw takes as many bits as the bound has and tries again while the
number is not below the bound, so every answer is as likely as any other.
-/

namespace PhraseGrammar

/-- The state of a generator: its words, and how many of them are used up. -/
structure Twister where
  words : Array UInt32
  used : Nat

namespace Twister

/-- The number of words of state. -/
def size : Nat := 624

/-- A word of the state; all that are asked for are there. -/
def wordAt (ws : Array UInt32) (i : Nat) : UInt32 := ws.getD i 0

/-! ## Seeding -/

/-- Both seedings mix a word with its top bits. -/
def fold30 (w : UInt32) : UInt32 := w ^^^ (w >>> 30)

/-- The state that a single word is spread over. -/
def spread (seed : UInt32) : Array UInt32 :=
  (size - 1).fold
    (fun i _ ws => ws.push (1812433253 * fold30 (wordAt ws i) + (i + 1).toUInt32)) #[seed]

/-- The place after `i` in a walk over the places 1 to 623; the last word is
copied to place 0 when the walk starts over. -/
def advance (ws : Array UInt32) (i : Nat) : Array UInt32 × Nat :=
  if size ≤ i + 1 then (ws.setIfInBounds 0 (wordAt ws (size - 1)), 1) else (ws, i + 1)

/-- Mixes the words of a key into the state. -/
def mixKey (key : Array UInt32) (ws : Array UInt32) : Array UInt32 × Nat :=
  let rounds := max size key.size
  rounds.fold
    (fun k _ (ws, i) =>
      let j := k % key.size
      let w := (wordAt ws i ^^^ (fold30 (wordAt ws (i - 1)) * 1664525)) + wordAt key j + j.toUInt32
      advance (ws.setIfInBounds i w) i)
    (ws, 1)

/-- Mixes the state once more, without the key. -/
def mixPlaces (ws : Array UInt32) (start : Nat) : Array UInt32 :=
  ((size - 1).fold
    (fun _ _ (ws, i) =>
      let w := (wordAt ws i ^^^ (fold30 (wordAt ws (i - 1)) * 1566083941)) - i.toUInt32
      advance (ws.setIfInBounds i w) i)
    (ws, start)).1

/-- The 32-bit words of a number, the least significant first; one word for
zero. -/
def wordsOf (n : Nat) : Array UInt32 :=
  (Array.range (n.log2 / 32 + 1)).map fun i => (n >>> (32 * i)).toUInt32

/-- The generator for a seed. The sign of the seed does not count. -/
def ofSeed (seed : Int) : Twister :=
  let (ws, i) := mixKey (wordsOf seed.natAbs) (spread 19650218)
  ⟨(mixPlaces ws i).setIfInBounds 0 0x80000000, size⟩

/-! ## Words -/

/-- The next state, when all words are used up. -/
def renew (ws : Array UInt32) : Array UInt32 :=
  size.fold
    (fun i _ ws =>
      let y := (wordAt ws i &&& 0x80000000) ||| (wordAt ws ((i + 1) % size) &&& 0x7fffffff)
      let odd : UInt32 := if y &&& 1 = 0 then 0 else 0x9908b0df
      ws.setIfInBounds i (wordAt ws ((i + 397) % size) ^^^ (y >>> 1) ^^^ odd))
    ws

/-- Spreads the bits of a word of the state before it is given out. -/
def temper (y : UInt32) : UInt32 :=
  let y := y ^^^ (y >>> 11)
  let y := y ^^^ ((y <<< 7) &&& 0x9d2c5680)
  let y := y ^^^ ((y <<< 15) &&& 0xefc60000)
  y ^^^ (y >>> 18)

/-- The next word. -/
def nextWord (t : Twister) : UInt32 × Twister :=
  let t : Twister := if t.used < size then t else ⟨renew t.words, 0⟩
  (temper (wordAt t.words t.used), { t with used := t.used + 1 })

/-- The next `bits` random bits as a number: whole words from the least
significant on, and the top bits of one more word. -/
def nextBits (t : Twister) (bits : Nat) : Nat × Twister :=
  let full := bits / 32
  let left := bits % 32
  let (n, t) := full.fold
    (fun i _ (n, t) =>
      let (w, t) := nextWord t
      (n + w.toNat <<< (32 * i), t))
    (0, t)
  if left = 0 then (n, t)
  else
    let (w, t) := nextWord t
    (n + (w >>> (32 - left).toUInt32).toNat <<< (32 * full), t)

/-! ## Draws -/

/-- How often a draw is tried again. Half of the tries succeed at least, so
this many never fail in practice; if they did, the answer would be zero. -/
def maxTries : Nat := 10000

/-- Tries up to `tries` times for a number below `bound`. -/
def tryBelow (bound bits : Nat) : Nat → Twister → Nat × Twister
  | 0, t => (0, t)
  | tries + 1, t =>
    let (n, t) := t.nextBits bits
    if n < bound then (n, t) else tryBelow bound bits tries t

/-- A number below `bound`, each as likely as any other. -/
def below (t : Twister) (bound : Nat) : Nat × Twister :=
  tryBelow bound (bound.log2 + 1) maxTries t

theorem tryBelow_lt {bound : Nat} (h : 0 < bound) (bits tries : Nat) (t : Twister) :
    (tryBelow bound bits tries t).1 < bound := by
  induction tries generalizing t with
  | zero => exact h
  | succ tries ih =>
    simp only [tryBelow]
    split
    · assumption
    · exact ih _

/-- Every draw is below its bound. -/
theorem below_lt (t : Twister) {bound : Nat} (h : 0 < bound) : (t.below bound).1 < bound :=
  tryBelow_lt h _ _ _

end Twister

end PhraseGrammar
