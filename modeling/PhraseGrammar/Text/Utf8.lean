/-
Text in octets. A character takes one to four octets; the first says how many,
and the range of the second is narrower after some firsts, so that there is one
form for every character and none for a surrogate. A fault is reported at the
character that it is in, with the number of octets that belonged together.
-/
import PhraseGrammar.Numeral
import PhraseGrammar.Text.Quoted

namespace PhraseGrammar

/-- Why octets are no text. -/
inductive Utf8Fault
  | badStart
  | badContinuation
  | endOfData
  deriving DecidableEq

/-- A fault, the place of the octet that the character starts with, that
octet, and how many octets the fault covers. -/
structure Utf8Error where
  fault : Utf8Fault
  place : Nat
  first : UInt8
  count : Nat
  deriving DecidableEq

def Utf8Fault.message : Utf8Fault → Text
  | .badStart => "invalid start byte".toList
  | .badContinuation => "invalid continuation byte".toList
  | .endOfData => "unexpected end of data".toList

def Utf8Error.message (e : Utf8Error) : Text :=
  let place :=
    if e.count = 1 then
      "byte 0x".toList ++ hexDigits 2 e.first.toNat ++ " in position ".toList ++ numeral e.place
    else
      "bytes in position ".toList ++ numeral e.place ++ '-' :: numeral (e.place + e.count - 1)
  "'utf-8' codec can't decode ".toList ++ place ++ ": ".toList ++ e.fault.message

/-- What the first octet of a character announces: how many octets follow, the
bits that it holds, and the range of the second octet. -/
structure Utf8Lead where
  following : Nat
  bits : Nat
  low : Nat
  high : Nat

/-- Reads a first octet; some octets cannot come first. -/
def utf8Lead? (b : UInt8) : Option Utf8Lead :=
  let n := b.toNat
  if n < 0x80 then some ⟨0, n, 0, 0⟩
  else if n < 0xc2 then none
  else if n < 0xe0 then some ⟨1, n - 0xc0, 0x80, 0xbf⟩
  else if n < 0xf0 then
    some ⟨2, n - 0xe0, if n = 0xe0 then 0xa0 else 0x80, if n = 0xed then 0x9f else 0xbf⟩
  else if n < 0xf5 then
    some ⟨3, n - 0xf0, if n = 0xf0 then 0x90 else 0x80, if n = 0xf4 then 0x8f else 0xbf⟩
  else none

/-- A character that is being read: its first octet, the place of that, the
octets read so far, those still to come, its bits so far and the range of the
next octet. -/
structure OpenChar where
  first : UInt8
  place : Nat
  count : Nat
  missing : Nat
  bits : Nat
  low : Nat
  high : Nat

/-- Reads octets from a place on, in the middle of a character or between two. -/
def decodeFrom (place : Nat) : Option OpenChar → List UInt8 → Except Utf8Error Text
  | none, [] => .ok []
  | some o, [] => .error ⟨.endOfData, o.place, o.first, o.count⟩
  | none, b :: rest =>
    match utf8Lead? b with
    | none => .error ⟨.badStart, place, b, 1⟩
    | some lead =>
      if lead.following = 0 then (decodeFrom (place + 1) none rest).map (Char.ofNat lead.bits :: ·)
      else
        decodeFrom (place + 1)
          (some ⟨b, place, 1, lead.following, lead.bits, lead.low, lead.high⟩) rest
  | some o, b :: rest =>
    if b.toNat < o.low ∨ o.high < b.toNat then .error ⟨.badContinuation, o.place, o.first, o.count⟩
    else
      let bits := o.bits * 64 + (b.toNat - 0x80)
      if o.missing ≤ 1 then (decodeFrom (place + 1) none rest).map (Char.ofNat bits :: ·)
      else
        decodeFrom (place + 1)
          (some ⟨o.first, o.place, o.count + 1, o.missing - 1, bits, 0x80, 0xbf⟩) rest

/-- The text that octets hold. -/
def decodeUtf8 (octets : List UInt8) : Except Utf8Error Text := decodeFrom 0 none octets

end PhraseGrammar
