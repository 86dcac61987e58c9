/-
Hosts and ports as targets name them. A host that looks like an address has to
be one: four numbers with points between them, or groups of hexadecimal digits
with colons between them in square brackets. Any other text may be the name of
a host. A port is any whole number.
-/
import PhraseGrammar.Text.Hexadecimal
import PhraseGrammar.Text.Integer
import PhraseGrammar.Text.Quoted

namespace PhraseGrammar

/-- What stands between the slashes of a target and its path: a user, a host
and a port, each as it is written. -/
structure Authority where
  user : Text
  host : Text
  port : Text

/-- Why a target has no host or no port. -/
inductive HostFault
  | badNumbers (host : Text)
  | badGroups (host : Text)
  | badPort (port : Text)
  deriving DecidableEq

def HostFault.message : HostFault → Text
  | .badNumbers host => "Invalid IPv4 address: ".toList ++ quoted host
  | .badGroups host => "Invalid IPv6 address: ".toList ++ quoted host
  | .badPort port => "Invalid port: ".toList ++ quoted port

/-! ## Parts -/

/-- The text before the last `c` and the text after it. -/
def cutAtLast (c : Char) (t : Text) : Option (Text × Text) :=
  (cutAt c t.reverse).map fun (after, before) => (before.reverse, after.reverse)

/-- The host that a text starts with, and what stands after it. Square brackets
hold a host with colons together. -/
def cutHost (t : Text) : Text × Text :=
  match t.head?, cutAtLast ']' t with
  | some '[', some (inside, after) => (inside ++ [']'], after)
  | _, _ => t.span (· != ':')

/-- The parts of an authority. A user is what stands before the last `@`. -/
def Authority.ofText (t : Text) : Authority :=
  let (user, place) := (cutAtLast '@' t).getD ([], t)
  let (host, after) := cutHost place
  ⟨user, host, if after.head? = some ':' then after.tail else after⟩

/-! ## Addresses -/

/-- Four runs of digits with any character between two of them, where `more`
runs are still to come after the one that the text is in. -/
def looksLikeNumbers (more : Nat) : Text → Bool
  | [] => false
  | [c] => more == 0 && c.isDigit
  | c :: d :: rest =>
    c.isDigit && (looksLikeNumbers more (d :: rest) || (0 < more && looksLikeNumbers (more - 1) rest))

/-- A number below 256 without needless zeros. -/
def isAddressNumber (t : Text) : Bool :=
  !t.isEmpty && t.length ≤ 3 && t.all Char.isDigit && (t == ['0'] || t.head? != some '0') &&
    digitsValue t ≤ 255

/-- Four numbers with points between them. -/
def isNumberAddress (t : Text) : Bool :=
  let parts := cutAtEach '.' t
  parts.length == 4 && parts.all isAddressNumber

/-- One to four hexadecimal digits. -/
def isAddressGroup (t : Text) : Bool := !t.isEmpty && t.length ≤ 4 && t.all isHexDigit

/-- The groups on one side of a gap, which may be none. -/
def groupsBesideGap? (parts : List Text) : Option Nat :=
  if parts = [[]] then some 0
  else if parts.all isAddressGroup then some parts.length
  else none

/-- The parts between colons, with two groups in place of four numbers at the
end. -/
def addressParts? (t : Text) : Option (List Text) :=
  let parts := cutAtEach ':' t
  let last := parts.getLastD []
  if parts.length < 3 then none
  else if '.' ∈ last then
    if isNumberAddress last then some (parts.dropLast ++ [['0'], ['0']]) else none
  else some parts

/-- Eight groups, or fewer with a gap that stands for one at least. -/
def isGroupAddress (t : Text) : Bool :=
  match addressParts? t with
  | none => false
  | some parts =>
    let inside := parts.tail.dropLast
    match inside.findIdx? (·.isEmpty) with
    | none => parts.length == 8 && parts.all isAddressGroup
    | some i =>
      match groupsBesideGap? (parts.take (i + 1)), groupsBesideGap? (parts.drop (i + 2)) with
      | some before, some after => before + after ≤ 7
      | _, _ => false

/-- What may stand in square brackets: a group address, and a zone after a
percent sign. -/
def isBracketedHost (t : Text) : Bool :=
  match cutAt '%' t with
  | none => isGroupAddress t
  | some (address, zone) => !zone.isEmpty && '%' ∉ zone && isGroupAddress address

/-- The host stands in square brackets. -/
def isInBrackets (host : Text) : Bool := host.head? == some '[' && host.getLast? == some ']'

/-- A host that looks like an address and is none. -/
def hostFault? (host : Text) : Option HostFault :=
  if looksLikeNumbers 3 host then
    if isNumberAddress host then none else some (.badNumbers host)
  else if isInBrackets host then
    if isBracketedHost host.tail.dropLast then none else some (.badGroups host)
  else none

/-- Reads a port, which may be left out. -/
def readPort (t : Text) : Except HostFault (Option Int) :=
  if t.isEmpty then .ok none
  else
    match readTypedInteger? t with
    | some n => .ok (some n)
    | none => .error (.badPort t)

/-- Checks the host, then the port, which it gives. -/
def Authority.check (a : Authority) : Except HostFault (Option Int) :=
  match hostFault? a.host with
  | some e => .error e
  | none => readPort a.port

end PhraseGrammar
