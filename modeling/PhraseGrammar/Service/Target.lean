/-
Where in the service a request goes. A request names its target as a
reference, with or without a scheme and a host, which only have to be in
order: the service answers under every host. The parameters of a request are
given apart from its target, so a query in it does not count.

A path is taken through its dots first. Then the characters that are written
by number are read, once where the request is sent and once more where it
arrives; a dot or a slash that is written by number leads nowhere.
-/
import PhraseGrammar.Service.Host
import PhraseGrammar.Service.Query

namespace PhraseGrammar

/-- The parts of a target that have a limit of their own. -/
inductive TargetPart
  | path
  | query
  deriving DecidableEq

/-- The name of a part. -/
def TargetPart.name : TargetPart → Text
  | .path => "path".toList
  | .query => "query".toList

/-- Why a text is no target. -/
inductive TargetFault
  | tooLong
  | control (c : Char) (place : Nat)
  | host (e : HostFault)
  | doubleSlash
  | leadingColon
  | partTooLong (part : TargetPart)
  | otherScheme (scheme : Text)
  deriving DecidableEq

def TargetFault.message : TargetFault → Text
  | .tooLong => "URL too long".toList
  | .control c place =>
    "Invalid non-printable ASCII character in URL, ".toList ++ quoted [c] ++
      " at position ".toList ++ numeral place ++ ['.']
  | .host e => e.message
  | .doubleSlash => "Relative URLs cannot have a path starting with '//'".toList
  | .leadingColon => "Relative URLs cannot have a path starting with ':'".toList
  | .partTooLong part => "URL component '".toList ++ part.name ++ "' too long".toList
  | .otherScheme scheme => quoted scheme

/-! ## Parts of a target -/

/-- A target by its parts, each as it is written. -/
structure Target where
  scheme : Text
  authority : Authority
  path : Text
  query : Option Text

/-- A character that the name of a scheme may hold. -/
def isSchemeChar (c : Char) : Bool := c.isAlphanum || c == '+' || c == '.' || c == '-'

/-- The scheme that a text starts with, which is blank if there is none, and
what stands after it. -/
def cutScheme (t : Text) : Text × Text :=
  match cutAt ':' t with
  | some (scheme, rest) =>
    if scheme.all isSchemeChar && !(scheme.head?.any fun c => !c.isAlpha) then
      (scheme.map Char.toLower, rest)
    else ([], t)
  | none => ([], t)

/-- The authority that a text starts with, and what stands after it. -/
def cutAuthority : Text → Text × Text
  | '/' :: '/' :: rest => rest.span fun c => c != '/' && c != '?' && c != '#'
  | t => ([], t)

/-- The parts of a target. What stands after a `#` is dropped. -/
def Target.ofText (t : Text) : Target :=
  let (scheme, afterScheme) := cutScheme t
  let (authority, afterAuthority) := cutAuthority afterScheme
  let place := afterAuthority.takeWhile (· != '#')
  match cutAt '?' place with
  | some (path, query) => ⟨scheme, .ofText authority, path, some query⟩
  | none => ⟨scheme, .ofText authority, place, none⟩

/-- The target names a place of its own, not one of the service. -/
def Target.isAbsolute (t : Target) : Bool := !t.scheme.isEmpty && !t.authority.host.isEmpty

/-! ## Paths -/

/-- Takes one component of a path: `.` stays where it is, and `..` goes back
one, but not before the first slash. -/
def stepThroughDots (here : List Text) (part : Text) : List Text :=
  if part = ['.'] then here
  else if part = ['.', '.'] then if here = [[]] then here else here.dropLast
  else here ++ [part]

/-- A path without its dots. -/
def withoutDots (path : Text) : Text :=
  joinWith ['/'] ((cutAtEach '/' path).foldl stepThroughDots [])

/-- The path as it is sent, before its dots are worked out where they were not
before. A path that is not absolute starts at the root of the service, however
many slashes it has. -/
def Target.sentPath (t : Target) (port : Option Int) : Except TargetFault Text :=
  let hasAuthority := !t.authority.user.isEmpty || !t.authority.host.isEmpty || port.isSome
  if t.isAbsolute then .ok (withoutDots t.path)
  else if !t.scheme.isEmpty || hasAuthority then
    .ok ('/' :: (withoutDots t.path).dropWhile (· == '/'))
  else if "//".toList.isPrefixOf t.path then .error .doubleSlash
  else if t.path.head? = some ':' then .error .leadingColon
  else .ok ('/' :: t.path.dropWhile (· == '/'))

/-- Reads what is written as a percent sign and two hexadecimal digits. No
place in the service has a name beyond ASCII, so an octet beyond it may be
read as any such character. -/
def readPercents : Text → Text
  | '%' :: a :: b :: rest =>
    match hexNumber? [a, b] with
    | some n => (if n < 0x80 then Char.ofNat n else '\uFFFD') :: readPercents rest
    | none => '%' :: readPercents (a :: b :: rest)
  | c :: rest => c :: readPercents rest
  | [] => []

/-! ## Limits -/

/-- The characters that a target and each part of it may take. -/
def targetLimit : Nat := 65536

/-- The characters that a text takes once every octet of a character that may
not stand for itself is written by number. -/
def sentLength (stands : Char → Bool) (t : Text) : Nat :=
  t.foldl (fun n c => n + if stands c then 1 else 3 * c.utf8Size) 0

/-- A character that stands for itself in the query of a target. -/
def standsInQuery (c : Char) : Bool :=
  0x20 < c.toNat && c.toNat < 0x7f && c != '"' && c != '#' && c != '<' && c != '>'

/-- A character that stands for itself in the path of a target. -/
def standsInPath (c : Char) : Bool :=
  standsInQuery c && c != '?' && c != '\x60' && c != openBrace && c != closeBrace

/-- A character that stands for itself in a parameter; a blank is sent as one
character, too. -/
def standsInParameter (c : Char) : Bool :=
  c.isAlphanum || c == '_' || c == '.' || c == '-' || c == '~' || c == ' '

/-- The characters that parameters take, with a sign after each key and one
between two parameters. -/
def Query.lengthSent (q : Query) : Nat :=
  q.foldl (fun n (key, value) =>
    n + sentLength standsInParameter key + sentLength standsInParameter value + 2) 0 - 1

/-- A part of a request to a path that is too long. A query of the target is
looked at only where it is put below the root of the service. -/
def Target.longPart? (t : Target) (path : Text) (parameters : Query) : Option TargetPart :=
  if targetLimit < sentLength standsInPath path then some .path
  else if !t.isAbsolute && targetLimit < sentLength standsInQuery (t.query.getD []) then some .query
  else if targetLimit < parameters.lengthSent then some .query
  else none

/-! ## Reading a target -/

/-- An ASCII control character. -/
def isAsciiControl (c : Char) : Bool := c.toNat < 0x20 || c.toNat == 0x7f

/-- The schemes that are served. -/
def servedSchemes : List Text := ["http".toList, "https".toList, "ws".toList, "wss".toList]

/-- The path that a target leads to, when it is sent with parameters. -/
def Target.lead (t : Target) (parameters : Query) : Except TargetFault Text := do
  let port ← t.authority.check.mapError .host
  let path ← t.sentPath port
  match t.longPart? path parameters with
  | some part => .error (.partTooLong part)
  | none =>
    if t.isAbsolute && !servedSchemes.contains t.scheme then .error (.otherScheme t.scheme)
    else .ok (readPercents (readPercents (withoutDots path)))

/-- Reads a target that is sent with parameters, and follows it. -/
def readTarget (t : Text) (parameters : Query) : Except TargetFault Text :=
  if targetLimit < t.length then .error .tooLong
  else
    match t.findIdx? isAsciiControl with
    | some i => .error (.control (t.getD i '\x00') i)
    | none => (Target.ofText t).lead parameters

example : (readTarget "http://host/a/./b/../%2564?x#y".toList []).toOption = some "/a/d".toList := by
  decide +kernel

end PhraseGrammar
