/-
Files by path. A tree holds what is at each absolute path, and the directory
that relative paths start from; there are no links, and everybody may read.

A path is kept in its normal form: no empty components and no `.`, but every
`..`, because whether `a/..` leads anywhere depends on `a`. Where only the
letters of a path count, `Path.resolve` works the `..` out of them.
-/
import PhraseGrammar.Text.Utf8
import PhraseGrammar.Text.Lines

namespace PhraseGrammar

/-! ## Paths -/

/-- A path: the slashes it starts with (none if it is relative, one, or two,
which is a root of its own) and its components. -/
structure Path where
  root : Text
  parts : List Text
  deriving DecidableEq

/-- The slashes that count at the start of a path: exactly two stay two. -/
def rootOf : Text → Text
  | '/' :: '/' :: '/' :: _ => ['/']
  | '/' :: '/' :: _ => ['/', '/']
  | '/' :: _ => ['/']
  | _ => []

namespace Path

/-- The path that a text writes. -/
def ofText (t : Text) : Path :=
  ⟨rootOf t, (cutAtEach '/' t).filter fun part => !part.isEmpty && part != ['.']⟩

/-- The text of a path; the empty one is written `.`. -/
def text (p : Path) : Text :=
  let t := p.root ++ joinWith ['/'] p.parts
  if t.isEmpty then ['.'] else t

/-- The path starts at a root. -/
def isAbsolute (p : Path) : Bool := !p.root.isEmpty

/-- The path without its last component. -/
def parent (p : Path) : Path := { p with parts := p.parts.dropLast }

/-- What `q` leads to from `p`. -/
def join (p q : Path) : Path := if q.isAbsolute then q else { p with parts := p.parts ++ q.parts }

/-- Takes one component: `..` goes back one. -/
def stepLexically (here : List Text) (part : Text) : List Text :=
  if part = ['.', '.'] then here.dropLast else here ++ [part]

/-- The components of the absolute path, with every `..` worked out by letters
alone. -/
def resolveParts (cwd : List Text) (p : Path) : List Text :=
  p.parts.foldl stepLexically (if p.isAbsolute then [] else cwd)

/-- The absolute path without `..`. -/
def resolve (cwd : List Text) (p : Path) : Path := ⟨['/'], p.resolveParts cwd⟩

/-- The places that a path leads through, from where it starts to its end. -/
def places (cwd : List Text) (p : Path) : List (List Text) :=
  (List.range (p.parts.length + 1)).map fun n => { p with parts := p.parts.take n }.resolveParts cwd

/-- The octets that a name takes. -/
def octetCount (name : Text) : Nat := name.foldl (fun n c => n + c.utf8Size) 0

/-- The octets that one component may take. -/
def componentLimit : Nat := 255

/-- The octets that a whole path may take. -/
def pathLimit : Nat := 4095

/-- The path holds a NUL, which no file name can. -/
def hasNul (p : Path) : Bool := p.parts.any (·.contains '\x00')

end Path

/-! ## Trees -/

/-- What stands at a path. -/
inductive Entry
  | file (octets : List UInt8)
  | directory
  deriving DecidableEq

/-- What stands at absolute paths, and the components of the working
directory. The root is always a directory. -/
structure FileTree where
  entries : List (List Text × Entry)
  cwd : List Text

/-- Why there is no file at a path. -/
inductive FileError
  | missing (path : Path)
  | notADirectory (path : Path)
  | isADirectory (path : Path)
  | nameTooLong (path : Path)
  deriving DecidableEq

def FileError.message : FileError → Text
  | .missing p => "[Errno 2] No such file or directory: ".toList ++ quoted p.text
  | .notADirectory p => "[Errno 20] Not a directory: ".toList ++ quoted p.text
  | .isADirectory p => "[Errno 21] Is a directory: ".toList ++ quoted p.text
  | .nameTooLong p => "[Errno 36] File name too long: ".toList ++ quoted p.text

namespace FileTree

/-- An empty tree whose working directory is there. -/
def empty (cwd : List Text) : FileTree := ⟨[], cwd⟩

/-- What stands at an absolute place. The working directory and all above it
are there even if nothing was put into them. -/
def entryAt? (t : FileTree) (place : List Text) : Option Entry :=
  match t.entries.lookup place with
  | some e => some e
  | none => if place.isPrefixOf t.cwd then some .directory else none

/-- Puts an entry at a place. -/
def putEntry (t : FileTree) (place : List Text) (e : Entry) : FileTree :=
  { t with entries := (place, e) :: t.entries.filter (·.1 != place) }

/-- Makes a directory of every place on the way to the end of a path. -/
def makeParents (t : FileTree) (p : Path) : FileTree :=
  (p.places t.cwd).dropLast.foldl
    (fun t place => if (t.entryAt? place).isSome then t else t.putEntry place .directory) t

/-- Puts an entry at a path, with directories on the way to it. -/
def put (t : FileTree) (p : Path) (e : Entry) : FileTree :=
  (t.makeParents p).putEntry (p.resolveParts t.cwd) e

/-- Removes what is at a path and all below it. -/
def remove (t : FileTree) (p : Path) : FileTree :=
  let place := p.resolveParts t.cwd
  { t with entries := t.entries.filter fun e => !place.isPrefixOf e.1 }

/-- Follows components from a place. Each one is looked up in a directory, and
must not be too long for a name. -/
def follow (t : FileTree) (place : List Text) : List Text → Except (Path → FileError) Entry
  | [] =>
    match t.entryAt? place with
    | some e => .ok e
    | none => .error .missing
  | part :: rest =>
    match t.entryAt? place with
    | none => .error .missing
    | some (.file _) => .error .notADirectory
    | some .directory =>
      if Path.componentLimit < Path.octetCount part then .error .nameTooLong
      else t.follow (Path.stepLexically place part) rest

/-- What a path leads to. -/
def find (t : FileTree) (p : Path) : Except FileError Entry :=
  if Path.pathLimit < Path.octetCount p.text then .error (.nameTooLong p)
  else (t.follow (if p.isAbsolute then [] else t.cwd) p.parts).mapError fun fault => fault p

/-- Whether there is something at the path. Nothing can be asked about a name
that is too long. -/
def holds (t : FileTree) (p : Path) : Except FileError Bool :=
  if p.hasNul then .ok false
  else
    match t.find p with
    | .ok _ => .ok true
    | .error (.nameTooLong q) => .error (.nameTooLong q)
    | .error _ => .ok false

/-- The octets of the file at a path. -/
def readOctets (t : FileTree) (p : Path) : Except FileError (List UInt8) :=
  match t.find p with
  | .ok (.file octets) => .ok octets
  | .ok .directory => .error (.isADirectory p)
  | .error e => .error e

end FileTree

/-! ## Reading text -/

/-- The message about a path with a NUL in it. -/
def nulMessage : Text := "embedded null byte".toList

/-- Why a file has no text. -/
inductive ReadError
  | nulInPath
  | file (e : FileError)
  | encoding (e : Utf8Error)
  deriving DecidableEq

def ReadError.message : ReadError → Text
  | .nulInPath => nulMessage
  | .file e => e.message
  | .encoding e => e.message

/-- The text of the file at a path, every line ended by a line feed. -/
def FileTree.readText (t : FileTree) (p : Path) : Except ReadError Text :=
  if p.hasNul then .error .nulInPath
  else
    match t.readOctets p with
    | .error e => .error (.file e)
    | .ok octets =>
      match decodeUtf8 octets with
      | .error e => .error (.encoding e)
      | .ok text => .ok (normalizeNewlines text)

end PhraseGrammar
