/-
Options on a command line. A switch has a short name, a long name or both, and
may take a value: in the next word, after `=`, or right after a short name.
Short names without values may share a word, after `=` too, and a long name
may be cut short as long as it means one switch only. After `--` no word is a
switch; neither is a negative number, or a word with a space that no switch
claims. Where `--` stands as the value in the word of a switch, it is dropped,
and the switch is given a blank.

Words are told apart before any switch acts, so an unclear one is reported
first. The operands are the first run of words that belong to no switch; what
is left over after them is reported last.
-/
import PhraseGrammar.Text.Quoted
import PhraseGrammar.Text.DecimalDigit

namespace PhraseGrammar

/-- What a command line gives to a switch: nothing if it does not have the
switch, a blank if the value was dropped, or a value. -/
inductive Given (α : Type)
  | absent
  | blank
  | value (a : α)

/-- The value that is given, or else the fallback; a blank is neither. -/
def Given.resolve {α : Type} (g : Given α) (fallback : Option α) : Option (Option α) :=
  match g with
  | .absent => some fallback
  | .blank => none
  | .value a => some (some a)

/-- The value that is given, or else the default; a blank is neither. -/
def Given.getD {α : Type} (g : Given α) (default : α) : Option α :=
  match g with
  | .absent => some default
  | .blank => none
  | .value a => some a

/-- What a switch does to the arguments `σ`. A value, which is missing if the
switch is given a blank, may be refused with a complaint. -/
inductive Effect (σ : Type)
  | help
  | flag (set : σ → σ)
  | value (set : Option Text → σ → Except Text σ)

/-- A switch: its names, each with its dashes, and what it does. -/
structure Switch (σ : Type) where
  names : List Text
  effect : Effect σ

/-- A command: its name, the summary of its usage, the rest of its help, its
switches, and what it does with operands, if it takes any. -/
structure Command (σ : Type) where
  name : Text
  usage : Text
  manual : Text
  switches : List (Switch σ)
  operands : Option (List Text → σ → σ)

/-- Why a command does not run: its help was asked for, or it was misused. -/
inductive Refusal
  | help
  | misuse (message : Text)
  deriving DecidableEq

namespace Switch

variable {σ : Type}

/-- The switch takes a value. -/
def takesValue (s : Switch σ) : Bool :=
  match s.effect with
  | .value _ => true
  | _ => false

/-- A complaint about the use of a switch. -/
def complaint (s : Switch σ) (message : Text) : Refusal :=
  .misuse ("argument ".toList ++ joinWith ['/'] s.names ++ ": ".toList ++ message)

/-- A value was given to a switch that takes none. -/
def ignored (s : Switch σ) (value : Text) : Refusal :=
  s.complaint ("ignored explicit argument ".toList ++ quoted value)

end Switch

/-! ## Telling words apart -/

/-- A word of a command line. What is attached to a switch stands in the same
word, after `=` or right after a short name. -/
inductive Word (σ : Type)
  | operand (t : Text)
  | dashes
  | unknown (t : Text)
  | switch (s : Switch σ) (short : Bool) (attached : Option Text)

/-- The words that end the switches. -/
def twoDashes : Text := ['-', '-']

/-- A name with one dash. -/
def isShortName (name : Text) : Bool := !twoDashes.isPrefixOf name

/-- A number with a minus sign: digits, or a point with digits after it. One
line feed may follow. -/
def isNegativeNumber (t : Text) : Bool :=
  match t with
  | '-' :: rest =>
    let rest := if rest.getLast? = some '\n' then rest.dropLast else rest
    let after := rest.dropWhile isDecimalDigit
    match after with
    | [] => !rest.isEmpty
    | '.' :: fraction => !fraction.isEmpty && fraction.all isDecimalDigit
    | _ => false
  | _ => false

namespace Command

variable {σ : Type}

/-- The switches by name. -/
def named (c : Command σ) : List (Text × Switch σ) :=
  c.switches.flatMap fun s => s.names.map fun name => (name, s)

/-- The switch of a name. -/
def find? (c : Command σ) (name : Text) : Option (Switch σ) := c.named.lookup name

/-- The switches that a word may mean by the start of a name. -/
def candidates (c : Command σ) (t : Text) : List (Text × Switch σ × Option Text) :=
  if twoDashes.isPrefixOf t then
    let (start, attached) : Text × Option Text :=
      match cutAt '=' t with
      | some (start, value) => (start, some value)
      | none => (t, none)
    (c.named.filter fun e => start.isPrefixOf e.1).map fun e => (e.1, e.2, attached)
  else
    c.named.filterMap fun e =>
      if e.1 = t.take 2 then some (e.1, e.2, some (t.drop 2))
      else if t.isPrefixOf e.1 then some (e.1, e.2, none)
      else none

/-- What a word that starts with a dash is, when it is no name by itself or
before `=`. -/
def guessWord (c : Command σ) (t : Text) : Except Refusal (Word σ) :=
  match c.candidates t with
  | [(name, s, attached)] => .ok (.switch s (isShortName name) attached)
  | [] => .ok (if isNegativeNumber t || t.contains ' ' then .operand t else .unknown t)
  | several =>
    .error (.misuse ("ambiguous option: ".toList ++ t ++ " could match ".toList ++
      joinWith ", ".toList (several.map (·.1))))

/-- What a word is. -/
def tellWord (c : Command σ) (t : Text) : Except Refusal (Word σ) :=
  if t.head? ≠ some '-' ∨ t = ['-'] then .ok (.operand t)
  else
    match c.find? t with
    | some s => .ok (.switch s (isShortName t) none)
    | none =>
      match cutAt '=' t with
      | none => c.guessWord t
      | some (name, value) =>
        match c.find? name with
        | some s => .ok (.switch s (isShortName name) (some value))
        | none => c.guessWord t

/-- What the words of a line are. -/
def tellWords (c : Command σ) : List Text → Except Refusal (List (Word σ))
  | [] => .ok []
  | t :: rest =>
    if t = twoDashes then .ok (.dashes :: rest.map .operand)
    else
      match c.tellWord t with
      | .error e => .error e
      | .ok w => (c.tellWords rest).map (w :: ·)

/-! ## Taking words in -/

/-- The switches in one word: those without values, and one that takes a value,
with the value if it is in the word. -/
structure Bundle (σ : Type) where
  flags : List (Switch σ)
  last : Option (Switch σ × Option Text)

/-- A bundle of one switch. -/
def Bundle.single (s : Switch σ) : Bundle σ :=
  if s.takesValue then ⟨[], some (s, none)⟩ else ⟨[s], none⟩

/-- A switch in front of a bundle. -/
def Bundle.push (s : Switch σ) (b : Bundle σ) : Bundle σ := { b with flags := s :: b.flags }

/-- The switches in a word of short names: what is attached to one is its
value, or further short names. -/
def unfoldShort (c : Command σ) (s : Switch σ) : Text → Except Refusal (Bundle σ)
  | [] => if s.takesValue then .ok ⟨[], some (s, some [])⟩ else .error (s.ignored [])
  | letter :: rest =>
    if s.takesValue then .ok ⟨[], some (s, some (letter :: rest))⟩
    else
      match c.find? ['-', letter] with
      | none => .error (s.ignored (letter :: rest))
      | some next =>
        if rest.isEmpty then .ok ((Bundle.single next).push s)
        else (unfoldShort c next rest).map (·.push s)

/-- The switches in a word. -/
def unfoldWord (c : Command σ) (s : Switch σ) (short : Bool) :
    Option Text → Except Refusal (Bundle σ)
  | none => .ok (Bundle.single s)
  | some value =>
    if short then c.unfoldShort s value
    else if s.takesValue then .ok ⟨[], some (s, some value)⟩
    else .error (s.ignored value)

/-- What has been taken in: the arguments, the operands if they have begun,
whether their run goes on, and the words that nothing claims. -/
structure Intake (σ : Type) where
  arguments : σ
  operands : Option (List Text)
  running : Bool
  extras : List Text

/-- Takes in a word that belongs to no switch. -/
def Intake.operand (i : Intake σ) (c : Command σ) (t : Text) : Intake σ :=
  if i.running then { i with operands := some (i.operands.getD [] ++ [t]) }
  else if c.operands.isSome && i.operands.isNone then { i with operands := some [t], running := true }
  else { i with extras := i.extras ++ [t] }

/-- Takes in a word that looks like a switch and is none. -/
def Intake.leaveOver (i : Intake σ) (t : Text) : Intake σ :=
  { i with running := false, extras := i.extras ++ [t] }

/-- Lets a switch act on a value that is given to it, or on a blank. -/
def act (s : Switch σ) (value : Option Text) (a : σ) : Except Refusal σ :=
  match s.effect with
  | .help => .error .help
  | .flag set => .ok (set a)
  | .value set => (set value a).mapError s.complaint

/-- Lets the switches of a bundle act. -/
def actAll (b : Bundle σ) (value : Option Text) (i : Intake σ) : Except Refusal (Intake σ) := do
  let a ← b.flags.foldlM (fun a s => act s none a) i.arguments
  let a ← match b.last with
    | none => pure a
    | some (s, _) => act s value a
  return { i with arguments := a, running := false }

/-- What is left of a value that is attached to its switch. -/
def attachedValue (t : Text) : Option Text := if t = twoDashes then none else some t

/-- Takes in words. -/
def takeIn (c : Command σ) (i : Intake σ) : List (Word σ) → Except Refusal (Intake σ)
  | [] => .ok i
  | .operand t :: rest => c.takeIn (i.operand c t) rest
  | .dashes :: rest => c.takeIn (i.operand c twoDashes) rest
  | .unknown t :: rest => c.takeIn (i.leaveOver t) rest
  | .switch s short attached :: rest =>
    match c.unfoldWord s short attached with
    | .error e => .error e
    | .ok b =>
      match b.last with
      | some (valued, none) =>
        match rest with
        | .operand value :: rest => (actAll b (some value) i).bind fun i => c.takeIn i rest
        | _ => .error (valued.complaint "expected one argument".toList)
      | some (_, some value) =>
        (actAll b (attachedValue value) i).bind fun i => c.takeIn i rest
      | none => (actAll b none i).bind fun i => c.takeIn i rest

/-- Reads a command line. The first `--` among the operands does not count. -/
def read (c : Command σ) (start : σ) (argv : List Text) : Except Refusal σ := do
  let words ← c.tellWords argv
  let i ← c.takeIn ⟨start, none, false, []⟩ words
  if i.extras.isEmpty then
    let operands := (i.operands.getD []).erase twoDashes
    return match c.operands with
      | some set => set operands i.arguments
      | none => i.arguments
  else
    .error (.misuse ("unrecognized arguments: ".toList ++ joinWith [' '] i.extras))

/-- What is written about a misuse. -/
def misuseText (c : Command σ) (message : Text) : Text :=
  c.usage ++ c.name ++ ": error: ".toList ++ message ++ ['\n']

/-- What is written when help is asked for. -/
def helpText (c : Command σ) : Text := c.usage ++ c.manual

end Command

end PhraseGrammar
