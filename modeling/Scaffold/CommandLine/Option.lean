import Scaffold.Text.Basic

/-! Reading options from the words of a command line. A word may give an option by its long
name, with a value behind an equals sign, or several options by their letters; an option
without its value takes the next word. Main definition: `readWord`. -/

namespace Scaffold.CommandLine

/-- The options. -/
inductive Switch where
  | verbose | project | templates | kind | dryRun | force
  deriving DecidableEq, Repr

namespace Switch

def longName : Switch → Text
  | .verbose => "verbose"
  | .project => "project"
  | .templates => "templates"
  | .kind => "kind"
  | .dryRun => "dry-run"
  | .force => "force"

def letter? : Switch → Option Char
  | .verbose => some 'v'
  | .project => some 'p'
  | .kind => some 'k'
  | _ => none

def takesValue : Switch → Bool
  | .project | .templates | .kind => true
  | _ => false

/-- The options that every command knows. -/
def global : List Switch := [.verbose, .project, .templates]

end Switch

/-- Options with their values, in the order given; the value of a plain option is empty. -/
abbrev Given := List (Switch × Text)

/-- What a word of a command line is. -/
inductive Word where
  | positional
  /-- Two dashes: no options follow. -/
  | separator
  /-- An option that is not known. -/
  | unknown
  /-- A known option that is given a value it does not take. -/
  | excess
  /-- Options, the last of which may wait for its value. -/
  | options (given : Given) (waiting : Option Switch)
  deriving DecidableEq, Repr

/-- An option given by its long name. -/
def readLong (known : List Switch) (body : Text) : Word :=
  let (name, value) := match Text.splitOnce? '=' body with
    | some (name, value) => (name, some value)
    | none => (body, none)
  match known.find? (·.longName = name), value with
  | none, _ => .unknown
  | some s, some value => if s.takesValue then .options [(s, value)] none else .excess
  | some s, none => if s.takesValue then .options [] (some s) else .options [(s, [])] none

/-- Options given by their letters. The first that takes a value takes the rest of the word,
with or without an equals sign before it. -/
def readLetters (known : List Switch) (given : Given) : Text → Word
  | [] => .options given none
  | c :: rest =>
    match known.find? (·.letter? = some c) with
    | none => .unknown
    | some s =>
      if !s.takesValue then readLetters known (given ++ [(s, [])]) rest
      else match rest with
        | [] => .options given (some s)
        | '=' :: value => .options (given ++ [(s, value)]) none
        | value => .options (given ++ [(s, value)]) none

/-- Read one word. -/
def readWord (known : List Switch) : Text → Word
  | ['-', '-'] => .separator
  | '-' :: '-' :: body => readLong known body
  | ['-'] => .positional
  | '-' :: letters => readLetters known [] letters
  | _ => .positional

/-- Read one word where unknown options count as arguments: among letters, every character of
the word must be known. -/
def readWordLoosely (known : List Switch) (w : Text) : Word :=
  match w with
  | '-' :: '-' :: _ => if readWord known w = .unknown then .positional else readWord known w
  | '-' :: letters =>
    if letters.all fun c => c = 'h' || known.any fun s => s.letter? = some c then
      readWord known w
    else .positional
  | _ => .positional

/-- The words of a command line as read by a level of it: its options, and the words that are
none. Fails on unknown options, and on options without their values. -/
def readAll (known : List Switch) (given : Given) (arguments : List Text) :
    List Text → Option (Given × List Text)
  | [] => some (given, arguments)
  | w :: ws =>
    match readWord known w with
    | .positional => readAll known given (arguments ++ [w]) ws
    | .separator => some (given, arguments ++ ws)
    | .unknown | .excess => none
    | .options more none => readAll known (given ++ more) arguments ws
    | .options more (some s) =>
      match ws with
      | v :: ws =>
        if readWord known v = .positional then
          readAll known (given ++ more ++ [(s, v)]) arguments ws
        else none
      | [] => none

/-- The options up to the first argument, and the rest of the words from there. Two dashes
before the first argument are dropped. -/
def readUntilArgument (loosely : Bool) (known : List Switch) (given : Given) :
    List Text → Option (Given × List Text)
  | [] => some (given, [])
  | w :: ws =>
    let read := if loosely then readWordLoosely known else readWord known
    match read w with
    | .positional => some (given, w :: ws)
    | .separator => if loosely then some (given, ws) else none
    | .unknown | .excess => none
    | .options more none => readUntilArgument loosely known (given ++ more) ws
    | .options more (some s) =>
      match ws with
      | v :: ws =>
        if read v = .positional then
          readUntilArgument loosely known (given ++ more ++ [(s, v)]) ws
        else none
      | [] => none

namespace Given

/-- The value of an option. -/
def value? (g : Given) (s : Switch) : Option Text :=
  g.lookup s

/-- Whether an option is given. -/
def has (g : Given) (s : Switch) : Bool :=
  (g.value? s).isSome

/-- Options may be given once at each level, and directories must be named. -/
def isValid (g : Given) : Bool :=
  (g.map (·.1)).Nodup && g.all fun (s, value) =>
    !((s = .project || s = .templates) && value.isEmpty)

end Given
end Scaffold.CommandLine
