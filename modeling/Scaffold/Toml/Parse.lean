import Scaffold.Toml.Quoted
import Scaffold.Toml.Scalar
import Scaffold.Toml.Table

/-! Reading a settings file. Readers take the text that is left and give a value and the text
behind it; where something stands in the file follows from how much is left. Main definition:
`parse?`, which gives the table of the whole file. -/

namespace Scaffold.Toml

/-- The stretch of a file of `size` bytes from where `start` is left to where `rest` is left. -/
def spanOf (size : Nat) (start rest : Text) : Span :=
  ⟨size - start.byteSize, start.byteSize - rest.byteSize⟩

/-- Drop blanks and tabs. -/
def skipBlanks (t : Text) : Text :=
  t.dropWhile fun c => c == ' ' || c == '\t'

/-- Drop blanks, line ends and comments. A control character in a comment is refused. -/
def skipGap (inComment : Bool) : Text → Option Text
  | [] => some []
  | c :: t =>
    if c = '\n' then skipGap false t
    else if c = '\r' then if t.head? = some '\n' then skipGap inComment t else none
    else if inComment then if Quoted.isPlain c then skipGap true t else none
    else if c = ' ' || c = '\t' then skipGap false t
    else if c = '#' then skipGap true t
    else some (c :: t)

/-- The rest of a line behind a value or a header: nothing but a comment. -/
def lineEnd? (t : Text) : Option Text :=
  match skipBlanks t with
  | [] => some []
  | '\n' :: t => some t
  | '\r' :: '\n' :: t => some t
  | '#' :: t => skipGap true t
  | _ => none

/-- Characters of a key without quotes. -/
def isKeyChar (c : Char) : Bool :=
  c.isAlphanum || c == '-' || c == '_'

/-- One part of a key: bare, or a string on one line. -/
def keyPart? (size : Nat) (t : Text) : Option (Key × Text) :=
  match t with
  | '"' :: r => do
    let (s, rest) ← Quoted.basic r
    return (⟨s, spanOf size t rest⟩, rest)
  | '\'' :: r => do
    let (s, rest) ← Quoted.literal r
    return (⟨s, spanOf size t rest⟩, rest)
  | _ =>
    let s := t.takeWhile isKeyChar
    let rest := t.dropWhile isKeyChar
    if s.isEmpty then none else some (⟨s, spanOf size t rest⟩, rest)

/-- How many parts a key may have, and how many brackets and braces may be open around a value. -/
def maxDepth : Nat := 80

/-- Parts of a key with dots between them, and blanks around each; not more than `count`. -/
def keyParts? (size : Nat) : Nat → Text → Option (List Key × Text)
  | 0, _ => none
  | count + 1, t => do
    let (key, rest) ← keyPart? size (skipBlanks t)
    match skipBlanks rest with
    | '.' :: rest =>
      let (keys, rest) ← keyParts? size count rest
      return (key :: keys, rest)
    | rest => return ([key], rest)

/-- A key. -/
def keyPath? (size : Nat) (t : Text) : Option (List Key × Text) :=
  keyParts? size maxDepth t

mutual

/-- A value that may open `depth` more brackets and braces inside each other. `fuel` bounds the
steps of reading it. -/
def value? (size : Nat) : (fuel depth : Nat) → Text → Option (Value × Text)
  | 0, _, _ => none
  | fuel + 1, depth, t =>
    match t, depth with
    | '[' :: _, 0 | '{' :: _, 0 => none
    | '[' :: r, depth + 1 => do
      let (items, rest) ← items? size fuel depth r
      return (.array false items, rest)
    | '{' :: r, depth + 1 => do
      let (table, rest) ← pairs? size fuel depth ⟨.inline, []⟩ r
      return (table.toValue, rest)
    | '"' :: _, _ | '\'' :: _, _ => do
      let (s, rest) ← Quoted.string t
      return (.string s, rest)
    | _, _ => do
      let (w, rest) := Scalar.word t
      return (← Scalar.ofText? w, rest)

/-- The elements of an array behind its opening bracket or a comma. -/
def items? (size : Nat) : (fuel depth : Nat) → Text → Option (List (Span × Value) × Text)
  | 0, _, _ => none
  | fuel + 1, depth, t => do
    match ← skipGap false t with
    | ']' :: rest => return ([], rest)
    | start => do
      let (v, rest) ← value? size fuel depth start
      let item := (spanOf size start rest, v)
      match ← skipGap false rest with
      | ']' :: rest => return ([item], rest)
      | ',' :: rest =>
        let (items, rest) ← items? size fuel depth rest
        return (item :: items, rest)
      | _ => none

/-- The entries of an inline table behind its opening brace or a comma, added to `table`. -/
def pairs? (size : Nat) : (fuel depth : Nat) → Table → Text → Option (Table × Text)
  | 0, _, _, _ => none
  | fuel + 1, depth, table, t => do
    match ← skipGap false t with
    | '}' :: rest => return (table, rest)
    | t => do
      let (path, rest) ← keyPath? size t
      match ← skipGap false rest with
      | '=' :: rest =>
        let start ← skipGap false rest
        let (v, rest) ← value? size fuel depth start
        let table ← table.assign path (spanOf size start rest) v
        match ← skipGap false rest with
        | '}' :: rest => return (table, rest)
        | ',' :: rest => pairs? size fuel depth table rest
        | _ => none
      | _ => none

end

/-- A file as read so far: the whole table, and the header that entries belong to. -/
structure Reading where
  root : Table := ⟨.header, []⟩
  header : List Key := []

/-- Read a header, behind its opening bracket. -/
def header? (size : Nat) (r : Reading) (start : Text) : Option (Reading × Text) :=
  match start with
  | '[' :: '[' :: t => do
    match ← keyPath? size t with
    | (path, ']' :: ']' :: rest) =>
      return (⟨← r.root.append path (spanOf size start rest), path⟩, rest)
    | _ => none
  | '[' :: t => do
    match ← keyPath? size t with
    | (path, ']' :: rest) =>
      return (⟨← r.root.define path (spanOf size start rest), path⟩, rest)
    | _ => none
  | _ => none

/-- Read a key and its value, into the table of the last header. -/
def entry? (size : Nat) (r : Reading) (t : Text) : Option (Reading × Text) := do
  match ← keyPath? size t with
  | (path, '=' :: rest) =>
    let start := skipBlanks rest
    let (v, rest) ← value? size (2 * start.length + 2) maxDepth start
    let assigned ← r.root.at? false (Table.assign path (spanOf size start rest) v) r.header
    return ({ r with root := assigned }, rest)
  | _ => none

/-- Read headers and entries, one a line. `fuel` bounds the lines. -/
def lines? (size : Nat) : Nat → Reading → Text → Option Table
  | 0, _, _ => none
  | fuel + 1, r, t => do
    match ← skipGap false t with
    | [] => return r.root
    | '[' :: rest => do
      let (r, rest) ← header? size r ('[' :: rest)
      lines? size fuel r (← lineEnd? rest)
    | start => do
      let (r, rest) ← entry? size r start
      lines? size fuel r (← lineEnd? rest)

/-- The table of a file, if the file is well formed. A byte order mark at its start is passed
over. -/
def parse? (t : Text) : Option Table :=
  let body := if t.head? = some '\uFEFF' then t.tail else t
  lines? t.byteSize (t.length + 1) {} body

end Scaffold.Toml
