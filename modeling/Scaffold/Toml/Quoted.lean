import Scaffold.Text.Basic

/-! The four kinds of quoted strings of a settings file. Every reader takes the text behind the
opening quotes, and gives the contents and what follows the closing quotes. -/

namespace Scaffold.Toml.Quoted

/-- Characters that may stand in strings and comments as they are. -/
def isPlain (c : Char) : Bool :=
  c == '\t' || (0x20 ≤ c.toNat && c.toNat != 0x7F)

/-- The number written by hexadecimal digits. -/
def hex? (ds : Text) : Option Nat :=
  ds.foldlM (fun n c =>
    if c.isDigit then some (16 * n + (c.toNat - 48))
    else if 'a' ≤ c && c ≤ 'f' then some (16 * n + (c.toNat - 87))
    else if 'A' ≤ c && c ≤ 'F' then some (16 * n + (c.toNat - 55))
    else none) 0

/-- The character with the code point written by hexadecimal digits. -/
def charOfHex? (ds : Text) : Option Char := do
  let n ← hex? ds
  if n.isValidChar then some (Char.ofNat n) else none

/-- The character behind a backslash, if it is a single one. -/
def escape? : Char → Option Char
  | 'b' => some '\x08'
  | 'e' => some '\x1b'
  | 't' => some '\t'
  | 'n' => some '\n'
  | 'f' => some '\x0c'
  | 'r' => some '\r'
  | '"' => some '"'
  | '\\' => some '\\'
  | _ => none

/-- Put a character before the contents read. -/
def cons? (c : Option Char) (r : Option (Text × Text)) : Option (Text × Text) := do
  let (s, rest) ← r
  return ((← c) :: s, rest)

/-- A string between double quotes on one line. -/
def basic : Text → Option (Text × Text)
  | '"' :: t => some ([], t)
  | '\\' :: 'x' :: a :: b :: t => cons? (charOfHex? [a, b]) (basic t)
  | '\\' :: 'u' :: a :: b :: c :: d :: t => cons? (charOfHex? [a, b, c, d]) (basic t)
  | '\\' :: 'U' :: a :: b :: c :: d :: e :: f :: g :: h :: t =>
    cons? (charOfHex? [a, b, c, d, e, f, g, h]) (basic t)
  | '\\' :: c :: t => cons? (escape? c) (basic t)
  | c :: t => if isPlain c then cons? (some c) (basic t) else none
  | [] => none

/-- A string between single quotes on one line; nothing is escaped. -/
def literal : Text → Option (Text × Text)
  | '\'' :: t => some ([], t)
  | c :: t => if isPlain c then cons? (some c) (literal t) else none
  | [] => none

/-- The end of a string over several lines: three quotes, with up to two more before them that
belong to the string. -/
def closing? (q : Char) (t : Text) : Option (Text × Text) :=
  let n := (t.takeWhile (· = q)).length
  if n < 3 then none
  else
    let inner := min (n - 3) 2
    some (List.replicate inner q, t.drop (inner + 3))

/-- Whether only blanks stand before the next line feed. -/
def lineEndsHere (t : Text) : Bool :=
  match t.dropWhile fun c => c == ' ' || c == '\t' with
  | '\n' :: _ => true
  | '\r' :: '\n' :: _ => true
  | _ => false

/-- A string over several lines. Behind a backslash at the end of a line, `skipping` passes over
blanks and line feeds. A carriage return must stand before a line feed. -/
def basicLines (skipping : Bool) : Text → Option (Text × Text)
  | [] => none
  | c :: t =>
    if skipping && (c == ' ' || c == '\t' || c == '\n' || (c == '\r' && t.head? == some '\n')) then
      basicLines true t
    else if c = '"' then
      match closing? '"' (c :: t) with
      | some end_ => some end_
      | none => cons? (some c) (basicLines false t)
    else if c = '\\' then
      if lineEndsHere t then basicLines true t
      else match t with
        | 'x' :: a :: b :: t => cons? (charOfHex? [a, b]) (basicLines false t)
        | 'u' :: a :: b :: d :: e :: t => cons? (charOfHex? [a, b, d, e]) (basicLines false t)
        | 'U' :: a :: b :: d :: e :: f :: g :: h :: i :: t =>
          cons? (charOfHex? [a, b, d, e, f, g, h, i]) (basicLines false t)
        | d :: t => cons? (escape? d) (basicLines false t)
        | [] => none
    else if isPlain c || c == '\n' || (c == '\r' && t.head? == some '\n') then
      cons? (some c) (basicLines false t)
    else none

/-- A string over several lines in which nothing is escaped. -/
def literalLines : Text → Option (Text × Text)
  | [] => none
  | c :: t =>
    if c = '\'' then
      match closing? '\'' (c :: t) with
      | some end_ => some end_
      | none => cons? (some c) (literalLines t)
    else if isPlain c || c == '\n' || (c == '\r' && t.head? == some '\n') then
      cons? (some c) (literalLines t)
    else none

/-- Drop the line feed that directly follows three opening quotes. -/
def dropFirstNewline : Text → Text
  | '\n' :: t => t
  | '\r' :: '\n' :: t => t
  | t => t

/-- A string of any kind. -/
def string : Text → Option (Text × Text)
  | '"' :: '"' :: '"' :: t => basicLines false (dropFirstNewline t)
  | '"' :: t => basic t
  | '\'' :: '\'' :: '\'' :: t => literalLines (dropFirstNewline t)
  | '\'' :: t => literal t
  | _ => none

end Scaffold.Toml.Quoted
