/-! Texts as lists of characters: length in bytes, blank characters and trimming, splitting
and joining. Every text the library reads or writes has this type, so its laws are laws of
lists. -/

namespace Scaffold

/-- A text is the list of its characters. -/
abbrev Text := List Char

instance : Coe String Text := ⟨String.toList⟩

namespace Text

/-- Number of bytes of the UTF-8 form. -/
def byteSize : Text → Nat
  | [] => 0
  | c :: t => c.utf8Size + byteSize t

@[simp] theorem byteSize_append (s t : Text) : byteSize (s ++ t) = byteSize s + byteSize t := by
  induction s with
  | nil => simp [byteSize]
  | cons c s ih => simp [byteSize, ih, Nat.add_assoc]

/-! ### Blanks -/

/-- The characters with the Unicode property `White_Space`. -/
def isBlankChar (c : Char) : Bool :=
  let n := c.toNat
  (9 ≤ n && n ≤ 13) || n == 0x20 || n == 0x85 || n == 0xA0 || n == 0x1680 ||
    (0x2000 ≤ n && n ≤ 0x200A) || n == 0x2028 || n == 0x2029 || n == 0x202F || n == 0x205F ||
    n == 0x3000

/-- Drop the longest end whose characters all satisfy `p`. -/
def dropEndWhile (p : Char → Bool) (t : Text) : Text :=
  (t.reverse.dropWhile p).reverse

/-- Drop blanks at both ends. -/
def trim (t : Text) : Text :=
  dropEndWhile isBlankChar (t.dropWhile isBlankChar)

/-- A text of blanks only. -/
def isBlank (t : Text) : Bool :=
  t.all isBlankChar

/-! ### Splitting -/

/-- What follows `start`, if the text begins with it. -/
def stripPrefix? (start t : Text) : Option Text :=
  start.isPrefixOf? t

/-- The parts between the occurrences of `c`: always one more than there are occurrences. -/
def splitOn (c : Char) : Text → List Text
  | [] => [[]]
  | d :: t =>
    if d = c then [] :: splitOn c t
    else match splitOn c t with
      | [] => [[d]]
      | w :: ws => (d :: w) :: ws

/-- Both sides of the first `c`. -/
def splitOnce? (c : Char) : Text → Option (Text × Text)
  | [] => none
  | d :: t => if d = c then some ([], t) else (splitOnce? c t).map fun (a, b) => (d :: a, b)

/-- The texts with `separator` between neighbours. -/
def join (separator : Text) (ts : List Text) : Text :=
  separator.intercalate ts

/-! ### ASCII -/

/-- Lower-case the letters `A` to `Z` and keep everything else. -/
def asciiLower (t : Text) : Text :=
  t.map Char.toLower

/-- Decimal digits of a number. -/
def ofNat (n : Nat) : Text :=
  Nat.toDigits 10 n

/-- A text between single quotes, as messages show names and paths. -/
def quoted (t : Text) : Text :=
  "'" ++ t ++ "'"

/-- The grave accent that encloses names in messages about settings. -/
def grave : Char := '\x60'

/-- A text between grave accents. -/
def marked (t : Text) : Text :=
  grave :: t ++ [grave]

end Text
end Scaffold
