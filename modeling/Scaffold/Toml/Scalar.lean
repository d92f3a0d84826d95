import Scaffold.Toml.Value

/-! Values without quotes or brackets: booleans, numbers, dates and times. -/

namespace Scaffold.Toml.Scalar

/-- Digits in groups with single underscores between them; gives the digits alone. -/
def digits? (isDigit : Char → Bool) (t : Text) : Option Text :=
  let groups := Text.splitOn '_' t
  if groups.all fun g => !g.isEmpty && g.all isDigit then some groups.flatten else none

/-- The number written by digits of a base. -/
def ofDigits (base : Nat) (ds : Text) : Nat :=
  ds.foldl (fun n c =>
    base * n + if c.isDigit then c.toNat - 48 else c.toLower.toNat - 87) 0

/-- Take a sign off. -/
def splitSign : Text → Option Bool × Text
  | '+' :: t => (some false, t)
  | '-' :: t => (some true, t)
  | t => (none, t)

/-- A decimal number without needless zeros in front. -/
def whole? (t : Text) : Option Text := do
  let ds ← digits? Char.isDigit t
  if 1 < ds.length && ds.head? == some '0' then none else some ds

/-- An integer. A base mark excludes a sign. -/
def integer? (t : Text) : Option Int :=
  let based (base : Nat) (isDigit : Char → Bool) (t : Text) : Option Int :=
    (digits? isDigit t).map fun ds => (ofDigits base ds : Int)
  match t with
  | '0' :: 'x' :: t =>
    based 16 (fun c => c.isDigit || ('a' ≤ c.toLower && c.toLower ≤ 'f')) t
  | '0' :: 'o' :: t => based 8 (fun c => '0' ≤ c && c ≤ '7') t
  | '0' :: 'b' :: t => based 2 (fun c => c == '0' || c == '1') t
  | _ =>
    let (sign, t) := splitSign t
    (whole? t).map fun ds =>
      if sign = some true then -(ofDigits 10 ds : Int) else ofDigits 10 ds

/-- The number nearest to `digits * 10 ^ power`. -/
def nearest (negative : Bool) (digits : Nat) (power : Int) : Float :=
  if digits = 0 || power + (Text.ofNat digits).length < -400 then .finite negative ⟨0, -1074⟩
  else if 400 < power then .tooLarge
  else
    let (n, d) := Binary64.scale 10 digits 1 power
    match Binary64.nearest? n d with
    | some b => .finite negative b
    | none => .tooLarge

/-- The exponent behind an `e`. -/
def exponent? (t : Text) : Option Int :=
  let (sign, t) := splitSign t
  (digits? Char.isDigit t).map fun ds =>
    if sign = some true then -(ofDigits 10 ds : Int) else ofDigits 10 ds

/-- A number with a fraction, an exponent, or both; or one of the special words. -/
def float? (t : Text) : Option Float :=
  let (sign, t) := splitSign t
  let negative := sign = some true
  if t = ("inf" : Text) then some (.infinite negative)
  else if t = ("nan" : Text) then some .nan
  else do
    let lowered := t.map fun c => if c = 'E' then 'e' else c
    let (mantissa, power) ← match Text.splitOnce? 'e' lowered with
      | some (m, e) => (exponent? e).map fun p => (m, some p)
      | none => some (lowered, none)
    match Text.splitOnce? '.' mantissa with
    | some (a, b) =>
      let ds ← whole? a
      let fs ← digits? Char.isDigit b
      return nearest negative (ofDigits 10 (ds ++ fs)) (power.getD 0 - fs.length)
    | none =>
      let ds ← whole? mantissa
      return nearest negative (ofDigits 10 ds) (← power)

/-- A number of exactly so many digits, in the given bounds. -/
def field? (length low high : Nat) (t : Text) : Option Nat :=
  let n := ofDigits 10 t
  if t.length = length && t.all Char.isDigit && low ≤ n && n ≤ high then some n else none

/-- The days of a month. -/
def daysIn (year month : Nat) : Nat :=
  if month = 2 then
    if year % 4 = 0 && (year % 100 != 0 || year % 400 = 0) then 29 else 28
  else if month = 4 || month = 6 || month = 9 || month = 11 then 30 else 31

/-- Whether a text is a date of the calendar. -/
def isDate (t : Text) : Bool :=
  match Text.splitOn '-' t with
  | [y, m, d] =>
    match field? 4 0 9999 y, field? 2 1 12 m with
    | some year, some month => (field? 2 1 (daysIn year month) d).isSome
    | _, _ => false
  | _ => false

/-- Whether two texts are the hours and minutes of a day. -/
def isHourMinute (h m : Text) : Bool :=
  (field? 2 0 23 h).isSome && (field? 2 0 59 m).isSome

/-- Whether a text is a number of seconds, with or without a fraction. -/
def isSecond (t : Text) : Bool :=
  match Text.splitOnce? '.' t with
  | some (s, fraction) => (field? 2 0 60 s).isSome && !fraction.isEmpty && fraction.all Char.isDigit
  | none => (field? 2 0 60 t).isSome

/-- Whether a text is a time of day; the seconds may be left out. -/
def isTime (t : Text) : Bool :=
  match Text.splitOn ':' t with
  | [h, m] => isHourMinute h m
  | [h, m, s] => isHourMinute h m && isSecond s
  | _ => false

/-- Whether a text is a distance from universal time. -/
def isOffset (t : Text) : Bool :=
  match Text.splitOn ':' t with
  | [h, m] => isHourMinute h m
  | _ => false

/-- Whether a text is a time of day that may be followed by a distance from universal time. -/
def isTimeWithOffset (t : Text) : Bool :=
  isTime t ||
    match t.getLast? with
    | some 'Z' | some 'z' => isTime t.dropLast
    | _ =>
      let time := t.takeWhile fun c => c != '+' && c != '-'
      isTime time && isOffset (t.drop (time.length + 1))

/-- Whether a text is a date, a time, or both. -/
def isMoment (t : Text) : Bool :=
  isDate t || isTime t ||
    (isDate (t.take 10) && (t[10]?.any fun c => c == 'T' || c == 't' || c == ' ') &&
      isTimeWithOffset (t.drop 11))

/-- The value written by a word. -/
def ofText? (t : Text) : Option Value :=
  if t = ("true" : Text) then some (.boolean true)
  else if t = ("false" : Text) then some (.boolean false)
  else match integer? t with
    | some n => some (.integer n)
    | none => match float? t with
      | some x => some (.float x)
      | none => if isMoment t then some .moment else none

/-- The characters of a word. -/
def isWordChar (c : Char) : Bool :=
  c.isAlphanum || c == '+' || c == '-' || c == '_' || c == '.' || c == ':'

/-- The first word of a text and what follows it. A blank between a date and a time belongs to
the word. -/
def word (t : Text) : Text × Text :=
  let w := t.takeWhile isWordChar
  let rest := t.dropWhile isWordChar
  match rest with
  | ' ' :: c :: _ =>
    if isDate w && c.isDigit then
      (w ++ ' ' :: rest.tail.takeWhile isWordChar, rest.tail.dropWhile isWordChar)
    else (w, rest)
  | _ => (w, rest)

end Scaffold.Toml.Scalar
