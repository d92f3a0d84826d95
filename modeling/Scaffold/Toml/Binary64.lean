import Scaffold.Text.Basic

/-! Floating-point numbers of 64 bits as exact values: the number nearest to a fraction, and the
shortest decimal that is nearest to no other number. -/

namespace Scaffold

/-- The number `mantissa * 2 ^ exponent`. -/
structure Binary64 where
  mantissa : Nat
  exponent : Int
  deriving DecidableEq, Repr

namespace Binary64

/-- The fraction `n / d` times a power of the base. -/
def scale (base : Nat) (n d : Nat) (power : Int) : Nat × Nat :=
  if 0 ≤ power then (n * base.pow power.toNat, d) else (n, d * base.pow (-power).toNat)

/-- The whole number nearest to `n / d`; of two equally near ones the even one. -/
def roundHalfEven (n d : Nat) : Nat :=
  let q := n / d
  let r := n % d
  if 2 * r < d then q else if d < 2 * r then q + 1 else q + q % 2

/-- The exponent of the highest binary digit of a fraction that is not zero. -/
def log2 (n d : Nat) : Int :=
  let k : Int := (Nat.log2 n : Int) - Nat.log2 d
  let (n', d') := scale 2 n d (-k)
  if d' ≤ n' then k else k - 1

/-- The number nearest to `n / d`, if there is a finite one. -/
def nearest? (n d : Nat) : Option Binary64 :=
  if n = 0 then some ⟨0, -1074⟩
  else
    let q := max (log2 n d - 52) (-1074)
    let (n', d') := scale 2 n d (-q)
    let m := roundHalfEven n' d'
    let b : Binary64 := if m = Nat.pow 2 53 then ⟨Nat.pow 2 52, q + 1⟩ else ⟨m, q⟩
    if 971 < b.exponent then none else some b

/-- The exponent of the first decimal digit of a fraction that is not zero. -/
def log10 (n d : Nat) : Int :=
  if d ≤ n then (Nat.toDigits 10 (n / d)).length - 1
  else
    match (List.range 400).find? fun j => d ≤ n * Nat.pow 10 (j + 1) with
    | some j => -(j + 1 : Int)
    | none => -400

/-- Whether the fraction `n / d` rounds to the number. -/
def isNearestTo (b : Binary64) (n d : Nat) : Bool :=
  let narrow := b.mantissa == Nat.pow 2 52 && b.exponent != -1074
  let (ln, ld) := scale 2 (4 * b.mantissa - if narrow then 1 else 2) 4 b.exponent
  let (hn, hd) := scale 2 (4 * b.mantissa + 2) 4 b.exponent
  if b.mantissa % 2 = 0 then ln * d ≤ n * ld && n * hd ≤ hn * d
  else ln * d < n * ld && n * hd < hn * d

/-- A decimal with as many digits as asked for that rounds to the number: the nearer of the two
neighbours of the number on that grid, or the larger one if they are equally near. -/
def decimal? (b : Binary64) (digits : Nat) : Option (Nat × Int) :=
  let (n, d) := scale 2 b.mantissa 1 b.exponent
  let power := log10 n d - (digits : Int) + 1
  let (n', d') := scale 10 n d (-power)
  let low := n' / d'
  let hits (c : Nat) : Bool :=
    let (cn, cd) := scale 10 c 1 power
    isNearestTo b cn cd
  if hits low && (!hits (low + 1) || 2 * (n' % d') < d') then some (low, power)
  else if hits (low + 1) then some (low + 1, power)
  else none

/-- The decimal `fst * 10 ^ snd` with the fewest digits that rounds to the number. A single digit
may have been rounded up to ten, which is one of the next power. -/
def shortest (b : Binary64) : Nat × Int :=
  if b.mantissa = 0 then (0, 0)
  else match (List.range 17).findSome? fun k => decimal? b (k + 1) with
    | some (10, power) => (1, power + 1)
    | some decimal => decimal
    | none => (0, 0)

/-- All digits of a decimal, with at least one behind the point. -/
def positional : Nat × Int → Text
  | (c, power) =>
    let ds := Text.ofNat c
    if 0 ≤ power then ds ++ List.replicate power.toNat '0' ++ ".0"
    else
      let places := (-power).toNat
      let ds := List.replicate (places + 1 - ds.length) '0' ++ ds
      ds.take (ds.length - places) ++ '.' :: ds.drop (ds.length - places)

end Binary64
end Scaffold
