import FuzzCampaign.Text.Numeral

/-!
# Shortest decimal text of a binary number

A double-precision number stands for an interval of reals, those that round to it. Its text has the
fewest decimal digits of a point in that interval, and of the points with so few digits the nearest
to the number, of two equally near the even one.

* `Shortest.Interval`: a number with its interval; `Interval.ofBinary`;
* `Interval.shortest`: the digits and the power of ten of the last;
* `floatText`: positional where the first digit stands for `10 ^ -5` to `10 ^ 15`, otherwise with an
  exponent that has a sign and at least two digits.
-/

namespace FuzzCampaign

namespace Shortest

/-- A positive number and the ends of the interval that rounds to it, as multiples of `1 / den`. -/
structure Interval where
  low : Nat
  value : Nat
  high : Nat
  den : Nat
  closed : Bool

/-- The interval of `mantissa * 2 ^ exponent`; below a power of two the grid is twice as fine. -/
def Interval.ofBinary (mantissa : Nat) (exponent : Int) (finer : Bool) : Interval :=
  let scale := Nat.pow 2 exponent.toNat
  ⟨(4 * mantissa - (if finer then 1 else 2)) * scale, 4 * mantissa * scale,
    (4 * mantissa + 2) * scale, 4 * Nat.pow 2 (-exponent).toNat, mantissa % 2 = 0⟩

/-- Whether `num / den'` lies in the interval. -/
def Interval.has (i : Interval) (num den' : Nat) : Bool :=
  let x := num * i.den
  if i.closed then i.low * den' ≤ x && x ≤ i.high * den'
  else i.low * den' < x && x < i.high * den'

/-- The least power of ten above `num / den`, tried from `e` on. -/
def magnitudeFrom (num den : Nat) : Nat → Int → Int
  | 0, e => e
  | fuel + 1, e =>
    if num * Nat.pow 10 (-e).toNat < den * Nat.pow 10 e.toNat then e
    else magnitudeFrom num den fuel (e + 1)

/-- The point of the interval on the grid of `10 ^ e`, the nearest to its value; of two equally near
the even one. -/
def Interval.onGrid? (i : Interval) (e : Int) : Option Nat :=
  let up := Nat.pow 10 (-e).toNat
  let down := Nat.pow 10 e.toNat
  let below := i.value * up / (i.den * down)
  let inside (n : Nat) : Bool := i.has (n * down) up
  let distanceBelow := i.value * up - below * (i.den * down)
  let distanceAbove := (below + 1) * (i.den * down) - i.value * up
  let isNearer := distanceBelow < distanceAbove || (distanceBelow = distanceAbove && below % 2 = 0)
  if inside below && (isNearer || !inside (below + 1)) then some below
  else if inside (below + 1) then some (below + 1)
  else none

/-- The first grid with a point, from `digits` digits on, for a value below `10 ^ magnitude`. -/
def Interval.shortestFrom (i : Interval) (magnitude : Int) : Nat → Nat → Nat × Int
  | 0, digits => (0, magnitude - digits)
  | fuel + 1, digits =>
    match i.onGrid? (magnitude - digits) with
    | some n => (n, magnitude - digits)
    | none => i.shortestFrom magnitude fuel (digits + 1)

/-- The fewest digits of a point in the interval, and the power of ten of the last. -/
def Interval.shortest (i : Interval) : Nat × Int :=
  i.shortestFrom (magnitudeFrom i.value i.den 700 (-330)) 17 1

end Shortest

/-- Digits without the zeros at their end. -/
def trimZeros (cs : List Char) : List Char := (cs.reverse.dropWhile (· = '0')).reverse

/-- The text of a number with the digits `digits`, the first of which stands for `10 ^ exponent`. -/
def scientificText (digits : List Char) (exponent : Int) : List Char :=
  if -5 ≤ exponent ∧ exponent ≤ 15 then
    if exponent < 0 then
      ['0', '.'] ++ List.replicate (-exponent - 1).toNat '0' ++ digits
    else
      let whole := exponent.toNat + 1
      let fraction := digits.drop whole
      digits.take whole ++ List.replicate (whole - digits.length) '0' ++ ['.'] ++
        (if fraction = [] then ['0'] else fraction)
  else
    let size := Numeral.decimal exponent.natAbs
    digits.take 1 ++ (if digits.length ≤ 1 then [] else '.' :: digits.drop 1) ++
      ['e', if exponent < 0 then '-' else '+'] ++ List.replicate (2 - size.length) '0' ++ size

/-- The text of the double-precision number with the given bits; it must be finite. -/
def floatText (bits : UInt64) : List Char :=
  let n := bits.toNat
  let sign := if n / Nat.pow 2 63 = 1 then ['-'] else []
  let field := n / Nat.pow 2 52 % Nat.pow 2 11
  let fraction := n % Nat.pow 2 52
  if field = 0 ∧ fraction = 0 then sign ++ ['0', '.', '0']
  else
    let mantissa := if field = 0 then fraction else Nat.pow 2 52 + fraction
    let exponent : Int := (max field 1 : Nat) - 1075
    let interval := Shortest.Interval.ofBinary mantissa exponent (fraction = 0 && 1 < field)
    let (value, last) := interval.shortest
    let digits := Numeral.decimal value
    sign ++ scientificText (trimZeros digits) (last + digits.length - 1)

end FuzzCampaign
