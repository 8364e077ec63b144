import JniSignatures.Decimal.Binary64
/-!
# The shortest decimal of a floating-point number

A floating-point number stands for the interval of reals that round to it, with its ends if the
mantissa is even. `shortest` finds the decimal with the fewest digits in that interval, and the
nearest of those to the number. It searches the grids of one digit, two digits and so on; on each
grid only the two neighbours of the number need a test. `Layout.render` writes the digits out.
-/

namespace JniSignatures.Decimal

open Binary64 (twoTo tenTo)

/-- `digits * 10 ^ exponent`. -/
structure Numeral where
  digits : Nat
  exponent : Int
  deriving DecidableEq

/-- A positive number and the two ends of its interval, as numerators over one denominator. -/
structure Interval where
  low : Nat
  value : Nat
  high : Nat
  den : Nat
  closed : Bool

/-- The interval of `mantissa * 2 ^ exponent`. It is narrower below a power of two, where the numbers
beneath are closer together. -/
def intervalOf (mantissa : Nat) (exponent : Int) : Interval :=
  let narrow := mantissa = twoTo 52 ∧ Binary64.leastExponent < exponent
  let unit := twoTo exponent.toNat
  { low := (4 * mantissa - if narrow then 1 else 2) * unit
    value := 4 * mantissa * unit
    high := (4 * mantissa + 2) * unit
    den := 4 * twoTo (-exponent).toNat
    closed := mantissa % 2 == 0 }

namespace Interval

/-- Whether the decimal lies in the interval. -/
def contains (i : Interval) (d : Numeral) : Bool :=
  let x := d.digits * tenTo d.exponent.toNat * i.den
  let scale := tenTo (-d.exponent).toNat
  if i.closed then i.low * scale ≤ x && x ≤ i.high * scale
  else i.low * scale < x && x < i.high * scale

/-- The least power of ten above the number; the number is at least `10 ^ -330`. -/
def scale (i : Interval) : Int :=
  ((Nat.toDigits 10 (i.value * tenTo 330 / i.den)).length : Int) - 330

/-- The decimal of the interval on the grid of `size` digits that is nearest to the number. -/
def onGrid? (i : Interval) (size : Nat) : Option Numeral :=
  let exponent := i.scale - size
  let num := i.value * tenTo (-exponent).toNat
  let den := i.den * tenTo exponent.toNat
  let below : Numeral := ⟨num / den, exponent⟩
  let above : Numeral := ⟨num / den + 1, exponent⟩
  let nearer := if Binary64.roundDiv num den = num / den then below else above
  let other := if nearer = below then above else below
  if i.contains nearer then some nearer else if i.contains other then some other else none

/-- The decimal with the fewest digits in the interval. Seventeen digits always suffice. -/
def shortest (i : Interval) : Numeral :=
  ((List.range 17).findSome? fun k => i.onGrid? (k + 1)).getD ⟨i.value / i.den, 0⟩

end Interval

/-- How a decimal is laid out: numbers whose first digit has the weight `10 ^ e` with
`plainFrom ≤ e < plainBelow` are written with a point, all others with an exponent that has a sign
and at least `exponentDigits` digits. -/
structure Layout where
  plainFrom : Int
  plainBelow : Int
  exponentDigits : Nat

namespace Layout

/-- The significant digits `ds`, of which the first has the weight `10 ^ weight`, laid out. -/
def renderDigits (l : Layout) (ds : List Char) (weight : Int) : List Char :=
  if l.plainFrom ≤ weight ∧ weight < l.plainBelow then
    if weight < 0 then
      '0' :: '.' :: List.replicate (-weight - 1).toNat '0' ++ ds
    else
      let whole := weight.toNat + 1
      let fraction := ds.drop whole
      (ds.take whole).rightpad whole '0' ++ '.' :: (if fraction = [] then ['0'] else fraction)
  else
    let point := match ds with
      | [] => []
      | [d] => [d]
      | d :: rest => d :: '.' :: rest
    let size := (Nat.toDigits 10 weight.natAbs).leftpad l.exponentDigits '0'
    point ++ 'e' :: (if weight < 0 then '-' else '+') :: size

/-- The shortest text that identifies the number. -/
def render (l : Layout) : Binary64 → String
  | .nan => "nan"
  | .infinite negative => if negative then "-inf" else "inf"
  | .finite negative mantissa exponent =>
    let body :=
      if mantissa = 0 then "0.0".toList
      else
        let d := (intervalOf mantissa exponent).shortest
        let ds := Nat.toDigits 10 d.digits
        let weight := (ds.length : Int) + d.exponent - 1
        l.renderDigits (ds.reverse.dropWhile (· == '0')).reverse weight
    String.ofList (if negative then '-' :: body else body)

end Layout

end JniSignatures.Decimal
