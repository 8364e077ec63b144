/-!
# Binary floating-point numbers of 64 bits

A number is kept as what it means: a sign, a natural `mantissa` and a power of two. The form is
unique, with a mantissa below `2 ^ 53` that is at least `2 ^ 52` unless the exponent is the least one.
`Binary64.ofDecimal` rounds a decimal to the nearest such number, a tie to the even mantissa, by
exact arithmetic on naturals; what is too large becomes infinite. Numbers are compared by value:
the two zeros are equal, and a number that is not one equals nothing.
-/

namespace JniSignatures.Decimal

/-- A floating-point number of 64 bits. -/
inductive Binary64 where
  | nan
  | infinite (negative : Bool)
  /-- The number `mantissa * 2 ^ exponent`, below zero if `negative`. -/
  | finite (negative : Bool) (mantissa : Nat) (exponent : Int)
  deriving DecidableEq

namespace Binary64

/-- A power of two. -/
def twoTo (n : Nat) : Nat := Nat.pow 2 n

/-- A power of ten. -/
def tenTo (n : Nat) : Nat := Nat.pow 10 n

def leastExponent : Int := -1074

def greatestExponent : Int := 971

/-- The quotient rounded to a natural, a tie to the even one. -/
def roundDiv (num den : Nat) : Nat :=
  let low := num / den
  let twice := 2 * (num % den)
  if twice < den ∨ (twice = den ∧ low % 2 = 0) then low else low + 1

/-- `num / den` divided by `2 ^ exponent`, as a quotient of naturals. -/
def scaled (num den : Nat) (exponent : Int) : Nat × Nat :=
  if 0 ≤ exponent then (num, den * twoTo exponent.toNat) else (num * twoTo (-exponent).toNat, den)

/-- The least exponent, from the first allowed one on, for which `num / den` has a mantissa below
`2 ^ 53` before rounding. The binary logarithm of the quotient is known up to one. -/
def exponentFor (num den : Nat) : Int :=
  let guess : Int := (num.log2 : Int) - den.log2 - 53
  let (n, d) := scaled num den guess
  max leastExponent (if n / d < twoTo 53 then guess else guess + 1)

/-- The number nearest to `num / den`. -/
def ofQuotient (negative : Bool) (num den : Nat) : Binary64 :=
  let exponent := exponentFor num den
  let (n, d) := scaled num den exponent
  let mantissa := roundDiv n d
  let (mantissa, exponent) :=
    if mantissa = twoTo 53 then (twoTo 52, exponent + 1) else (mantissa, exponent)
  if exponent > greatestExponent then .infinite negative else .finite negative mantissa exponent

/-- The number nearest to `digits * 10 ^ exponent`. Magnitudes far outside the range are settled by
their number of digits, so that no huge power is formed. -/
def ofDecimal (negative : Bool) (digits : Nat) (exponent : Int) : Binary64 :=
  let magnitude : Int := ((Nat.toDigits 10 digits).length : Int) + exponent
  if digits = 0 ∨ magnitude < -330 then .finite negative 0 leastExponent
  else if magnitude > 310 then .infinite negative
  else if 0 ≤ exponent then ofQuotient negative (digits * tenTo exponent.toNat) 1
  else ofQuotient negative digits (tenTo (-exponent).toNat)

/-- The mantissa with the sign of the number. -/
def signed (negative : Bool) (mantissa : Nat) : Int :=
  if negative then -(mantissa : Int) else mantissa

/-- Equality of values. -/
def agrees : Binary64 → Binary64 → Bool
  | .infinite a, .infinite b => a == b
  | .finite a m q, .finite b n p => signed a m == signed b n && (m == 0 || q == p)
  | _, _ => false

/-- Whether the number has the value of the integer. -/
def agreesInt : Binary64 → Int → Bool
  | .finite negative m q, n =>
    if 0 ≤ q then signed negative m * (twoTo q.toNat : Int) == n
    else signed negative m == n * (twoTo (-q).toNat : Int)
  | _, _ => false

/-- Whether the number is a zero of either sign. -/
def isZero : Binary64 → Bool
  | .finite _ m _ => m == 0
  | _ => false

end Binary64

end JniSignatures.Decimal
