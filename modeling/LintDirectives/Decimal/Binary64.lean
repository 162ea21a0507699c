/-!
# Double precision numbers

The finite numbers of the binary64 format, as exact integers: a number is
`mantissa * 2 ^ exponent` with a sign.  Products and quotients are taken exactly
and rounded once, to the nearest number, a tie to the even mantissa.

Mantissas are below `2 ^ 53` and exponents run from `-1074` to `971`.  A result
beyond the largest number is `none`.
-/

namespace LintDirectives.Decimal

/-- A finite number of the binary64 format. -/
structure Binary64 where
  negative : Bool
  mantissa : Nat
  exponent : Int
deriving DecidableEq, Repr

namespace Binary64

/-- The exponent of the smallest numbers. -/
def leastExponent : Int := -1074

/-- The exponent of the largest numbers. -/
def greatestExponent : Int := 971

/-- Zero with a sign. -/
def zero (negative : Bool) : Binary64 :=
  ⟨negative, 0, leastExponent⟩

/-- `numerator / denominator / 2 ^ exponent` as a fraction. -/
def shifted (numerator denominator : Nat) (exponent : Int) : Nat × Nat :=
  match exponent with
  | .ofNat n => (numerator, denominator * Nat.pow 2 n)
  | .negSucc n => (numerator * Nat.pow 2 (n + 1), denominator)

/-- The greatest `k` with `2 ^ k ≤ numerator / denominator`, for a positive fraction. -/
def floorLog2 (numerator denominator : Nat) : Int :=
  let guess : Int := (numerator.log2 : Int) - (denominator.log2 : Int)
  let (n, d) := shifted numerator denominator guess
  if n < d then guess - 1 else guess

/-- The whole number nearest to `numerator / denominator`, of two the even one. -/
def nearest (numerator denominator : Nat) : Nat :=
  let quotient := numerator / denominator
  let twice := 2 * (numerator % denominator)
  if denominator < twice || (denominator == twice && quotient % 2 == 1) then quotient + 1
  else quotient

/-- The mantissa and exponent nearest to the positive fraction `numerator / denominator`. -/
def roundFraction (numerator denominator : Nat) : Nat × Int :=
  let exponent := max (floorLog2 numerator denominator - 52) leastExponent
  let (n, d) := shifted numerator denominator exponent
  let mantissa := nearest n d
  if mantissa = Nat.pow 2 53 then (Nat.pow 2 52, exponent + 1) else (mantissa, exponent)

/-- The number nearest to `numerator / denominator`, unless it is too large. -/
def ofFraction? (negative : Bool) (numerator denominator : Nat) : Option Binary64 :=
  if numerator = 0 then some (zero negative)
  else
    let (mantissa, exponent) := roundFraction numerator denominator
    if greatestExponent < exponent then none else some ⟨negative, mantissa, exponent⟩

/-- The number nearest to a whole number, unless it is too large. -/
def ofNat? (n : Nat) : Option Binary64 :=
  ofFraction? false n 1

/-- The product of two numbers, unless it is too large. -/
def mul? (x y : Binary64) : Option Binary64 :=
  let (d, n) := shifted 1 (x.mantissa * y.mantissa) (x.exponent + y.exponent)
  ofFraction? (x.negative != y.negative) n d

/-- The quotient of a number by one that is not zero, unless it is too large. -/
def div? (x y : Binary64) : Option Binary64 :=
  let (d, n) := shifted y.mantissa x.mantissa (x.exponent - y.exponent)
  ofFraction? (x.negative != y.negative) n d

/-- The number with the other sign. -/
def neg (x : Binary64) : Binary64 :=
  { x with negative := !x.negative }

end Binary64

end LintDirectives.Decimal
