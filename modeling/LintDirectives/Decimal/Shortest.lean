import LintDirectives.Decimal.Binary64

/-!
# Shortest decimals

The decimal with the fewest digits that rounds to a given binary64 number, and
of those the nearest to it.

The reals that round to a number form an interval, whose ends belong to it when
the mantissa is even.  A decimal with few digits is a point of a coarse grid
`10 ^ k`.  The grids are tried from the coarsest to the finest; on each only the
two neighbours of the number can lie in the interval.
-/

namespace LintDirectives.Decimal

/-- The positive decimal `coefficient * 10 ^ power`. -/
structure Scaled where
  coefficient : Nat
  power : Int
deriving DecidableEq, Repr

namespace Binary64

/-- Twice the distances to the ends of the interval that rounds to `x`, below and above,
in quarters of the last place.  Below a power of two the neighbours lie closer. -/
def margins (x : Binary64) : Nat × Nat :=
  if x.mantissa = Nat.pow 2 52 && leastExponent < x.exponent then (1, 2) else (2, 2)

/-- The points of the grid `10 ^ power` next to the magnitude of `x` that round to it,
the nearer first. -/
def gridPoints (x : Binary64) (power : Int) : List Nat :=
  let (scale, quarter) := shifted 1 1 (x.exponent - 2)
  let ten := Nat.pow 10 power.natAbs
  let (unit, step) := if 0 ≤ power then (quarter, scale * ten) else (quarter * ten, scale)
  let (below, above) := x.margins
  let value := 4 * x.mantissa * unit
  let low := (4 * x.mantissa - below) * unit
  let high := (4 * x.mantissa + above) * unit
  let accepts := fun point =>
    if x.mantissa % 2 = 0 then low ≤ point && point ≤ high else low < point && point < high
  let floor := value / step
  let lowerFits := accepts (floor * step)
  let upperFits := accepts ((floor + 1) * step)
  let lowerFirst := value - floor * step ≤ (floor + 1) * step - value
  match lowerFits, upperFits with
  | true, true => if lowerFirst then [floor, floor + 1] else [floor + 1, floor]
  | true, false => [floor]
  | false, true => [floor + 1]
  | false, false => []

/-- The first grid point at or below `power` that rounds to `x`, looking at `grids` grids. -/
def firstGridPoint? (x : Binary64) (power : Int) : Nat → Option Scaled
  | 0 => none
  | grids + 1 =>
    match x.gridPoints power with
    | point :: _ => some ⟨point, power⟩
    | [] => x.firstGridPoint? (power - 1) grids

/-- The shortest decimal that rounds to the magnitude of `x`; `none` for zero. -/
def shortest? (x : Binary64) : Option Scaled :=
  if x.mantissa = 0 then none else x.firstGridPoint? 309 640

end Binary64

/-- How a number with a fraction is written: the decimal exponents from `least` to
`greatest` without an exponent, all others with one. -/
structure Style where
  least : Int
  greatest : Int

namespace Style

/-- The digits of a whole number. -/
def digits (n : Nat) : List Char :=
  (Nat.toDigits 10 n)

/-- Writes a positive decimal.  There is always a digit on both sides of the point; an
exponent carries its sign, and stands behind a single digit without a point. -/
def writeScaled (style : Style) (decimal : Scaled) : List Char :=
  let ds := digits decimal.coefficient
  let exponent : Int := (ds.length : Int) - 1 + decimal.power
  if style.least ≤ exponent && exponent ≤ style.greatest then
    if exponent < 0 then
      '0' :: '.' :: (List.replicate (exponent.natAbs - 1) '0' ++ ds)
    else
      let whole := exponent.natAbs + 1
      if ds.length ≤ whole then ds ++ List.replicate (whole - ds.length) '0' ++ ['.', '0']
      else ds.take whole ++ '.' :: ds.drop whole
  else
    let mantissa := match ds with
      | d :: e :: rest => d :: '.' :: e :: rest
      | short => short
    mantissa ++ 'e' :: (if exponent < 0 then '-' else '+') :: digits exponent.natAbs

/-- Writes a number. -/
def write (style : Style) (x : Binary64) : List Char :=
  let magnitude := match x.shortest? with
    | none => ['0', '.', '0']
    | some decimal => style.writeScaled decimal
  if x.negative then '-' :: magnitude else magnitude

end Style

end LintDirectives.Decimal
