import LintDirectives.Decimal.Shortest

/-!
# JSON numbers

A number without a fraction and an exponent that fits 64 bits is kept as an
integer; every other number is a binary64 number.

The conversion to binary64 keeps as many leading digits as fit 64 bits, rounds
them, and then rounds once more when it applies the power of ten.  The result is
therefore not always the nearest number to the text.  Digits of the fraction
beyond 64 bits are ignored; those before the point count as a power of ten.
-/

namespace LintDirectives.Json

open Decimal

/-- A number as it is kept. -/
inductive Number where
  | integer (value : Int)
  | float (value : Binary64)
deriving DecidableEq, Repr

/-- The characters of a number, already split. -/
structure NumberText where
  negative : Bool
  /-- The digits before the point. -/
  whole : List Char
  /-- The digits after the point; `none` without a point. -/
  fraction : Option (List Char)
  /-- The sign of the exponent and its digits; `none` without an exponent. -/
  exponent : Option (Bool × List Char)
deriving DecidableEq, Repr

namespace NumberText

/-- The value of a decimal digit. -/
def digit (c : Char) : Nat :=
  c.toNat - '0'.toNat

/-- The value of a run of digits. -/
def natural (ds : List Char) : Nat :=
  ds.foldl (fun n d => 10 * n + digit d) 0

/-- The greatest whole number of 64 bits. -/
def limit : Nat := Nat.pow 2 64 - 1

/-- Appends digits to `significand` while the result fits 64 bits, and returns the
digits that are left. -/
def accumulate (significand : Nat) : List Char → Nat × List Char
  | [] => (significand, [])
  | d :: ds =>
    let next := 10 * significand + digit d
    if next ≤ limit then accumulate next ds else (significand, d :: ds)

/-- The power of ten `10 ^ n` for `n ≤ 308`, rounded. -/
def tenTo (n : Nat) : Binary64 :=
  (Binary64.ofNat? (Nat.pow 10 n)).getD (.zero false)

/-- `x * 10 ^ exponent` for a magnitude `x`, unless it is too large.  The power is
applied in steps of at most `10 ^ 308`. -/
def applyPower (x : Binary64) (exponent : Int) : Option Binary64 :=
  if exponent.natAbs ≤ 308 then
    if 0 ≤ exponent then x.mul? (tenTo exponent.natAbs) else x.div? (tenTo exponent.natAbs)
  else if x.mantissa = 0 then some x
  else if 0 ≤ exponent then none
  else (x.div? (tenTo 308)).bind fun y => applyPower y (exponent + 308)
termination_by exponent.natAbs
decreasing_by omega

/-- The greatest exponent that is read as it stands. -/
def exponentLimit : Nat := Nat.pow 2 31 - 1

/-- The binary64 number `significand * 10 ^ power`, further scaled by a written exponent. -/
def scaled (significand : Nat) (power : Int) (exponent : Option (Bool × List Char)) :
    Option Binary64 :=
  match exponent with
  | none => (Binary64.ofNat? significand).bind fun x => applyPower x power
  | some (negative, ds) =>
    let written := natural ds
    if exponentLimit < written then
      if significand = 0 || negative then some (.zero false) else none
    else
      let total : Int := if negative then power - written else power + written
      (Binary64.ofNat? significand).bind fun x => applyPower x total

/-- The magnitude of a number as binary64. -/
def magnitude? (text : NumberText) : Option Binary64 :=
  let (whole, beyond) := accumulate 0 text.whole
  let fraction := text.fraction.getD []
  let (significand, ignored) := accumulate whole fraction
  let power : Int := (beyond.length : Int) - ((fraction.length - ignored.length : Nat) : Int)
  scaled significand power text.exponent

/-- The number as binary64, unless it is too large. -/
def float? (text : NumberText) : Option Binary64 :=
  text.magnitude?.map fun x => if text.negative then x.neg else x

/-- The number.  An integer is kept exactly when it fits 64 bits, a negative one when it
is at least `-2 ^ 63`; negative zero is not an integer. -/
def number? (text : NumberText) : Option Number :=
  let integral := text.fraction.isNone && text.exponent.isNone
  let n := natural text.whole
  if integral && !text.negative && n ≤ limit then some (.integer n)
  else if integral && text.negative && 0 < n && n ≤ Nat.pow 2 63 then some (.integer (-(n : Int)))
  else text.float?.map .float

end NumberText

namespace Number

/-- Decimal exponents from -5 to 15 are written without an exponent. -/
def style : Decimal.Style := ⟨-5, 15⟩

/-- Writes an integer. -/
def writeInt : Int → List Char
  | .ofNat n => Decimal.Style.digits n
  | .negSucc n => '-' :: Decimal.Style.digits (n + 1)

/-- Writes a number. -/
def write : Number → List Char
  | .integer value => writeInt value
  | .float value => style.write value

end Number

end LintDirectives.Json
