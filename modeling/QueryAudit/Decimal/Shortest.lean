import QueryAudit.Decimal.Binary64

/-! Shortest decimals. Every binary number has an interval of reals that round to it, its ends
included when the significand is even. The shortest decimal is the one with the fewest digits
in that interval; of two with equally many digits the nearer, and of two equally near the one
with the even last digit. -/
namespace QueryAudit

/-- The decimal `digits * 10 ^ exponent`. -/
structure Decimal where
  digits : Nat
  exponent : Int
  deriving DecidableEq

namespace Decimal

/-- Drops zeros at the end of the digits. -/
def trim (decimal : Decimal) : Decimal :=
  if decimal.digits ≠ 0 ∧ decimal.digits % 10 = 0 then
    trim ⟨decimal.digits / 10, decimal.exponent + 1⟩
  else decimal
termination_by decimal.digits
decreasing_by omega

/-- Whether a decimal rounds to the given number. -/
def roundsTo (number : Binary64) (decimal : Decimal) : Bool :=
  -- Quarter units of the last binary place; just above a power of two the lower gap is half as wide.
  let below :=
    if number.significand = 1 <<< 52 ∧ Binary64.leastExponent < number.exponent then 1 else 2
  let (unitTop, unitBottom) := Binary64.powerRatio 2 (number.exponent - 2)
  let (tenTop, tenBottom) := Binary64.powerRatio 10 decimal.exponent
  let low := (4 * number.significand - below) * unitTop * tenBottom
  let high := (4 * number.significand + 2) * unitTop * tenBottom
  let value := decimal.digits * tenTop * unitBottom
  if number.significand % 2 = 0 then low ≤ value && value ≤ high
  else low < value && value < high

/-- Exponent of the leading decimal digit of a number other than zero. -/
def magnitude (number : Binary64) : Int :=
  let (top, bottom) := number.ratio
  let shift : Nat := 400
  ((Nat.toDigits 10 (top * Nat.pow 10 shift / bottom)).length : Int) - 1 - shift

/-- The better of the number's two neighbours among decimals of `count` digits. -/
def neighbour? (number : Binary64) (count : Nat) : Option Decimal :=
  let exponent := magnitude number + 1 - count
  let (top, bottom) := number.ratio
  let (tenTop, tenBottom) := Binary64.powerRatio 10 exponent
  let top := top * tenBottom
  let bottom := bottom * tenTop
  let floor := top / bottom
  let lower : Decimal := ⟨floor, exponent⟩
  let upper : Decimal := ⟨floor + 1, exponent⟩
  match roundsTo number lower, roundsTo number upper with
  | true, true => some ⟨Binary64.roundQuotient top bottom, exponent⟩
  | true, false => some lower
  | false, true => some upper
  | false, false => none

/-- The shortest decimal that reads back as the number; seventeen digits always suffice. -/
def shortest (number : Binary64) : Decimal :=
  if number.isZero then ⟨0, 0⟩
  else
    match (List.range 17).findSome? fun count => neighbour? number (count + 1) with
    | some decimal => decimal.trim
    | none => ⟨0, 0⟩

end Decimal
end QueryAudit
