/-! Binary floating point with 53 significant bits, in exact arithmetic. A number is a
significand times a power of two; every operation computes the exact quotient first and rounds
it once, to the nearest representable number and a tie to the even one. -/
namespace QueryAudit

/-- The nonnegative number `significand * 2 ^ exponent`. -/
structure Binary64 where
  significand : Nat
  exponent : Int
  deriving DecidableEq

namespace Binary64

/-- The smallest exponent, that of the numbers next to zero. -/
def leastExponent : Int := -1074

/-- The largest exponent of a finite number. -/
def greatestExponent : Int := 971

def zero : Binary64 := ⟨0, leastExponent⟩

def isZero (number : Binary64) : Bool :=
  number.significand == 0

/-- `base ^ exponent` as a numerator and a denominator. -/
def powerRatio (base : Nat) (exponent : Int) : Nat × Nat :=
  if exponent < 0 then (1, base.pow exponent.natAbs) else (base.pow exponent.natAbs, 1)

/-- The number as a numerator and a denominator. -/
def ratio (number : Binary64) : Nat × Nat :=
  let (above, below) := powerRatio 2 number.exponent
  (number.significand * above, below)

/-- The integer nearest to a quotient, the even one of two. -/
def roundQuotient (numerator denominator : Nat) : Nat :=
  let quotient := numerator / denominator
  let remainder := numerator % denominator
  if 2 * remainder < denominator then quotient
  else if denominator < 2 * remainder then quotient + 1
  else quotient + quotient % 2

/-- The representable number nearest to a quotient; `none` beyond the finite range. -/
def ofRatio? (numerator denominator : Nat) : Option Binary64 :=
  -- The quotient has 53 or 54 binary digits before the point at this exponent.
  let guess : Int := (numerator.log2 : Int) - denominator.log2 - 53
  let coarse := max leastExponent guess
  let scaled (exponent : Int) : Nat × Nat :=
    let (above, below) := powerRatio 2 exponent
    (numerator * below, denominator * above)
  let (top, bottom) := scaled coarse
  let exponent := if top / bottom < 1 <<< 53 then coarse else coarse + 1
  let (top, bottom) := scaled exponent
  let rounded := roundQuotient top bottom
  let number : Binary64 :=
    if rounded < 1 <<< 53 then ⟨rounded, exponent⟩ else ⟨1 <<< 52, exponent + 1⟩
  if number.exponent ≤ greatestExponent then some number else none

def ofNat? (value : Nat) : Option Binary64 :=
  ofRatio? value 1

def mul? (left right : Binary64) : Option Binary64 :=
  let (a, b) := left.ratio
  let (c, d) := right.ratio
  ofRatio? (a * c) (b * d)

def div? (left right : Binary64) : Option Binary64 :=
  let (a, b) := left.ratio
  let (c, d) := right.ratio
  ofRatio? (a * d) (b * c)

/-- The largest power of ten with a finite value. -/
def greatestPower : Nat := 308

/-- The power of ten nearest to `10 ^ power`. -/
def powerOfTen? (power : Nat) : Option Binary64 :=
  ofNat? (Nat.pow 10 power)

/-- Divides `times` times, and no more once nothing is left. -/
def divideRepeatedly? (divisor : Binary64) : (times : Nat) → Binary64 → Option Binary64
  | 0, number => some number
  | times + 1, number =>
    if number.isZero then some number
    else number.div? divisor >>= divideRepeatedly? divisor times

/-- Multiplies or divides by a power of ten with one rounding. A number that has to shrink by
more than the largest power is divided by that one first, as often as it takes. -/
def scale? (number : Binary64) (power : Int) : Option Binary64 := do
  let size := power.natAbs
  if size ≤ greatestPower then
    let ten ← powerOfTen? size
    if power < 0 then number.div? ten else number.mul? ten
  else if number.isZero then some number
  else if 0 < power then none
  else
    let times := (size - 1) / greatestPower
    let greatest ← powerOfTen? greatestPower
    let smaller ← divideRepeatedly? greatest times number
    let ten ← powerOfTen? (size - times * greatestPower)
    smaller.div? ten

end Binary64
end QueryAudit
