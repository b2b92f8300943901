import QueryAudit.Json.Basic

/-! How the text of a number becomes a value. An integer that fits 64 bits stays an integer.
For a double the digits are gathered into a 64-bit significand first; digits that do not fit are
left out, and those left out before the point raise the exponent instead. The significand is
then rounded once and scaled once by a power of ten, so the result need not be the double
nearest to the text. -/
namespace QueryAudit

/-- A number as written: digits before the point, digits after it, exponent. -/
structure Numeral where
  negative : Bool
  whole : List Char
  /-- Empty when there is no point. -/
  fraction : List Char
  /-- Sign and digits; `none` when there is no exponent. -/
  exponent : Option (Bool × List Char)

namespace Numeral

/-- Splits off a run of digits, which must not be empty. -/
def digits? (chars : List Char) : Option (List Char × List Char) :=
  match chars.span Char.isDigit with
  | ([], _) => none
  | found => some found

/-- The digits before the point, which start with a zero only if that is all. -/
def whole? (chars : List Char) : Option (List Char × List Char) :=
  match digits? chars with
  | some ('0' :: _ :: _, _) => none
  | found => found

def fraction? : List Char → Option (List Char × List Char)
  | '.' :: rest => digits? rest
  | rest => some ([], rest)

def exponent? : List Char → Option (Option (Bool × List Char))
  | [] => some none
  | mark :: rest =>
    if mark = 'e' ∨ mark = 'E' then
      let (negative, rest) := match rest with
        | '+' :: rest => (false, rest)
        | '-' :: rest => (true, rest)
        | rest => (false, rest)
      match digits? rest with
      | some (digits, []) => some (some (negative, digits))
      | _ => none
    else none

/-- Reads a number; nothing may stand before or after it. -/
def ofChars? (chars : List Char) : Option Numeral := do
  let (negative, chars) := match chars with
    | '-' :: rest => (true, rest)
    | chars => (false, chars)
  let (whole, rest) ← whole? chars
  let (fraction, rest) ← fraction? rest
  let exponent ← exponent? rest
  return ⟨negative, whole, fraction, exponent⟩

/-- Appends digits to a significand while it stays below `2 ^ 64`, and counts those left out. -/
def gather (significand : Nat) : List Char → Nat × Nat
  | [] => (significand, 0)
  | digit :: rest =>
    let next := significand * 10 + (digit.toNat - '0'.toNat)
    if next < 1 <<< 64 then gather next rest else (significand, rest.length + 1)

/-- The integer written without point and exponent, when it fits 64 bits. Minus zero is not an
integer, because an integer has no sign at zero. -/
def integer? (numeral : Numeral) : Option JsonNumber :=
  match numeral.fraction, numeral.exponent, gather 0 numeral.whole with
  | [], none, (value, 0) =>
    if !numeral.negative then some (.natural value)
    else if 0 < value ∧ value ≤ 1 <<< 63 then some (.negative value)
    else none
  | _, _, _ => none

/-- Largest exponent that is read; with a larger one the number is zero or out of range. -/
def greatestExponent : Nat := (1 <<< 31) - 1

/-- Magnitude of the number as a double; `none` when it is out of range. -/
def magnitude? (numeral : Numeral) : Option Binary64 := do
  let (significand, raised) := gather 0 numeral.whole
  let (significand, dropped) := gather significand numeral.fraction
  let point : Int := (raised : Int) - (numeral.fraction.length - dropped : Nat)
  let start ← Binary64.ofNat? significand
  match numeral.exponent with
  | none => start.scale? point
  | some (negative, digits) =>
    let exponent := digits.foldl (fun value digit => value * 10 + (digit.toNat - '0'.toNat)) 0
    if greatestExponent < exponent then
      if negative ∨ significand = 0 then some .zero else none
    else start.scale? (if negative then point - exponent else point + exponent)

/-- The value of a number; `none` when it is out of range. -/
def value? (numeral : Numeral) : Option JsonNumber :=
  match numeral.integer? with
  | some integer => some integer
  | none => numeral.magnitude?.map (.double numeral.negative)

end Numeral
end QueryAudit
