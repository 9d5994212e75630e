/-
  LayeredConfig/Number/Decimal.lean
  =================================
  **Decimal fractions and the floats nearest to them.**

  A decimal fraction is kept exactly, as a whole number and a power of ten,
  until it is rounded once to the nearest float.  Numbers too large for a float
  become infinite, numbers too small become zero.
-/
import LayeredConfig.Number.Integer

namespace LayeredConfig.Number

/-- The number `mantissa × 10 ^ exponent`. -/
structure Decimal where
  mantissa : Nat
  exponent : Int
deriving DecidableEq, Repr

/-- Positive infinity and the undefined number. -/
def infinity : Float := Float.ofBits 0x7FF0000000000000
def undefined : Float := Float.ofBits 0x7FF8000000000000

/-- The float nearest to a decimal.  Powers of ten far outside the range of floats are settled
    without being computed. -/
def Decimal.toFloat (d : Decimal) : Float :=
  if d.mantissa = 0 then 0
  else
    let magnitude := d.exponent + (d.mantissa.log2 * 30103 / 100000 : Nat)
    if magnitude > 400 then infinity
    else if magnitude < -400 then 0
    else match d.exponent with
      | .ofNat e => Float.ofScientific d.mantissa false e
      | .negSucc e => Float.ofScientific d.mantissa true (e + 1)

/-- The exponent at the end of a numeral: nothing at all, or `e`, a sign at will, and digits. -/
def readExponent? : List Char → Option Int
  | [] => some 0
  | c :: rest =>
    if c = 'e' ∨ c = 'E' then
      let (negative, ds) := readSign rest
      if isNumeral ds then some (if negative then -(ofDigits ds : Int) else ofDigits ds) else none
    else none

/-- Reads an unsigned decimal fraction: digits, a point and an exponent, where either the digits
    before the point or those behind it may be missing. -/
def Decimal.read? (s : List Char) : Option Decimal :=
  let whole := s.takeWhile Char.isDigit
  let rest := s.dropWhile Char.isDigit
  let (fraction, rest) := match rest with
    | '.' :: r => (r.takeWhile Char.isDigit, r.dropWhile Char.isDigit)
    | r => ([], r)
  if whole.isEmpty && fraction.isEmpty then none
  else (readExponent? rest).map fun e => ⟨ofDigits (whole ++ fraction), e - fraction.length⟩

/-- The float that a text spells in decimal, with a sign at will. -/
def readFloat? (s : List Char) : Option Float :=
  let (negative, rest) := readSign s
  (Decimal.read? rest).map fun d => if negative then -d.toFloat else d.toFloat

end LayeredConfig.Number
