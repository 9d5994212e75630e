/-
  LayeredConfig/Json/Numeral.lean
  ===============================
  **Numbers of JSON.**

  A numeral is read into at most twenty significant digits (as many as fit
  64 bits; further ones only count) and a power of ten.  Without point and
  exponent it is a whole number, if 64 bits hold it.  Otherwise the digits
  become a float that is multiplied or divided by the power of ten, each step
  rounded by itself: fast, and exact for numerals as people write them.
-/
import LayeredConfig.Document.Numeral

namespace LayeredConfig.Json

open Number Document

/-- The largest exponent, and the largest of its digits' values, that is told from infinity. -/
def maxExponent : Int := 0x7FFFFFFF

def powerOfTen (e : Nat) : Float := Float.ofScientific 1 false e

/-- Scales a float by a power of ten; none if it grows infinite.  At most `steps` divisions by
    `10 ^ 308` come before the last one; after three of them every float is zero. -/
def scale? (x : Float) (exponent : Int) : (steps : Nat) → Option Float
  | 0 => some 0
  | steps + 1 =>
    if exponent > 308 then if x == 0 then some x else none
    else if exponent ≥ 0 then
      let y := x * powerOfTen exponent.toNat
      if y.isInf then none else some y
    else if exponent ≥ -308 then some (x / powerOfTen (-exponent).toNat)
    else if x == 0 then some x
    else scale? (x / powerOfTen 308) (exponent + 308) steps

def float? (negative : Bool) (significand : Nat) (exponent : Int) : Option Float :=
  (scale? (Float.ofNat significand) exponent 5).map fun x => if negative then -x else x

/-- Significant digits: the value of as many as fit, and how many were taken. -/
def takeDigits (significand : Nat) : List Char → Nat × Nat
  | [] => (significand, 0)
  | c :: rest =>
    let next := 10 * significand + (c.toNat - '0'.toNat)
    if next > maxWhole.toNat then (significand, 0)
    else
      let (total, taken) := takeDigits next rest
      (total, taken + 1)

structure Spelling where
  negative : Bool
  whole : List Char
  fraction : Option (List Char)
  exponent : Option (Bool × List Char)
deriving DecidableEq, Repr

def readDigits? (s : List Char) : Option (List Char × List Char) :=
  let ds := s.takeWhile Char.isDigit
  if ds.isEmpty then none else some (ds, s.dropWhile Char.isDigit)

/-- The numeral at the start of a text: no leading zeros, and digits on both sides of a point. -/
def Spelling.read? (s : List Char) : Option (Spelling × List Char) := do
  let (negative, s) := match s with
    | '-' :: rest => (true, rest)
    | s => (false, s)
  let (whole, s) ← readDigits? s
  if whole.head? = some '0' ∧ whole.length > 1 then none
  let (fraction, s) ← match s with
    | '.' :: rest => (readDigits? rest).map fun (ds, rest) => (some ds, rest)
    | s => some (none, s)
  let (exponent, s) ← match s with
    | c :: rest =>
      if c = 'e' ∨ c = 'E' then
        let (down, rest) := readSign rest
        (readDigits? rest).map fun (ds, rest) => (some (down, ds), rest)
      else some (none, s)
    | [] => some (none, [])
  return (⟨negative, whole, fraction, exponent⟩, s)

/-- Exponents are added within 32 bits. -/
def clampExponent (e : Int) : Int := max (-0x80000000) (min maxExponent e)

def Spelling.numeral? (n : Spelling) : Option Numeral :=
  let (head, taken) := takeDigits 0 n.whole
  let dropped := n.whole.length - taken
  let (significand, places) := match n.fraction with
    | some ds => takeDigits head ds
    | none => (head, 0)
  let shift : Int := dropped - places
  match n.fraction, n.exponent with
  | none, none =>
    if dropped > 0 then (float? n.negative head dropped).map .fraction
    else if !n.negative then some (.whole head)
    else if head = 0 ∨ minInt > -(head : Int) then some (.fraction (-Float.ofNat head))
    else some (.whole (-(head : Int)))
  | _, none => (float? n.negative significand shift).map .fraction
  | _, some (down, ds) =>
    let e := ofDigits ds
    if (e : Int) > maxExponent then
      if significand ≠ 0 ∧ !down then none
      else some (.fraction (if n.negative then -0.0 else 0.0))
    else
      let total := clampExponent (if down then shift - e else shift + e)
      (float? n.negative significand total).map .fraction

def readNumeral? (s : List Char) : Option (Numeral × List Char) := do
  let (spelling, rest) ← Spelling.read? s
  let n ← spelling.numeral?
  return (n, rest)

end LayeredConfig.Json
