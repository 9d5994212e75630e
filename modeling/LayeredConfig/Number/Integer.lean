/-
  LayeredConfig/Number/Integer.lean
  =================================
  **Integers in decimal.**

  Integers are 64 bits wide and signed.  A numeral may have a sign and any
  number of leading zeros; one whose value does not fit is no numeral.
-/

namespace LayeredConfig.Number

/-- The value of a text of decimal digits. -/
def ofDigits (ds : List Char) : Nat := ds.foldl (fun n c => 10 * n + (c.toNat - '0'.toNat)) 0

def isNumeral (ds : List Char) : Bool := !ds.isEmpty && ds.all Char.isDigit

/-- The smallest and the largest 64-bit integer. -/
def minInt : Int := -0x8000000000000000
def maxInt : Int := 0x7FFFFFFFFFFFFFFF

def toInt64? (n : Int) : Option Int64 :=
  if minInt ≤ n ∧ n ≤ maxInt then some (Int64.ofInt n) else none

/-- A sign, if there is one (`true` for minus), and what follows it. -/
def readSign : List Char → Bool × List Char
  | '-' :: rest => (true, rest)
  | '+' :: rest => (false, rest)
  | s => (false, s)

def readInt64? (s : List Char) : Option Int64 :=
  let (negative, ds) := readSign s
  if isNumeral ds then
    toInt64? (if negative then -(ofDigits ds : Int) else ofDigits ds)
  else none

def digits (n : Nat) : List Char := Nat.toDigits 10 n

def intText (n : Int) : List Char :=
  if n < 0 then '-' :: digits n.natAbs else digits n.natAbs

/-- The digits with zeros in front, at least `width` of them. -/
def padded (width n : Nat) : List Char :=
  let ds := digits n
  List.replicate (width - ds.length) '0' ++ ds

end LayeredConfig.Number
