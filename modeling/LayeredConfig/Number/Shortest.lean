/-
  LayeredConfig/Number/Shortest.lean
  ==================================
  **The fewest digits that read back.**

  A finite float is `m · 2 ^ q`; the reals that round to it fill the interval
  between the midpoints to its neighbours, ends included exactly if `m` is even.
  The decimals with `j` as their last place form the grid `10 ^ j · ℕ`.  The
  coarsest grid with a point in the interval gives the fewest digits, and of
  its two points next to the float the nearer one inside is chosen.  All of it
  is done in whole numbers.

  What is then written around the digits (point, exponent, the names of the
  numbers that have no digits) is a matter of the place where a float is
  written, and is kept in one record.
-/
import LayeredConfig.Number.Decimal

namespace LayeredConfig.Number

/-! ### Digits -/

/-- Which of two equally near points is taken. -/
inductive Tie where
  | up
  | toEven
deriving DecidableEq, Repr

/-- A positive finite float as `m · 2 ^ q`, with `wide` set if the neighbour below is only half as
    far away as the one above. -/
structure Binary where
  m : Nat
  q : Int
  wide : Bool
deriving DecidableEq, Repr

def Binary.ofBits (bits : Nat) : Binary :=
  let fraction : Nat := bits % 0x10000000000000
  let biased : Nat := bits / 0x10000000000000 % 0x800
  if biased = 0 then ⟨fraction, -1074, false⟩
  else ⟨0x10000000000000 + fraction, (biased : Int) - 1075, fraction = 0 && biased > 1⟩

/-- The point of the grid `10 ^ j · ℕ` that stands for the float: the nearer one of the two points
    next to it, provided that it lies in the interval. -/
def Binary.onGrid? (b : Binary) (tie : Tie) (j : Int) : Option Nat :=
  -- four times the float, in units in which the grid and the interval are whole
  let scale (x : Nat) : Nat := x * Nat.pow 2 (b.q - 2).toNat * Nat.pow 10 (-j).toNat
  let unit := Nat.pow 10 j.toNat * Nat.pow 2 (2 - b.q).toNat
  let v := scale (4 * b.m)
  let low := scale (4 * b.m - if b.wide then 1 else 2)
  let high := scale (4 * b.m + 2)
  let inside (x : Nat) : Bool :=
    if b.m % 2 = 0 then low ≤ x && x ≤ high else low < x && x < high
  let below := v / unit
  let down := below * unit
  let up := down + unit
  let takeLower : Bool :=
    v - down < up - v || (v - down = up - v && tie = .toEven && below % 2 = 0)
  match inside down, inside up with
  | true, true => some (if takeLower then below else below + 1)
  | true, false => some below
  | false, true => some (below + 1)
  | false, false => none

/-- The first grid with a hit, from the last place `j` downwards. -/
def Binary.search (b : Binary) (tie : Tie) : Nat → Int → Decimal
  | 0, j => ⟨0, j⟩
  | steps + 1, j =>
    match b.onGrid? tie j with
    | some n => ⟨n, j⟩
    | none => b.search tie steps (j - 1)

/-- The shortest decimal of a positive finite float.  The search starts at a power of ten above the
    float; seventeen digits are always enough. -/
def Binary.shortest (b : Binary) (tie : Tie) : Decimal :=
  b.search tie 24 ((b.q + (b.m.log2 + 1 : Nat)) * 30103 / 100000 + 2)

/-! ### Text -/

/-- How floats are written in one place. -/
structure FloatStyle where
  tie : Tie
  /-- What follows a whole number without an exponent. -/
  whole : List Char
  /-- If numbers may get an exponent: those from 10^16 on do, and those below ten to this power. -/
  least : Option Int
  nan : List Char
  infinity : List Char

/-- Digits with a point in the right place and no exponent. -/
def positional (whole ds : List Char) (exponent : Int) : List Char :=
  match exponent with
  | .ofNat e => ds ++ List.replicate e '0' ++ whole
  | .negSucc e =>
    let places := e + 1
    if places < ds.length then
      ds.take (ds.length - places) ++ '.' :: ds.drop (ds.length - places)
    else '0' :: '.' :: List.replicate (places - ds.length) '0' ++ ds

/-- Digits with a point behind the first one and an exponent. -/
def scientific (ds : List Char) (exponent : Int) : List Char :=
  let head := match ds with
    | d :: e :: es => d :: '.' :: e :: es
    | ds => ds
  head ++ 'e' :: intText (exponent + ds.length - 1)

/-- The text of a float. -/
def floatText (style : FloatStyle) (x : Float) : List Char :=
  let bits := x.toBits.toNat
  let sign := if bits ≥ 0x8000000000000000 then ['-'] else []
  if x.isNaN then style.nan
  else if x.isInf then sign ++ style.infinity
  else if bits % 0x8000000000000000 = 0 then sign ++ '0' :: style.whole
  else
    let d := (Binary.ofBits bits).shortest style.tie
    let ds := digits d.mantissa
    let point := d.exponent + ds.length
    if style.least.any fun least => point ≤ least || point > 16 then
      sign ++ scientific ds d.exponent
    else sign ++ positional style.whole ds d.exponent

/-- A float in running text: no exponent, and nothing behind a whole number. -/
def inTextStyle : FloatStyle := ⟨.up, [], none, ['N', 'a', 'N'], ['i', 'n', 'f']⟩

/-- A float inside an array or a table: never to be taken for an integer. -/
def inValueStyle : FloatStyle := ⟨.up, ['.', '0'], none, ['n', 'a', 'n'], ['i', 'n', 'f']⟩

/-- A float in an outline: with an exponent outside of 10^-4 to 10^16. -/
def inOutlineStyle : FloatStyle := ⟨.up, ['.', '0'], some (-4), ['N', 'a', 'N'], ['i', 'n', 'f']⟩

/-- A float as a key: with an exponent outside of 10^-5 to 10^16, and with the names that a document
    gives to the special numbers. -/
def inKeyStyle : FloatStyle :=
  ⟨.toEven, ['.', '0'], some (-5), ['.', 'n', 'a', 'n'], ['.', 'i', 'n', 'f']⟩

end LayeredConfig.Number
