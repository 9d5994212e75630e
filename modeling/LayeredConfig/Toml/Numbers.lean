/-
  LayeredConfig/Toml/Numbers.lean
  ===============================
  **Numbers of TOML.**

  Digits may be grouped by single underscores.  A decimal integer has no leading
  zeros; hexadecimal, octal and binary ones have no sign.  A float needs digits
  on both sides of its point, or an exponent.
-/
import LayeredConfig.Number.Decimal
import LayeredConfig.Value.Basic

namespace LayeredConfig.Toml

open Number

/-- Digits of a class, single underscores between them left out, and what follows. -/
def readGrouped? (isDigit : Char → Bool) : List Char → Option (List Char × List Char)
  | [] => none
  | [c] => if isDigit c then some ([c], []) else none
  | c :: '_' :: rest =>
    if isDigit c then (readGrouped? isDigit rest).map fun (ds, rest) => (c :: ds, rest) else none
  | c :: d :: rest =>
    if !isDigit c then none
    else if isDigit d then
      (readGrouped? isDigit (d :: rest)).map fun (ds, rest) => (c :: ds, rest)
    else some ([c], d :: rest)

def readWhole? (s : List Char) : Option (Bool × List Char × List Char) :=
  let (negative, s) := readSign s
  match s with
  | '0' :: rest => some (negative, ['0'], rest)
  | s => (readGrouped? Char.isDigit s).map fun (ds, rest) => (negative, ds, rest)

def digitBelow (size : Nat) (c : Char) : Option Nat :=
  let value :=
    if c.isDigit then some (c.toNat - '0'.toNat)
    else if 'a' ≤ c.toLower ∧ c.toLower ≤ 'f' then some (c.toLower.toNat - 'a'.toNat + 10)
    else none
  value.filter (· < size)

def readInBase? (size : Nat) (s : List Char) : Option (Value × List Char) := do
  let (ds, rest) ← readGrouped? (fun c => (digitBelow size c).isSome) s
  let n := ds.foldl (fun total c => size * total + (digitBelow size c).getD 0) 0
  return (.integer (← toInt64? n), rest)

def readInteger? (s : List Char) : Option (Value × List Char) :=
  match s with
  | '0' :: 'x' :: rest => readInBase? 16 rest
  | '0' :: 'o' :: rest => readInBase? 8 rest
  | '0' :: 'b' :: rest => readInBase? 2 rest
  | s => do
    let (negative, ds, rest) ← readWhole? s
    let n : Int := ofDigits ds
    return (.integer (← toInt64? (if negative then -n else n)), rest)

def readExponent? (s : List Char) : Option (Option (List Char) × List Char) :=
  match s with
  | c :: rest =>
    if c = 'e' ∨ c = 'E' then
      let (negative, rest) := readSign rest
      (readGrouped? Char.isDigit rest).map fun (ds, rest) =>
        (some ('e' :: (if negative then ['-'] else []) ++ ds), rest)
    else some (none, s)
  | [] => some (none, [])

/-- A float in decimal; one that is too large is refused, unless it is negative. -/
def readDecimal? (s : List Char) : Option (Value × List Char) := do
  let (negative, whole, s) ← readWhole? s
  let (fraction, s) ← match s with
    | '.' :: rest =>
      (readGrouped? Char.isDigit rest).map fun (ds, rest) => (some ('.' :: ds), rest)
    | s => some (none, s)
  let (exponent, s) ← readExponent? s
  if fraction.isNone ∧ exponent.isNone then none
  let x ← readFloat? (whole ++ fraction.getD [] ++ exponent.getD [])
  if x.isInf ∧ ¬negative then none
  return (.float (if negative then -x else x), s)

/-- Infinity and the undefined number, with a sign at will. -/
def readSpecial? (s : List Char) : Option (Value × List Char) :=
  let (negative, s) := readSign s
  match s with
  | 'i' :: 'n' :: 'f' :: rest => some (.float (if negative then -infinity else infinity), rest)
  | 'n' :: 'a' :: 'n' :: rest => some (.float undefined, rest)
  | _ => none

def readNumber? (s : List Char) : Option (Value × List Char) :=
  match Datetime.readStart? s with
  | some (d, rest) => some (.datetime d, rest)
  | none => readDecimal? s <|> readSpecial? s <|> readInteger? s

end LayeredConfig.Toml
