/-
  LayeredConfig/Yaml/Scalar.lean
  ==============================
  **What plain scalars denote.**

  A scalar without quotes and without a tag is null, a boolean or a number if it
  is spelled like one, and a string otherwise.  Whole numbers may be written in
  base two, eight or sixteen; a decimal one with a zero in front is a string.  A
  whole number that is too large for 64 bits, but not for 128, is refused.
-/
import LayeredConfig.Number.Decimal
import LayeredConfig.Yaml.Document
import LayeredConfig.Yaml.Tag

namespace LayeredConfig.Yaml

open Number

/-! ### Whole numbers -/

/-- Digits with a zero in front, behind a sign at will: not a number. -/
def hasLeadingZero (s : List Char) : Bool :=
  match (readSign s).2 with
  | '0' :: c :: rest => (c :: rest).all Char.isDigit
  | _ => false

def digitBelow (size : Nat) (c : Char) : Option Nat :=
  let value :=
    if c.isDigit then some (c.toNat - '0'.toNat)
    else if c.isAlpha then some (c.toLower.toNat - 'a'.toNat + 10)
    else none
  value.filter (· < size)

def ofBase? (size : Nat) (ds : List Char) : Option Nat := do
  if ds.isEmpty then none
  let values ← ds.mapM (digitBelow size)
  return values.foldl (fun total d => size * total + d) 0

def splitBase? : List Char → Option (Nat × List Char)
  | '0' :: 'x' :: rest => some (16, rest)
  | '0' :: 'o' :: rest => some (8, rest)
  | '0' :: 'b' :: rest => some (2, rest)
  | _ => none

def readWhole? (s : List Char) : Option Int :=
  let (negative, magnitude) := readSign s
  let value := match splitBase? magnitude with
    | some (size, ds) => ofBase? size ds
    | none => if hasLeadingZero s then none else ofBase? 10 magnitude
  value.map fun n => if negative then -(n : Int) else n

inductive Whole where
  | none
  | number (n : Int)
  | tooLarge
deriving DecidableEq, Repr

/-- A whole number within 64 bits, signed or unsigned; beyond 128 bits it is none at all. -/
def Whole.read (s : List Char) : Whole :=
  match readWhole? s with
  | .none => .none
  | some n =>
    if minInt ≤ n ∧ n ≤ Document.maxWhole then .number n
    else if -0x80000000000000000000000000000000 ≤ n ∧ n ≤ 0xFFFFFFFFFFFFFFFFFFFFFFFFFFFFFFFF then
      .tooLarge
    else .none

/-! ### Other scalars -/

def isNull (s : List Char) : Bool :=
  ["null", "Null", "NULL", "~"].any fun word => word.toList = s

def readBoolean? (s : List Char) : Option Bool :=
  if ["true", "True", "TRUE"].any fun word => word.toList = s then some true
  else if ["false", "False", "FALSE"].any fun word => word.toList = s then some false
  else none

def readFraction? (s : List Char) : Option Float :=
  if [".inf", ".Inf", ".INF", "+.inf", "+.Inf", "+.INF"].any fun word => word.toList = s then
    some infinity
  else if ["-.inf", "-.Inf", "-.INF"].any fun word => word.toList = s then some (-infinity)
  else if [".nan", ".NaN", ".NAN"].any fun word => word.toList = s then some undefined
  else (readFloat? s).filter Float.isFinite

/-- The document of a plain scalar without a tag; none for a number that is too large. -/
def ofPlain? (s : List Char) : Option Document :=
  if s.isEmpty || isNull s then some .null
  else match readBoolean? s with
    | some b => some (.boolean b)
    | none =>
      match Whole.read s with
      | .number n => some (.number (.whole n))
      | .tooLarge => none
      | .none =>
        match if hasLeadingZero s then none else readFraction? s with
        | some x => some (.number (.fraction x))
        | none => some (.string (String.ofList s))

/-! ### Tags -/

/-- The tags of the four kinds of scalars that a tag can force. -/
def booleanTag : String := "tag:yaml.org,2002:bool"
def integerTag : String := "tag:yaml.org,2002:int"
def floatTag : String := "tag:yaml.org,2002:float"
def nullTag : String := "tag:yaml.org,2002:null"

/-- The document of a scalar under a tag that belongs to everyone: four of them force a kind, and
    fail where that cannot be; under any other the scalar is a string. -/
def ofCommonTag? (tag : String) (s : List Char) : Option Document :=
  if tag = booleanTag then (readBoolean? s).map .boolean
  else if tag = integerTag then
    match Whole.read s with
    | .number n => some (.number (.whole n))
    | _ => none
  else if tag = floatTag then (readFraction? s).map fun x => .number (.fraction x)
  else if tag = nullTag then if isNull s then some .null else none
  else some (.string (String.ofList s))

def ofScalar? (tag : Option Tag) (plain : Bool) (s : List Char) : Option Document :=
  let untagged := if plain then ofPlain? s else some (.string (String.ofList s))
  match tag with
  | some (.common uri) => ofCommonTag? uri s
  | some (.own name) => untagged.map (.tagged name)
  | some .illegible | none => untagged

end LayeredConfig.Yaml
