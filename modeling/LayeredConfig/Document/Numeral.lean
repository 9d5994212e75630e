/-
  LayeredConfig/Document/Numeral.lean
  ===================================
  **Numbers as documents give them.**

  A JSON or YAML document gives a number either whole, within 64 bits signed or
  unsigned, or as a float.  A configuration keeps a whole number that fits as an
  integer; a larger one becomes the nearest float.
-/
import LayeredConfig.Number.Decimal
import LayeredConfig.Value.Basic

namespace LayeredConfig.Document

inductive Numeral where
  | whole (n : Int)
  | fraction (x : Float)
deriving DecidableEq, Repr

/-- The largest whole number that a document gives exactly. -/
def maxWhole : Int := 0xFFFFFFFFFFFFFFFF

def Numeral.value : Numeral → Value
  | .whole n =>
    match Number.toInt64? n with
    | some i => .integer i
    | none => .float (Float.ofInt n)
  | .fraction x => .float x

end LayeredConfig.Document
