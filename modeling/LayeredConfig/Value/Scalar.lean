/-
  LayeredConfig/Value/Scalar.lean
  ===============================
  **Bare literals.**

  Arguments of calls and the values of environment variables may be written
  without quotes.  A bare literal is a boolean in any case, an integer, or a
  float; a float must show a point, so that words such as `nan` and `inf`
  remain words.
-/
import LayeredConfig.Number.Decimal
import LayeredConfig.Value.Basic

namespace LayeredConfig

def isWord (word : String) (s : List Char) : Bool := s.map Char.toLower == word.toList

/-- The scalar that a bare literal denotes. -/
def Value.ofLiteral? (s : List Char) : Option Value :=
  if isWord "true" s then some (.boolean true)
  else if isWord "false" s then some (.boolean false)
  else match Number.readInt64? s with
    | some i => some (.integer i)
    | none => if s.contains '.' then (Number.readFloat? s).map .float else none

/-- The value of a text that may be a bare literal; any other text is a string. -/
def Value.ofText (s : String) : Value := (Value.ofLiteral? s.toList).getD (.string s)

end LayeredConfig
