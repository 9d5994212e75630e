/-
  LayeredConfig/Error.lean
  ========================
  **What can go wrong, and how it is said.**

  An error is a cause: it keeps what is needed to explain it, and `message`
  turns it into words.  A report of a cycle keeps the paths that were being
  read, outermost first, and what closed the circle.
-/
import LayeredConfig.KeyPath

namespace LayeredConfig

/-- How many token expansions may be open inside one another. -/
def maxDepth : Nat := 64

inductive ParseFault where
  /-- It does not follow the rules of its format. -/
  | malformed
  /-- A JSON document that is no object. -/
  | notAnObject
  /-- A YAML document that is no mapping. -/
  | notAMapping
deriving DecidableEq, Repr

inductive CallFault where
  | noCall
  | unterminatedString
  | emptyArgument
  | unsupportedArgument (text : String)
  | unexpectedAfterArgument (c : Char)
deriving DecidableEq, Repr

inductive Closing where
  /-- A path that was already being read. -/
  | path (p : KeyPath)
  /-- One more expansion than may be open. -/
  | depth
deriving DecidableEq, Repr

inductive Error where
  | parse (path : String) (fault : ParseFault)
  | io (path : String)
  | invalidSource (kind : String)
  | invalidInclude (token : String)
  | unknownRootAlias (name : String) (token : String)
  | invalidCall (expression : String) (fault : CallFault)
  | cyclic (inFlight : List KeyPath) (closing : Closing)
  | invalidValue (key : KeyPath)
deriving DecidableEq, Repr

def ParseFault.message : ParseFault → String
  | .malformed => "malformed text"
  | .notAnObject => "top-level JSON value is not an object"
  | .notAMapping => "top-level YAML value is not a mapping"

def CallFault.message : CallFault → String
  | .noCall => "expected 'name(arg, ...)'"
  | .unterminatedString => "unterminated string"
  | .emptyArgument => "empty argument"
  | .unsupportedArgument text => "unsupported argument '" ++ text ++ "'"
  | .unexpectedAfterArgument c => "unexpected '" ++ String.singleton c ++ "' after argument"

def Closing.message : Closing → String
  | .path p => p.display
  | .depth => "token expansion nested deeper than " ++ toString maxDepth ++ " levels"

/-- The paths in flight, outermost first, and what closed the circle. -/
def cycleText (inFlight : List KeyPath) (closing : Closing) : String :=
  String.intercalate " -> " (inFlight.map KeyPath.display ++ [closing.message])

def Error.message : Error → String
  | .parse path fault => "Failed to parse " ++ path ++ ": " ++ fault.message
  | .io path => "Failed to read " ++ path
  | .invalidSource kind => "Invalid config source: expected a table, got " ++ kind
  | .invalidInclude token =>
    "Invalid include token '" ++ token ++ "' (expected '$alias/relative/path')"
  | .unknownRootAlias name token =>
    "Unknown root alias '" ++ name ++ "' in include token '" ++ token ++ "'"
  | .invalidCall expression fault =>
    "Invalid call expression '" ++ expression ++ "': " ++ fault.message
  | .cyclic inFlight closing => "Cyclic token resolution: " ++ cycleText inFlight closing
  | .invalidValue key => "Invalid value for '" ++ key.display ++ "'"

end LayeredConfig
