/-
  LayeredConfig/Value/Inline.lean
  ===============================
  **The text of a value.**

  A token inside a longer string is replaced by the text of its value.  A
  scalar is written plainly; arrays and tables are written in brackets, where
  strings and unusual keys are quoted so that they read back.  Of the four ways
  to quote a string the one with the fewest escapes is taken.
-/
import LayeredConfig.Number.Shortest
import LayeredConfig.Value.Basic

namespace LayeredConfig

namespace Quoting

/-! ### What a string holds -/

def isControl (c : Char) : Bool := (c.toNat < 0x20 && c ≠ '\t' && c ≠ '\n') || c.toNat = 0x7F

/-- Whether `c` occurs three times in a row. -/
def hasTriple (c : Char) : List Char → Bool
  | a :: b :: d :: rest => (a = c && b = c && d = c) || hasTriple c (b :: d :: rest)
  | _ => false

/-! ### Escapes -/

def hex4 (n : Nat) : List Char :=
  let ds := (Nat.toDigits 16 n).map Char.toUpper
  List.replicate (4 - ds.length) '0' ++ ds

/-- A character of a basic string, quotation marks and line feeds aside. -/
def escapeChar (c : Char) : List Char :=
  if c = '\x08' then ['\\', 'b']
  else if c = '\t' then ['\\', 't']
  else if c = '\x0c' then ['\\', 'f']
  else if c = '\r' then ['\\', 'r']
  else if c = '\\' then ['\\', '\\']
  else if isControl c then '\\' :: 'u' :: hex4 c.toNat
  else [c]

def basicBody (s : List Char) : List Char :=
  s.flatMap fun c =>
    if c = '"' then ['\\', '"'] else if c = '\n' then ['\\', 'n'] else escapeChar c

/-- The body of a basic string over several lines: only every third quotation mark in a row is
    escaped.  `marks` of them stand in front. -/
def multilineBody (marks : Nat) : List Char → List Char
  | [] => []
  | c :: rest =>
    if c = '"' then
      if marks = 2 then '\\' :: '"' :: multilineBody 0 rest
      else '"' :: multilineBody (marks + 1) rest
    else if c = '\n' then '\n' :: multilineBody 0 rest
    else escapeChar c ++ multilineBody 0 rest

/-! ### The four forms -/

def basic (s : List Char) : List Char := '"' :: basicBody s ++ ['"']

def literal (s : List Char) : List Char := '\'' :: s ++ ['\'']

/-- Three marks on either side, and a line feed after the first three if the string has one. -/
def multiline (mark : Char) (s body : List Char) : List Char :=
  let marks := [mark, mark, mark]
  marks ++ (if s.contains '\n' then ['\n'] else []) ++ body ++ marks

def quoted (s : List Char) : List Char :=
  let hasControl := s.any isControl
  let hasLine := s.contains '\n'
  if !hasControl && !s.contains '\\' && !s.contains '"' && !hasLine then basic s
  else if !hasControl && !s.contains '\'' && !hasLine then literal s
  else if !hasControl && !s.contains '\\' && !hasTriple '"' s then
    multiline '"' s (multilineBody 0 s)
  else if !hasControl && !hasTriple '\'' s then multiline '\'' s s
  else if hasLine then multiline '"' s (multilineBody 0 s)
  else basic s

def isBareChar (c : Char) : Bool := c.isAlphanum || c = '_' || c = '-'

/-- A key, in quotes if need be; a key is always on one line. -/
def key (s : List Char) : List Char :=
  let hasControl := s.any fun c => isControl c || c = '\n'
  if !s.isEmpty && s.all isBareChar then s
  else if !hasControl && !s.contains '"' && !s.contains '\\' then basic s
  else if !hasControl && !s.contains '\'' then literal s
  else basic s

end Quoting

def boolText (b : Bool) : List Char := if b then "true".toList else "false".toList

/-! ### Values in brackets -/

mutual

def Value.inline : Value → List Char
  | .string s => Quoting.quoted s.toList
  | .integer i => Number.intText i.toInt
  | .float x => Number.floatText Number.inValueStyle x
  | .boolean b => boolText b
  | .datetime d => d.text
  | .array [] => ['[', ']']
  | .array (v :: items) => '[' :: v.inline ++ Value.inlineItems items ++ [']']
  | .table [] => ['\x7b', '\x7d']
  | .table ((k, v) :: entries) =>
    ['\x7b', ' '] ++ Quoting.key k.toList ++ [' ', '=', ' '] ++ v.inline
      ++ Value.inlineEntries entries ++ [' ', '\x7d']

/-- Items after the first one. -/
def Value.inlineItems : List Value → List Char
  | [] => []
  | v :: items => [',', ' '] ++ v.inline ++ Value.inlineItems items

/-- Entries after the first one. -/
def Value.inlineEntries : List (String × Value) → List Char
  | [] => []
  | (k, v) :: entries =>
    [',', ' '] ++ Quoting.key k.toList ++ [' ', '=', ' '] ++ v.inline ++ Value.inlineEntries entries

end

/-- The key of the one-entry table that stands for a datetime where only tables can be written. -/
def Datetime.wrapperKey : String := "$__toml_private_datetime"

/-- The text that stands for a value inside a longer string: a string is itself, a datetime its
    one-entry table. -/
def Value.text : Value → String
  | .string s => s
  | .float x => String.ofList (Number.floatText Number.inTextStyle x)
  | .datetime d =>
    String.ofList (Value.table [(Datetime.wrapperKey, .string (String.ofList d.text))]).inline
  | v => String.ofList v.inline

end LayeredConfig
