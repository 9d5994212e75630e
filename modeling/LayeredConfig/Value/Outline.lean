/-
  LayeredConfig/Value/Outline.lean
  ================================
  **Values as an outline names them.**

  The outline of a tree is for people who look for a fault: it names the kind
  of every value, so that the integer `1`, the float `1.0` and the string `"1"`
  cannot be taken for one another.
-/
import LayeredConfig.Number.Shortest
import LayeredConfig.Text.Escaped
import LayeredConfig.Text.Split
import LayeredConfig.Value.Inline

namespace LayeredConfig

namespace Outline

def call (kind : String) (content : List Char) : List Char :=
  kind.toList ++ '(' :: content ++ [')']

def list (parts : List (List Char)) : List Char := Text.join [',', ' '] parts

def record (kind : String) (fields : List (String × List Char)) : List Char :=
  let parts := fields.map fun (name, v) => name.toList ++ ':' :: ' ' :: v
  kind.toList ++ [' ', '\x7b', ' '] ++ list parts ++ [' ', '\x7d']

def natural (n : Nat) : List Char := Number.digits n

def optional : Option (List Char) → List Char
  | none => "None".toList
  | some s => call "Some" s

def date (d : Date) : List Char :=
  record "Date" [("year", natural d.year), ("month", natural d.month), ("day", natural d.day)]

def time (t : Time) : List Char :=
  record "Time" [("hour", natural t.hour), ("minute", natural t.minute),
    ("second", natural t.second), ("nanosecond", natural t.nanosecond)]

def offset : Offset → List Char
  | .utc => "Z".toList
  | .east minutes => record "Custom" [("minutes", Number.intText minutes)]

def datetime (d : Datetime) : List Char :=
  let (day, clock, zone) := match d with
    | .date d => (some d, none, none)
    | .time t => (none, some t, none)
    | .localTime d t => (some d, some t, none)
    | .offsetTime d t z => (some d, some t, some z)
  record "Datetime" [("date", optional (day.map date)), ("time", optional (clock.map time)),
    ("offset", optional (zone.map offset))]

end Outline

mutual

def Value.outline : Value → List Char
  | .string s => Outline.call "String" (Text.escaped s.toList)
  | .integer i => Outline.call "Integer" (Number.intText i.toInt)
  | .float x => Outline.call "Float" (Number.floatText Number.inOutlineStyle x)
  | .boolean b => Outline.call "Boolean" (boolText b)
  | .datetime d => Outline.call "Datetime" (Outline.datetime d)
  | .array items =>
    Outline.call "Array" ('[' :: Outline.list (Value.outlineItems items) ++ [']'])
  | .table entries =>
    Outline.call "Table" ('\x7b' :: Outline.list (Value.outlineEntries entries) ++ ['\x7d'])

def Value.outlineItems : List Value → List (List Char)
  | [] => []
  | v :: items => v.outline :: Value.outlineItems items

def Value.outlineEntries : List (String × Value) → List (List Char)
  | [] => []
  | (k, v) :: entries =>
    (Text.escaped k.toList ++ ':' :: ' ' :: v.outline) :: Value.outlineEntries entries

end

def Table.outline (t : Table) : List Char :=
  '\x7b' :: Outline.list (Value.outlineEntries t) ++ ['\x7d']

end LayeredConfig
