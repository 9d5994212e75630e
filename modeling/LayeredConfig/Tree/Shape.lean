/-
  LayeredConfig/Tree/Shape.lean
  =============================
  **Reading values of an expected shape.**

  A program that reads a setting knows what kind of value it can use.  A shape
  says so, and `fit?` takes a value to the form that the program gets, or says
  that it does not fit: integers within bounds, floats (for which integers do as
  well), strings (for which a datetime gives its text), lists and tables of one
  shape, and records with named fields.
-/
import LayeredConfig.Tree.Basic

namespace LayeredConfig

mutual

inductive Shape where
  | any
  | boolean
  | string
  | float
  | integer (low high : Int)
  | list (item : Shape)
  | table (entry : Shape)
  | record (fields : List Field)

/-- A field of a record.  Where it may be missing, a record written as a list may end before it
    only if there is a default. -/
inductive Field where
  | required (name : String) (shape : Shape)
  | optional (name : String) (shape : Shape)
  | withDefault (name : String) (shape : Shape) (default : Value)

end

def Value.spelled? : Value → Option Datetime
  | .string s => Datetime.read? s.toList
  | .datetime d => some d
  | _ => none

mutual

/-- The value with every datetime turned into its text.  A table that begins with the key which
    stands for a datetime must be that datetime. -/
def Value.plain? : Value → Option Value
  | .datetime d => some (.string (String.ofList d.text))
  | .array items => (Value.plainItems? items).map .array
  | .table ((key, v) :: rest) =>
    if key = Datetime.wrapperKey then
      if rest.isEmpty then v.spelled?.map .datetime else none
    else (Value.plainEntries? ((key, v) :: rest)).map .table
  | .table [] => some (.table [])
  | .string s => some (.string s)
  | .integer i => some (.integer i)
  | .float x => some (.float x)
  | .boolean b => some (.boolean b)

def Value.plainItems? : List Value → Option (List Value)
  | [] => some []
  | v :: rest =>
    match v.plain?, Value.plainItems? rest with
    | some w, some ws => some (w :: ws)
    | _, _ => none

def Value.plainEntries? : List (String × Value) → Option (List (String × Value))
  | [] => some []
  | (key, v) :: rest =>
    match v.plain?, Value.plainEntries? rest with
    | some w, some es => some ((key, w) :: es)
    | _, _ => none

end

def fitAll? (fit : Value → Option Value) : List Value → Option (List Value)
  | [] => some []
  | v :: rest =>
    match fit v, fitAll? fit rest with
    | some w, some ws => some (w :: ws)
    | _, _ => none

mutual

def Shape.fit? : Shape → Value → Option Value
  | .any, v => v.plain?
  | .boolean, .boolean b => some (.boolean b)
  | .string, .string s => some (.string s)
  | .string, .datetime d => some (.string (String.ofList d.text))
  | .float, .float x => some (.float x)
  | .float, .integer i => some (.float (Float.ofInt i.toInt))
  | .integer low high, .integer i =>
    if low ≤ i.toInt ∧ i.toInt ≤ high then some (.integer i) else none
  | .list item, .array items => (fitAll? item.fit? items).map .array
  | .table entry, .table entries =>
    (fitAll? entry.fit? (entries.map (·.2))).map fun vs =>
      .table ((entries.map (·.1)).zip vs)
  | .record fields, .table entries =>
    (Shape.fitNamed? fields entries).map fun es => .table (Table.ofList es)
  | .record fields, .array items =>
    (Shape.fitListed? fields items).map fun es => .table (Table.ofList es)
  | _, _ => none

/-- The fields of a record that is written as a table; other entries do not count. -/
def Shape.fitNamed? : List Field → List (String × Value) → Option (List (String × Value))
  | [], _ => some []
  | .required name shape :: rest, entries =>
    match (Table.get? entries name).bind shape.fit?, Shape.fitNamed? rest entries with
    | some v, some es => some ((name, v) :: es)
    | _, _ => none
  | .optional name shape :: rest, entries =>
    match Table.get? entries name, Shape.fitNamed? rest entries with
    | none, found => found
    | some v, found =>
      match shape.fit? v, found with
      | some w, some es => some ((name, w) :: es)
      | _, _ => none
  | .withDefault name shape default :: rest, entries =>
    match Table.get? entries name, Shape.fitNamed? rest entries with
    | none, found => found.map ((name, default) :: ·)
    | some v, found =>
      match shape.fit? v, found with
      | some w, some es => some ((name, w) :: es)
      | _, _ => none

/-- The fields of a record that is written as a list, in their order; none may be left over. -/
def Shape.fitListed? : List Field → List Value → Option (List (String × Value))
  | [], [] => some []
  | [], _ :: _ => none
  | .required name shape :: rest, v :: items
  | .optional name shape :: rest, v :: items
  | .withDefault name shape _ :: rest, v :: items =>
    match shape.fit? v, Shape.fitListed? rest items with
    | some w, some es => some ((name, w) :: es)
    | _, _ => none
  | .withDefault name _ default :: rest, [] =>
    (Shape.fitListed? rest []).map ((name, default) :: ·)
  | .required _ _ :: _, [] | .optional _ _ :: _, [] => none

end

/-- The value at a path in the form that a shape asks for; none if there is nothing at the path. -/
def Tree.getAs (t : Tree) (disk : Disk) (path : KeyPath) (shape : Shape) :
    Outcome (Option Value) := do
  match ← t.get disk path with
  | none => return none
  | some v =>
    match shape.fit? v with
    | some w => return some w
    | none => Outcome.fail (.invalidValue path)

end LayeredConfig
