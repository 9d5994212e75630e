/-
  LayeredConfig/Json/Document.lean
  ================================
  **JSON documents and what they mean as configuration.**

  A configuration has no null: an entry or an item that is null is left out.
  Everything else is kept as it stands.
-/
import LayeredConfig.Document.Numeral
import LayeredConfig.Value.Table

namespace LayeredConfig.Json

inductive Document where
  | null
  | boolean (b : Bool)
  | number (n : Document.Numeral)
  | string (s : String)
  | array (items : List Document)
  | object (members : List (String × Document))
deriving Inhabited

/-- The members with one more at the end, in place of an earlier one under the same name. -/
def putMember (members : List (String × Document)) (name : String) (d : Document) :
    List (String × Document) :=
  members.filter (fun m => m.1 ≠ name) ++ [(name, d)]

mutual

/-- The value that a document stands for; none for null. -/
def Document.value? : Document → Option Value
  | .null => none
  | .boolean b => some (.boolean b)
  | .number n => some n.value
  | .string s => some (.string s)
  | .array items => some (.array (Document.values items))
  | .object members => some (.table (Table.ofList (Document.entries members)))

def Document.values : List Document → List Value
  | [] => []
  | d :: rest =>
    match d.value? with
    | some v => v :: Document.values rest
    | none => Document.values rest

def Document.entries : List (String × Document) → List (String × Value)
  | [] => []
  | (name, d) :: rest =>
    match d.value? with
    | some v => (name, v) :: Document.entries rest
    | none => Document.entries rest

end

end LayeredConfig.Json
