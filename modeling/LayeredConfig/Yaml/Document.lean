/-
  LayeredConfig/Yaml/Document.lean
  ================================
  **YAML documents and what they mean as configuration.**

  A configuration has no null, no tags and only strings for keys.  An entry or
  an item that is null is left out; a tag is taken off; a boolean or a number
  that serves as a key is written as a string; an entry under any other key is
  left out.

  `same` is the equality under which two keys of one mapping must differ: it
  tells whole numbers from floats, takes the two zeros for one and every
  undefined number for the same, and does not look at the order of entries.
-/
import LayeredConfig.Document.Numeral
import LayeredConfig.Number.Shortest
import LayeredConfig.Value.Table

namespace LayeredConfig.Yaml

inductive Document where
  | null
  | boolean (b : Bool)
  | number (n : Document.Numeral)
  | string (s : String)
  | sequence (items : List Document)
  | mapping (entries : List (Document × Document))
  | tagged (tag : String) (d : Document)
deriving Inhabited

/-! ### Equality of keys -/

def sameNumeral : Document.Numeral → Document.Numeral → Bool
  | .whole a, .whole b => a = b
  | .fraction a, .fraction b => (a.isNaN && b.isNaN) || a == b
  | _, _ => false

/-- A tag without the mark in front of it; the mark alone is a tag. -/
def bareTag (tag : String) : List Char :=
  match tag.toList with
  | '!' :: c :: rest => c :: rest
  | cs => cs

mutual

def Document.same : Document → Document → Bool
  | .null, .null => true
  | .boolean a, .boolean b => a = b
  | .number a, .number b => sameNumeral a b
  | .string a, .string b => a = b
  | .sequence as, .sequence bs => Document.sameItems as bs
  | .mapping as, .mapping bs => as.length = bs.length && Document.sameEntries as bs
  | .tagged s a, .tagged t b => bareTag s = bareTag t && Document.same a b
  | _, _ => false

def Document.sameItems : List Document → List Document → Bool
  | [], [] => true
  | a :: as, b :: bs => Document.same a b && Document.sameItems as bs
  | _, _ => false

def Document.sameEntries : List (Document × Document) → List (Document × Document) → Bool
  | [], _ => true
  | (k, v) :: rest, bs =>
    bs.any (fun (l, w) => Document.same k l && Document.same v w) && Document.sameEntries rest bs

end

/-! ### Meaning -/

def Document.key? : Document → Option String
  | .string s => some s
  | .boolean b => some (if b then "true" else "false")
  | .number (.whole n) => some (String.ofList (Number.intText n))
  | .number (.fraction x) => some (String.ofList (Number.floatText Number.inKeyStyle x))
  | _ => none

mutual

def Document.value? : Document → Option Value
  | .null => none
  | .boolean b => some (.boolean b)
  | .number n => some n.value
  | .string s => some (.string s)
  | .sequence items => some (.array (Document.values items))
  | .mapping entries => some (.table (Table.ofList (Document.entries entries)))
  | .tagged _ d => d.value?

def Document.values : List Document → List Value
  | [] => []
  | d :: rest =>
    match d.value? with
    | some v => v :: Document.values rest
    | none => Document.values rest

/-- The entries with a key that can be written and a value that is not null. -/
def Document.entries : List (Document × Document) → List (String × Value)
  | [] => []
  | (k, d) :: rest =>
    match k.key?, d.value? with
    | some key, some v => (key, v) :: Document.entries rest
    | _, _ => Document.entries rest

end

end LayeredConfig.Yaml
