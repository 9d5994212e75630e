/-
  LayeredConfig/Value/Basic.lean
  ==============================
  **The values of a configuration.**

  A value is a scalar (string, integer, float, boolean, datetime), an array, or
  a table.  A table is a list of entries in the order of their keys, by code
  point; `Ordered` says so at every depth.  All tables that this library builds
  are ordered, and two ordered tables with the same entries are equal.

  `isTruthy` tells the values that count as set from the empty ones.
-/
import LayeredConfig.Value.Datetime

namespace LayeredConfig

/-! ### Values and tables -/

inductive Value where
  | string (s : String)
  | integer (i : Int64)
  | float (x : Float)
  | boolean (b : Bool)
  | datetime (d : Datetime)
  | array (items : List Value)
  | table (entries : List (String × Value))
deriving Repr, Inhabited

/-- The entries of a table, in the order of their keys. -/
abbrev Table := List (String × Value)

/-! ### Equality -/

mutual

def Value.decEq : (a b : Value) → Decidable (a = b)
  | .string a, .string b => decidable_of_iff (a = b) (by simp)
  | .integer a, .integer b => decidable_of_iff (a = b) (by simp)
  | .float a, .float b => decidable_of_iff (a = b) (by simp)
  | .boolean a, .boolean b => decidable_of_iff (a = b) (by simp)
  | .datetime a, .datetime b => decidable_of_iff (a = b) (by simp)
  | .array a, .array b =>
    match Value.decEqItems a b with
    | isTrue h => isTrue (by rw [h])
    | isFalse h => isFalse (by simpa using h)
  | .table a, .table b =>
    match Value.decEqEntries a b with
    | isTrue h => isTrue (by rw [h])
    | isFalse h => isFalse (by simpa using h)
  | .string _, .integer _ | .string _, .float _ | .string _, .boolean _ | .string _, .datetime _
  | .string _, .array _ | .string _, .table _
  | .integer _, .string _ | .integer _, .float _ | .integer _, .boolean _ | .integer _, .datetime _
  | .integer _, .array _ | .integer _, .table _
  | .float _, .string _ | .float _, .integer _ | .float _, .boolean _ | .float _, .datetime _
  | .float _, .array _ | .float _, .table _
  | .boolean _, .string _ | .boolean _, .integer _ | .boolean _, .float _ | .boolean _, .datetime _
  | .boolean _, .array _ | .boolean _, .table _
  | .datetime _, .string _ | .datetime _, .integer _ | .datetime _, .float _
  | .datetime _, .boolean _ | .datetime _, .array _ | .datetime _, .table _
  | .array _, .string _ | .array _, .integer _ | .array _, .float _ | .array _, .boolean _
  | .array _, .datetime _ | .array _, .table _
  | .table _, .string _ | .table _, .integer _ | .table _, .float _ | .table _, .boolean _
  | .table _, .datetime _ | .table _, .array _ => isFalse (by simp)

def Value.decEqItems : (a b : List Value) → Decidable (a = b)
  | [], [] => isTrue rfl
  | [], _ :: _ | _ :: _, [] => isFalse (by simp)
  | a :: as, b :: bs =>
    match Value.decEq a b, Value.decEqItems as bs with
    | isTrue h, isTrue h' => isTrue (by rw [h, h'])
    | isFalse h, _ => isFalse (by simp [h])
    | _, isFalse h => isFalse (by simp [h])

def Value.decEqEntries : (a b : List (String × Value)) → Decidable (a = b)
  | [], [] => isTrue rfl
  | [], _ :: _ | _ :: _, [] => isFalse (by simp)
  | (k, a) :: as, (l, b) :: bs =>
    match instDecidableEqString k l, Value.decEq a b, Value.decEqEntries as bs with
    | isTrue g, isTrue h, isTrue h' => isTrue (by rw [g, h, h'])
    | isFalse h, _, _ => isFalse (by simp [h])
    | _, isFalse h, _ => isFalse (by simp [h])
    | _, _, isFalse h => isFalse (by simp [h])

end

instance : DecidableEq Value := Value.decEq

/-! ### Order of keys -/

mutual

/-- Every table in the value lists its keys in strictly increasing order. -/
def Value.Ordered : Value → Prop
  | .array items => Value.OrderedItems items
  | .table entries => entries.Pairwise (fun a b => a.1 < b.1) ∧ Value.OrderedEntries entries
  | _ => True

def Value.OrderedItems : List Value → Prop
  | [] => True
  | v :: rest => v.Ordered ∧ Value.OrderedItems rest

def Value.OrderedEntries : List (String × Value) → Prop
  | [] => True
  | (_, v) :: rest => v.Ordered ∧ Value.OrderedEntries rest

end

/-- A table with its keys in strictly increasing order, and so for every table inside. -/
def Table.Ordered (t : Table) : Prop := (Value.table t).Ordered

/-! ### Kinds of values -/

/-- Whether a value counts as set: the empty string, zero of either kind and sign, `false` and the
    empty array and table do not, all else does. -/
def Value.isTruthy : Value → Bool
  | .string s => s ≠ ""
  | .integer i => i ≠ 0
  | .float x => x != 0.0
  | .boolean b => b
  | .datetime _ => true
  | .array items => !items.isEmpty
  | .table entries => !entries.isEmpty

def Value.isCompound : Value → Bool
  | .array _ | .table _ => true
  | _ => false

def Value.kind : Value → String
  | .string _ => "string"
  | .integer _ => "integer"
  | .float _ => "float"
  | .boolean _ => "boolean"
  | .datetime _ => "datetime"
  | .array _ => "array"
  | .table _ => "table"

end LayeredConfig
