/-
  LayeredConfig/Value/Traverse.lean
  =================================
  **Changing every string of a value.**

  A change of strings is carried through arrays in the order of their items and
  through tables in the order of their keys.  It may have effects, and what it
  puts in the place of a string is not looked into again.
-/
import LayeredConfig.Value.Basic

namespace LayeredConfig

variable {m : Type → Type} [Monad m]

mutual

def Value.traverse (change : String → m Value) : Value → m Value
  | .string s => change s
  | .array items => do
    let items ← Value.traverseItems change items
    return .array items
  | .table entries => do
    let entries ← Value.traverseEntries change entries
    return .table entries
  | .integer i => pure (.integer i)
  | .float x => pure (.float x)
  | .boolean b => pure (.boolean b)
  | .datetime d => pure (.datetime d)

def Value.traverseItems (change : String → m Value) : List Value → m (List Value)
  | [] => pure []
  | v :: rest => do
    let v ← v.traverse change
    let rest ← Value.traverseItems change rest
    return v :: rest

def Value.traverseEntries (change : String → m Value) :
    List (String × Value) → m (List (String × Value))
  | [] => pure []
  | (key, v) :: rest => do
    let v ← v.traverse change
    let rest ← Value.traverseEntries change rest
    return (key, v) :: rest

end

def Table.traverse (change : String → m Value) (t : Table) : m Table :=
  Value.traverseEntries change t

end LayeredConfig
