/-
  LayeredConfig/Tree/Basic.lean
  =============================
  **Trees.**

  A tree is read at a path or as a whole; a read never changes it.  Its chain of
  resolvers and its parsers can be added to and taken from.
-/
import LayeredConfig.Lookup.Read
import LayeredConfig.Value.Outline

namespace LayeredConfig.Tree

def withLoader (loader : Loader) : Tree := ⟨[], [], loader⟩

def empty : Tree := withLoader Loader.default

/-- How deep the questions of resolvers may nest in one read. -/
def maxSteps : Nat := 100000

/-! ### Reading -/

def replies (t : Tree) (disk : Disk) : Replies := t.reply disk maxSteps

def get (t : Tree) (disk : Disk) (path : KeyPath) : Outcome (Option Value) :=
  Guards.fresh.read (t.replies disk) t path fun _ => true

/-- The value at a path, or a default if there is nothing at the path or an empty value.  What is
    judged is the value before its tokens are resolved. -/
def getOr (t : Tree) (disk : Disk) (path : KeyPath) (default : Value) : Outcome Value := do
  let v ← Guards.fresh.read (t.replies disk) t path Value.isTruthy
  return v.getD default

def all (t : Tree) (disk : Disk) : Outcome Table :=
  Guards.fresh.resolveTable (t.replies disk) t.chain t.data

/-- Holds a dialogue as a resolver would while a path is being read. -/
def during (t : Tree) (disk : Disk) (path : KeyPath) {α : Type} (d : Dialogue α) : Outcome α :=
  d.run (t.replies disk (Guards.fresh.enter path))

/-- Lets a resolver work on a value while a path is being read. -/
def processDuring (t : Tree) (disk : Disk) (path : KeyPath) (r : Resolver) (v : Value) :
    Outcome Value :=
  r.process (t.replies disk) (Guards.fresh.enter path) v

/-! ### Resolvers -/

def addResolver (t : Tree) (r : Resolver) : Tree := { t with chain := t.chain ++ [r] }

def removeResolver (t : Tree) (id : Nat) : Tree :=
  { t with chain := t.chain.filter (·.id ≠ id) }

def hasResolver (t : Tree) (id : Nat) : Bool := t.chain.any (·.id = id)

def setData (t : Tree) (id : Nat) (table : Table) : Tree :=
  { t with chain := t.chain.map fun r => if r.id = id then r.setData table else r }

/-! ### Outline -/

/-- The tree in one line for people: its data, the number of its resolvers, its environment. -/
def outline (t : Tree) : String :=
  String.ofList (Outline.record "ConfigTree" [
    ("data", Table.outline t.data),
    ("resolvers", Outline.natural t.chain.length),
    ("environment",
      Outline.optional (t.loader.environment.map fun e => Text.escaped e.toList))])

end LayeredConfig.Tree
