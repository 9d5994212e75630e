/-
  LayeredConfig/Files/Loader.lean
  ===============================
  **Loading files for an environment.**

  A loader has parsers, of which the first one that takes a path reads it; a
  path that none takes holds the empty table.  In an environment the overlay
  beside a file is laid over it.
-/
import LayeredConfig.Files.Format
import LayeredConfig.Value.Merge

namespace LayeredConfig

structure Loader where
  parsers : List FileParser
  environment : Option String

namespace Loader

def empty : Loader := ⟨[], none⟩

/-- The parsers of the three formats, which have the first three numbers. -/
def defaultParsers : List FileParser :=
  [⟨0, .format .toml⟩, ⟨1, .format .json⟩, ⟨2, .format .yaml⟩]

def default : Loader := ⟨defaultParsers, none⟩

/-! ### Parsers -/

def register (l : Loader) (p : FileParser) : Loader := { l with parsers := l.parsers ++ [p] }

/-- The loader without a parser, wherever it stands in the list. -/
def deregister (l : Loader) (id : Nat) : Loader :=
  { l with parsers := l.parsers.filter (·.id ≠ id) }

def hasParser (l : Loader) (id : Nat) : Bool := l.parsers.any (·.id = id)

def parserNames (l : Loader) : List String := l.parsers.map FileParser.name

/-! ### Files -/

def parseFile (l : Loader) (disk : Disk) (path : String) : Outcome Table :=
  match l.parsers.find? (·.supports path) with
  | some p => p.parse disk path
  | none => return []

/-- The table in the file at a path, with its overlay for the environment laid over it. -/
def loadFile (l : Loader) (disk : Disk) (path : String) : Outcome Table := do
  let base ← l.parseFile disk path
  match l.environment with
  | none => return base
  | some environment =>
    let overlay ← l.parseFile disk (Path.overlay path environment)
    return Table.deepMerge base overlay

end Loader

end LayeredConfig
