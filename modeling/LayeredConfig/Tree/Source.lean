/-
  LayeredConfig/Tree/Source.lean
  ==============================
  **Layers and where they come from.**

  A layer is a table that is merged into a tree: from a file, from a value, from
  another tree with its tokens resolved, from the variables of the process, or
  from a list of dotted keys.  It can be put under a path of its own, and on top
  of the data or underneath.
-/
import LayeredConfig.Text.LowerCase
import LayeredConfig.Tree.Basic
import LayeredConfig.Value.Scalar

namespace LayeredConfig

/-- What a configuration is read from besides itself: files, and the variables of the process in
    their order. -/
structure Surroundings where
  disk : Disk
  vars : List (String × String)

inductive Source where
  | file (path : String)
  | table (t : Table)
  | value (v : Value)
  | tree (t : Tree)
  /-- The variables whose names begin so. -/
  | vars (start : String)
  /-- Values for dotted keys, later ones over earlier ones. -/
  | pairs (entries : List (String × Value))

/-! ### Variables and dotted keys -/

/-- The table with a value put at the end of each path in turn. -/
def Table.ofPaths (entries : List (List String × Value)) : Table :=
  entries.foldl (fun t (path, v) => t.insertAt path v) []

/-- The path that the name of a variable spells: what follows the start and two underscores, in
    lower case, cut at doubled underscores. -/
def variablePath? (start name : String) : Option (List String) :=
  match Text.dropPrefix? (start.toList ++ ['_', '_']) name.toList with
  | none | some [] => none
  | some rest =>
    some ((Text.splitDouble '_' rest).map fun part => String.ofList (Text.toLower part))

def Table.ofVariables (start : String) (vars : List (String × String)) : Table :=
  Table.ofPaths (vars.filterMap fun (name, text) =>
    (variablePath? start name).map fun path => (path, Value.ofText text))

/-- The table that values for dotted keys spell. -/
def Table.ofPairs (entries : List (String × Value)) : Table :=
  Table.ofPaths (entries.map fun (key, v) => ((KeyPath.parse key).segments, v))

/-! ### Layers -/

def Loader.load (l : Loader) (s : Surroundings) : Source → Outcome Table
  | .file path => l.loadFile s.disk path
  | .table t => return t
  | .value (.table t) => return t
  | .value v => Outcome.fail (.invalidSource v.kind)
  | .tree t => t.all s.disk
  | .vars start => return Table.ofVariables start s.vars
  | .pairs entries => return Table.ofPairs entries

structure Placement where
  /-- The path under which the layer goes. -/
  under : KeyPath
  /-- Whether what is there already stays on top. -/
  preferExisting : Bool
deriving DecidableEq, Repr

def Placement.onTop : Placement := ⟨KeyPath.root, false⟩

def Placement.apply (p : Placement) (data layer : Table) : Table :=
  let layer := Table.nestUnder p.under.segments layer
  if p.preferExisting then Table.deepMerge layer data else Table.deepMerge data layer

def Tree.merge (t : Tree) (s : Surroundings) (source : Source) (p : Placement) : Outcome Tree := do
  let layer ← t.loader.load s source
  return { t with data := p.apply t.data layer }

/-! ### Building trees -/

/-- A value of a variable that names an environment: not blank, and trimmed. -/
def environmentName? (text : String) : Option String :=
  if Text.allBlank text.toList then none else some (String.ofList (Text.trim text.toList))

structure Tree.Plan where
  environment : Option String
  defaultParsers : Bool
  parsers : List FileParser
  resolvers : List Resolver

def Tree.Plan.default : Tree.Plan := ⟨none, true, [], []⟩

/-- The plan with the environment that a variable names, if it names one. -/
def Tree.Plan.environmentFrom (plan : Tree.Plan) (s : Surroundings) (name : String) :
    Tree.Plan :=
  match (s.vars.lookup name).bind environmentName? with
  | some environment => { plan with environment }
  | none => plan

def Tree.Plan.build (plan : Tree.Plan) : Tree :=
  let loader := if plan.defaultParsers then Loader.default else Loader.empty
  ⟨[], plan.resolvers, ⟨loader.parsers ++ plan.parsers, plan.environment⟩⟩

end LayeredConfig
