/-
  LayeredConfig/Tree/Command.lean
  ===============================
  **What can be done with a tree.**

  Merging layers, reading, and changing the chain of resolvers and the parsers
  are commands, and `perform` carries one out: it gives the tree afterwards and
  what came of the command.  A command that fails leaves the tree as it was.
-/
import LayeredConfig.Tree.Shape
import LayeredConfig.Tree.Source

namespace LayeredConfig

inductive Answer where
  | nothing
  | value (v : Option Value)
  | table (t : Table)
  | text (s : Option String)
  | texts (list : List String)
  | flag (b : Bool)
  | count (n : Nat)
  | directories (roots : List (String × String))
  | built (environment : Option String) (parsers : List String) (resolvers : Nat)

namespace Tree

inductive Command where
  | merge (source : Source) (placement : Placement)
  | get (path : KeyPath)
  | getOr (path : KeyPath) (default : Value)
  | getAs (path : KeyPath) (shape : Shape)
  | all
  /-- The data with its tokens as they are written. -/
  | raw
  | outline
  | environment
  | addResolver (r : Resolver)
  | removeResolver (id : Nat)
  | registerParser (p : FileParser)
  | deregisterParser (id : Nat)
  | hasParser (id : Nat)
  | parsers

def reading {α : Type} (t : Tree) (answer : α → Answer) (x : Outcome α) : Tree × Outcome Answer :=
  (t, answer <$> x)

def changed (t : Tree) (answer : Answer) : Tree × Outcome Answer := (t, return answer)

def orElse (t : Tree) (x : Outcome Tree) (answer : Tree → Answer) : Tree × Outcome Answer :=
  match x.result with
  | .ok t' => (t', answer <$> x)
  | .error _ => (t, answer <$> x)

def perform (s : Surroundings) (t : Tree) : Command → Tree × Outcome Answer
  | .merge source placement => t.orElse (t.merge s source placement) fun t' => .table t'.data
  | .get path => t.reading .value (t.get s.disk path)
  | .getOr path default => t.reading (fun v => .value (some v)) (t.getOr s.disk path default)
  | .getAs path shape => t.reading .value (t.getAs s.disk path shape)
  | .all => t.reading .table (t.all s.disk)
  | .raw => t.changed (.table t.data)
  | .outline => t.changed (.text (some t.outline))
  | .environment => t.changed (.text t.loader.environment)
  | .addResolver r =>
    let t' := t.addResolver r
    t'.changed (.count t'.chain.length)
  | .removeResolver id => (t.removeResolver id).changed (.flag (t.hasResolver id))
  | .registerParser p =>
    let t' := { t with loader := t.loader.register p }
    t'.changed (.texts t'.loader.parserNames)
  | .deregisterParser id =>
    ({ t with loader := t.loader.deregister id } : Tree).changed (.flag (t.loader.hasParser id))
  | .hasParser id => t.changed (.flag (t.loader.hasParser id))
  | .parsers => t.changed (.texts t.loader.parserNames)

end Tree

end LayeredConfig
