/-
  LayeredConfig/Lookup/Read.lean
  ==============================
  **Reading a tree.**

  A tree is data with a chain of resolvers and a loader.  To resolve a value is
  to run the chain over each of its strings; where a string turns into a table
  or an array, the same is done to what is in there.  To read a path is to walk
  to its value, resolving the strings that are met on the way, and to resolve
  the value.

  Two guards keep a read from going round in circles.  No path is read while it
  is being read; and at most `maxDepth` expansions of strings into tables and
  arrays are open inside one another.  Tables that stand in the data as they are
  may nest as deep as they like.

  Resolvers may ask for reads of their own, inside the one that is going on, and
  under its guards.  How deep such questions nest is limited by a number that is
  not part of the answer: a read that needs more is exhausted, which is neither
  a value nor an error.
-/
import LayeredConfig.Files.Loader
import LayeredConfig.Lookup.Resolver
import LayeredConfig.Template
import LayeredConfig.Value.Traverse

namespace LayeredConfig

/-- Data, the resolvers of its tokens in the order in which they are asked, and a loader. -/
structure Tree where
  data : Table
  chain : List Resolver
  loader : Loader

/-- The state of the guards: the paths that are being read, innermost first, and how many more
    expansions may be opened. -/
structure Guards where
  inFlight : List KeyPath
  room : Nat
deriving DecidableEq, Repr

def Guards.fresh : Guards := ⟨[], maxDepth⟩

/-- Replies to the questions of resolvers, under the guards of the read that is going on. -/
abbrev Replies := Guards → (q : Request) → Outcome q.Reply

/-! ### Resolving -/

section Resolving

variable (replies : Replies) (chain : List Resolver)

def Resolver.ask (g : Guards) (r : Resolver) (body : String) : Outcome (Option Value) := do
  Outcome.note (.asked r.id body)
  (r.answer body).run (replies g)

/-- Lets one resolver work on a value; only strings hold tokens. -/
def Resolver.process (g : Guards) (r : Resolver) : Value → Outcome Value
  | .string s => Template.substitute (r.ask replies g) s
  | v => return v

def Guards.settle (g : Guards) : List Resolver → Value → Outcome Value
  | [], v => return v
  | r :: rest, v => do
    let v ← r.process replies g v
    g.settle rest v

def Guards.cycle (g : Guards) (closing : Closing) : Error := .cyclic g.inFlight.reverse closing

/-- What becomes of a string: the value that the chain makes of it and, if that is a table or an
    array, what is in there resolved as well. -/
def expandString (inFlight : List KeyPath) : (room : Nat) → String → Outcome Value
  | 0, s => do
    let v ← (⟨inFlight, 0⟩ : Guards).settle replies chain (.string s)
    if v.isCompound then Outcome.fail ((⟨inFlight, 0⟩ : Guards).cycle .depth) else return v
  | room + 1, s => do
    let v ← (⟨inFlight, room + 1⟩ : Guards).settle replies chain (.string s)
    if v.isCompound then
      Outcome.between .unfolded .folded (v.traverse (expandString inFlight room))
    else return v

def Guards.resolve (g : Guards) (v : Value) : Outcome Value :=
  v.traverse (expandString replies chain g.inFlight g.room)

def Guards.resolveTable (g : Guards) (t : Table) : Outcome Table :=
  t.traverse (expandString replies chain g.inFlight g.room)

end Resolving

/-! ### Reading a path -/

section Reading

variable (replies : Replies) (t : Tree)

/-- Walks on from a value.  A string on the way may expand to a table; the value at the end is left
    as it is. -/
def Guards.walk (g : Guards) : Option Value → List String → Outcome (Option Value)
  | v, [] => return v
  | none, _ :: _ => return none
  | some (.string s), key :: rest => do
    match ← g.resolve replies t.chain (.string s) with
    | .table entries => g.walk (Table.get? entries key) rest
    | _ => return none
  | some (.table entries), key :: rest => g.walk (Table.get? entries key) rest
  | some _, _ :: _ => return none

/-- The value at a path before its tokens are resolved; the empty path is the whole tree. -/
def Guards.find (g : Guards) (path : KeyPath) : Outcome (Option Value) :=
  match path.segments with
  | [] => return some (.table t.data)
  | key :: rest => g.walk replies t (t.data.get? key) rest

def Guards.enter (g : Guards) (path : KeyPath) : Guards := { g with inFlight := path :: g.inFlight }

/-- Reads a path, unless it is being read already.  A value that is not to be kept is not resolved,
    and counts as absent. -/
def Guards.read (g : Guards) (path : KeyPath) (keep : Value → Bool) : Outcome (Option Value) :=
  if path ∈ g.inFlight then Outcome.fail (g.cycle (.path path))
  else Outcome.between (.opened path) (.closed path) do
    match ← (g.enter path).find replies t path with
    | none => return none
    | some v =>
      if keep v then do
        let v ← (g.enter path).resolve replies t.chain v
        return some v
      else return none

end Reading

/-! ### Questions of resolvers -/

/-- Replies to a question, where questions may nest `steps` deep. -/
def Tree.reply (t : Tree) (disk : Disk) : (steps : Nat) → Replies
  | 0, _, _ => Outcome.exhausted
  | steps + 1, g, .get path => g.read (t.reply disk steps) t path (fun _ => true)
  | steps + 1, g, .resolve v => g.resolve (t.reply disk steps) t.chain v
  | steps + 1, g, .resolveTable table => g.resolveTable (t.reply disk steps) t.chain table
  | _ + 1, _, .load path => t.loader.loadFile disk path

end LayeredConfig
