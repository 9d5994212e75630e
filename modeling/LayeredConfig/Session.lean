/-
  LayeredConfig/Session.lean
  ==========================
  **A host and all that it holds.**

  A host keeps trees, resolvers, parsers and loaders under names of its own.
  Two names may stand for the same tree: what is done through one of them shows
  through the other.  A resolver that stands in several chains is one resolver:
  when its table changes, it changes in all of them.

  What resolvers are asked and what parsers are given is written down as it
  happens, and every resolver and parser can be asked for its part of it once.
-/
import LayeredConfig.Tree.Command

namespace LayeredConfig

/-! ### Loaders on their own -/

inductive Loader.Command where
  | setEnvironment (environment : Option String)
  | register (p : FileParser)
  | deregister (id : Nat)
  | hasParser (id : Nat)
  | parsers
  | load (source : Source)
  | loadFile (path : String)
  | parseFile (path : String)

def Loader.perform (s : Surroundings) (l : Loader) : Loader.Command → Loader × Outcome Answer
  | .setEnvironment environment => ({ l with environment }, return .text environment)
  | .register p => (l.register p, return .texts (l.register p).parserNames)
  | .deregister id => (l.deregister id, return .flag (l.hasParser id))
  | .hasParser id => (l, return .flag (l.hasParser id))
  | .parsers => (l, return .texts l.parserNames)
  | .load source => (l, Answer.table <$> l.load s source)
  | .loadFile path => (l, Answer.table <$> l.loadFile s.disk path)
  | .parseFile path => (l, Answer.table <$> l.parseFile s.disk path)

/-! ### Sessions -/

structure Session where
  surroundings : Surroundings
  /-- All trees that there ever were; names stand for places in this list. -/
  trees : List Tree
  handles : List (String × Nat)
  /-- All resolvers and parsers that there ever were, newest first. -/
  resolvers : List (String × Resolver)
  parsers : List (String × FileParser)
  loaders : List (String × Loader)
  /-- What was done and has not been asked for. -/
  journal : List Event

namespace Session

def start (surroundings : Surroundings) (name : String) : Session :=
  ⟨surroundings, [Tree.empty], [(name, 0)], [], [], [], []⟩

/-- Numbers are given from the first one that no default parser has. -/
def nextId (s : Session) : Nat :=
  Loader.defaultParsers.length + s.resolvers.length + s.parsers.length

def tree? (s : Session) (name : String) : Option Tree :=
  (s.handles.lookup name).bind fun place => s.trees[place]?

def resolver? (s : Session) (name : String) : Option Resolver := s.resolvers.lookup name

def parser? (s : Session) (name : String) : Option FileParser := s.parsers.lookup name

def chainNames (s : Session) (chain : List Resolver) : List String :=
  chain.filterMap fun r => (s.resolvers.find? fun entry => entry.2.id = r.id).map (·.1)

def addTree (s : Session) (name : String) (t : Tree) : Session :=
  { s with trees := s.trees ++ [t], handles := (name, s.trees.length) :: s.handles }

/-- The session with another table behind a resolver, wherever the resolver stands. -/
def setData (s : Session) (id : Nat) (table : Table) : Session :=
  { s with
    trees := s.trees.map (·.setData id table)
    resolvers := s.resolvers.map fun (name, r) =>
      (name, if r.id = id then r.setData table else r) }

/-! ### Steps -/

inductive Step where
  | build (name : String) (plan : Tree.Plan)
  /-- A second name for a tree. -/
  | handle (name second : String)
  | newTree (name : String)
  | newResolver (name : String) (kind : Resolver.Kind)
  | newParser (name : String) (kind : FileParser.Kind)
  | newLoader (name : String) (l : Loader)
  | setData (r : Resolver) (table : Table)
  | hasFunction (r : Resolver) (function : String)
  | roots (r : Resolver)
  /-- The bodies that a resolver was shown since this was asked last. -/
  | bodies (r : Resolver)
  /-- The paths that a parser was given since this was asked last. -/
  | paths (p : FileParser)
  | write (path : String) (node : Node)
  | remove (path : String)
  | resolvers (name : String)
  | tree (name : String) (command : Tree.Command)
  | loader (name : String) (command : Loader.Command)

inductive Fault where
  | halted (halt : Halt)
  | unknown (name : String)

/-- The body that an event shows to a resolver. -/
def askedOf? (id : Nat) : Event → Option String
  | .asked resolver body => if resolver = id then some body else none
  | _ => none

/-- The path that an event gives to a parser. -/
def parsedBy? (id : Nat) : Event → Option String
  | .parsed parser path => if parser = id then some path else none
  | _ => none

/-- Takes from the journal what one question is about. -/
def collect (s : Session) (part? : Event → Option String) : Session × Except Fault Answer :=
  ({ s with journal := s.journal.filter fun e => (part? e).isNone },
    .ok (.texts (s.journal.filterMap part?)))

/-- The session with the journal of an outcome, and the outcome's answer. -/
def record (s : Session) (x : Outcome Answer) : Session × Except Fault Answer :=
  ({ s with journal := s.journal ++ x.journal }, x.result.mapError .halted)

def step (s : Session) : Step → Session × Except Fault Answer
  | .build name plan =>
    let t := plan.build
    (s.addTree name t, .ok (.built t.loader.environment t.loader.parserNames t.chain.length))
  | .handle name second =>
    match s.handles.lookup name with
    | some place => ({ s with handles := (second, place) :: s.handles }, .ok .nothing)
    | none => (s, .error (.unknown name))
  | .newTree name => (s.addTree name Tree.empty, .ok .nothing)
  | .newResolver name kind =>
    let r : Resolver := ⟨s.nextId, kind⟩
    ({ s with resolvers := (name, r) :: s.resolvers }, .ok (.text r.label?))
  | .newParser name kind =>
    let p : FileParser := ⟨s.nextId, kind⟩
    ({ s with parsers := (name, p) :: s.parsers }, .ok (.text (some p.name)))
  | .newLoader name l =>
    ({ s with loaders := (name, l) :: s.loaders }, .ok (.texts l.parserNames))
  | .setData r table =>
    (s.setData r.id table, .ok (.table ((r.setData table).data?.getD [])))
  | .hasFunction r function => (s, .ok (.flag (r.hasFunction function)))
  | .roots r => (s, .ok (.directories r.roots))
  | .bodies r => s.collect (askedOf? r.id)
  | .paths p => s.collect (parsedBy? p.id)
  | .write path node =>
    ({ s with surroundings.disk := s.surroundings.disk.write path node }, .ok .nothing)
  | .remove path =>
    ({ s with surroundings.disk := s.surroundings.disk.remove path }, .ok .nothing)
  | .resolvers name =>
    match s.tree? name with
    | some t => (s, .ok (.texts (s.chainNames t.chain)))
    | none => (s, .error (.unknown name))
  | .tree name command =>
    match s.handles.lookup name with
    | none => (s, .error (.unknown name))
    | some place =>
      match s.trees[place]? with
      | none => (s, .error (.unknown name))
      | some t =>
        let (t', x) := t.perform s.surroundings command
        ({ s with trees := s.trees.set place t' } : Session).record x
  | .loader name command =>
    match s.loaders.lookup name with
    | none => (s, .error (.unknown name))
    | some l =>
      let (l', x) := l.perform s.surroundings command
      ({ s with loaders := (name, l') :: s.loaders } : Session).record x

end Session

end LayeredConfig
