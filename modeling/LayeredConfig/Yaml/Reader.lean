/-
  LayeredConfig/Yaml/Reader.lean
  ==============================
  **Reading YAML.**

  The events of a text are put together to its document.  An alias stands for
  the node with its anchor, wherever the alias is met; since an alias may lead
  into a node that contains it, collections nest at most 128 deep, and aliases
  are followed at most a hundred times per event of the text.

  Anchors are numbered by how many names there were before them.  An alias goes
  by number, to the last node that was given the number: a name that is given
  out twice makes the next new name take over its second number.
-/
import LayeredConfig.Yaml.Event
import LayeredConfig.Yaml.Scalar

namespace LayeredConfig.Yaml

/-! ### Anchors -/

/-- An event with its alias, if it is one, turned into a number. -/
inductive Numbered where
  | reference (number : Nat)
  | node (e : Event)
deriving Inhabited

def Event.anchor? : Event → Option String
  | .scalar p _ _ | .sequenceStart p | .mappingStart p => p.anchor
  | _ => none

/-- Numbers the aliases among the events from the one at `position` on; one without an anchor
    before it is an error.  `names` holds the anchors so far.  The second list tells for every
    number where its nodes begin. -/
def number? : (position : Nat) → (names : List (String × Nat)) → List Event →
    Option (List Numbered × List (Nat × Nat))
  | _, _, [] => some ([], [])
  | position, names, .reference name :: rest => do
    let id ← names.lookup name
    let (events, places) ← number? (position + 1) names rest
    return (.reference id :: events, places)
  | position, names, e :: rest =>
    match e.anchor? with
    | none => do
      let (events, places) ← number? (position + 1) names rest
      return (.node e :: events, places)
    | some name => do
      let id := names.length
      let names := (name, id) :: names.filter (·.1 ≠ name)
      let (events, places) ← number? (position + 1) names rest
      return (.node e :: events, (id, position) :: places)

/-- The numbered events of a text, and where the nodes begin that aliases stand for. -/
structure Source where
  events : List Numbered
  /-- The last place of a number comes first. -/
  places : List (Nat × Nat)

def Source.ofEvents? (events : List Event) : Option Source := do
  let (numbered, places) ← number? 0 [] events
  return ⟨numbered, places.reverse⟩

def Source.at? (source : Source) (id : Nat) : Option (List Numbered) :=
  (source.places.lookup id).map source.events.drop

def Source.maxJumps (source : Source) : Nat := 100 * source.events.length

/-! ### Documents -/

def maxNesting : Nat := 128

/-- What was read, the events that are left, and how many aliases were followed. -/
abbrev Built (α : Type) := α × List Numbered × Nat

/-- A collection under the tag of its own that it may have; other tags of collections do not
    count. -/
def tagWith : Option Tag → Document → Document
  | some (.own name), d => .tagged name d
  | _, d => d

mutual

def readDocument? (source : Source) :
    (fuel depth : Nat) → Built Unit → Option (Built Document)
  | 0, _, _ => none
  | fuel + 1, depth, (_, events, jumps) =>
    match events with
    | .reference id :: rest => do
      if jumps + 1 > source.maxJumps then none
      let (d, _, jumps) ← readDocument? source fuel depth ((), ← source.at? id, jumps + 1)
      return (d, rest, jumps)
    | .node (.scalar p plain text) :: rest => do
      return (← ofScalar? p.tag plain text, rest, jumps)
    | .node (.sequenceStart p) :: rest =>
      match depth with
      | 0 => none
      | depth + 1 => do
        let (items, rest) ← readItems? source fuel depth ((), rest, jumps)
        return (tagWith p.tag (.sequence items), rest)
    | .node (.mappingStart p) :: rest =>
      match depth with
      | 0 => none
      | depth + 1 => do
        let (entries, rest) ← readEntries? source fuel depth [] ((), rest, jumps)
        return (tagWith p.tag (.mapping entries), rest)
    | _ => none

def readItems? (source : Source) :
    (fuel depth : Nat) → Built Unit → Option (Built (List Document))
  | 0, _, _ => none
  | fuel + 1, depth, (_, events, jumps) =>
    match events with
    | .node .sequenceEnd :: rest => some ([], rest, jumps)
    | events => do
      let (d, rest) ← readDocument? source fuel depth ((), events, jumps)
      let (ds, rest) ← readItems? source fuel depth ((), rest)
      return (d :: ds, rest)

/-- The entries of a mapping up to its end, after those already read; no two may have the same
    key. -/
def readEntries? (source : Source) :
    (fuel depth : Nat) → List (Document × Document) → Built Unit →
    Option (Built (List (Document × Document)))
  | 0, _, _, _ => none
  | fuel + 1, depth, entries, (_, events, jumps) =>
    match events with
    | .node .mappingEnd :: rest => some (entries, rest, jumps)
    | events => do
      let (key, rest) ← readDocument? source fuel depth ((), events, jumps)
      if entries.any fun (k, _) => k.same key then none
      let (d, rest) ← readDocument? source fuel depth ((), rest)
      readEntries? source fuel depth (entries ++ [(key, d)]) ((), rest)

end

def Document.ofEvents? (events : List Event) : Option Document := do
  if events.isEmpty then return .null
  let source ← Source.ofEvents? events
  let fuel := (maxNesting + 2) * (events.length + 3)
  let (d, rest, _) ← readDocument? source fuel maxNesting ((), source.events, 0)
  if rest.isEmpty then some d else none

def Document.read? (text : List Char) : Option Document := do
  Document.ofEvents? (← events? (← tokens? text))

end LayeredConfig.Yaml
