/-
  LayeredConfig/Yaml/Event.lean
  =============================
  **Events: the nodes of a document in the order of the text.**

  Tokens are read into a flat list of events, in which every collection has a
  start and an end.  What is left out in the text (a key, a value, an item) is
  an empty plain scalar.  Anchors and aliases still go by name, and a tag is
  spelled out in full.

  Every reader here takes the tokens that are left and the events so far, in
  reverse, and gives both back.  Of any three steps one takes a token, so the
  number of tokens bounds the depth.
-/
import LayeredConfig.Yaml.Token

namespace LayeredConfig.Yaml

/-- What a node carries in front: a name for aliases to refer to, and a tag. -/
structure Properties where
  anchor : Option String
  tag : Option Tag
deriving DecidableEq, Repr, Inhabited

inductive Event where
  | reference (name : String)
  | scalar (p : Properties) (plain : Bool) (text : List Char)
  | sequenceStart (p : Properties)
  | sequenceEnd
  | mappingStart (p : Properties)
  | mappingEnd
deriving DecidableEq, Repr, Inhabited

def Event.empty : Event := .scalar ⟨none, none⟩ true []

/-- The tokens that are left and the events so far, the last one first. -/
abbrev Parsing := List Token × List Event

abbrev Handles := List (List Char × TagText)

def defaultHandles : Handles :=
  [(['!'], [some '!']), (['!', '!'], "tag:yaml.org,2002:".toList.map some)]

/-! ### Properties -/

def fullTag? (handles : Handles) (handle : List Char) (suffix : TagText) : Option Tag :=
  if handle.isEmpty then some (Tag.ofText suffix)
  else (handles.lookup handle).map fun start => Tag.ofText (start ++ suffix)

/-- The anchor and the tag in front of a node, in either order. -/
def readProperties? (handles : Handles) (tokens : List Token) :
    Option (Properties × List Token) := do
  match tokens with
  | .anchor name :: .tag handle suffix :: rest | .tag handle suffix :: .anchor name :: rest =>
    return (⟨some (String.ofList name), ← fullTag? handles handle suffix⟩, rest)
  | .anchor name :: rest => return (⟨some (String.ofList name), none⟩, rest)
  | .tag handle suffix :: rest => return (⟨none, ← fullTag? handles handle suffix⟩, rest)
  | rest => return (⟨none, none⟩, rest)

/-! ### Nodes -/

def nextIn (tokens : List Token) (among : List Token) : Bool := tokens.head?.any among.contains

mutual

/-- A node.  In a block there may be block collections; as a key or a value in a block mapping, a
    sequence may stand without indentation of its own. -/
def readNode? (handles : Handles) (block bare : Bool) : (fuel : Nat) → Parsing → Option Parsing
  | 0, _ => none
  | fuel + 1, (tokens, events) =>
    match tokens with
    | .reference name :: rest => some (rest, .reference (String.ofList name) :: events)
    | tokens => do
      let (p, tokens) ← readProperties? handles tokens
      match tokens with
      | .blockEntry :: _ =>
        if bare then readBareItems? handles fuel (tokens, .sequenceStart p :: events)
        else if p.anchor.isSome || p.tag.isSome then
          return (tokens, .scalar p true [] :: events)
        else none
      | .scalar plain text :: rest => return (rest, .scalar p plain text :: events)
      | .flowSequenceStart :: rest =>
        readFlowItems? handles true fuel (rest, .sequenceStart p :: events)
      | .flowMappingStart :: rest =>
        readFlowEntries? handles true fuel (rest, .mappingStart p :: events)
      | tokens =>
        match block, tokens with
        | true, .blockSequenceStart :: rest =>
          readBlockItems? handles fuel (rest, .sequenceStart p :: events)
        | true, .blockMappingStart :: rest =>
          readBlockEntries? handles fuel (rest, .mappingStart p :: events)
        | _, tokens =>
          if p.anchor.isSome || p.tag.isSome then return (tokens, .scalar p true [] :: events)
          else none

def readBlockItems? (handles : Handles) : (fuel : Nat) → Parsing → Option Parsing
  | 0, _ => none
  | fuel + 1, (tokens, events) =>
    match tokens with
    | .blockEntry :: rest =>
      if nextIn rest [.blockEntry, .blockEnd] then
        readBlockItems? handles fuel (rest, .empty :: events)
      else do readBlockItems? handles fuel (← readNode? handles true false fuel (rest, events))
    | .blockEnd :: rest => some (rest, .sequenceEnd :: events)
    | _ => none

def readBareItems? (handles : Handles) : (fuel : Nat) → Parsing → Option Parsing
  | 0, _ => none
  | fuel + 1, (tokens, events) =>
    match tokens with
    | .blockEntry :: rest =>
      if nextIn rest [.blockEntry, .key, .value, .blockEnd] then
        readBareItems? handles fuel (rest, .empty :: events)
      else do readBareItems? handles fuel (← readNode? handles true false fuel (rest, events))
    | rest => some (rest, .sequenceEnd :: events)

def readBlockEntries? (handles : Handles) : (fuel : Nat) → Parsing → Option Parsing
  | 0, _ => none
  | fuel + 1, (tokens, events) =>
    match tokens with
    | .key :: rest =>
      if nextIn rest [.key, .value, .blockEnd] then
        readBlockValue? handles fuel (rest, .empty :: events)
      else do readBlockValue? handles fuel (← readNode? handles true true fuel (rest, events))
    | .blockEnd :: rest => some (rest, .mappingEnd :: events)
    | _ => none

def readBlockValue? (handles : Handles) : (fuel : Nat) → Parsing → Option Parsing
  | 0, _ => none
  | fuel + 1, (tokens, events) =>
    match tokens with
    | .value :: rest =>
      if nextIn rest [.key, .value, .blockEnd] then
        readBlockEntries? handles fuel (rest, .empty :: events)
      else do readBlockEntries? handles fuel (← readNode? handles true true fuel (rest, events))
    | rest => readBlockEntries? handles fuel (rest, .empty :: events)

/-- The items between brackets.  An item that begins as a key is a mapping of one entry. -/
def readFlowItems? (handles : Handles) (first : Bool) : (fuel : Nat) → Parsing → Option Parsing
  | 0, _ => none
  | fuel + 1, (tokens, events) => do
    let tokens ← match first, tokens with
      | true, tokens => some tokens
      | false, .flowSequenceEnd :: _ => some tokens
      | false, .flowEntry :: rest => some rest
      | false, _ => none
    match tokens with
    | .flowSequenceEnd :: rest => return (rest, .sequenceEnd :: events)
    | .key :: rest =>
      let events := .mappingStart ⟨none, none⟩ :: events
      -- a key that is left out takes the token behind it along
      let (rest, events) ←
        if nextIn rest [.value, .flowEntry, .flowSequenceEnd] then
          some (rest.drop 1, .empty :: events)
        else readNode? handles false false fuel (rest, events)
      let (rest, events) ← readFlowValue? handles .flowSequenceEnd fuel (rest, events)
      readFlowItems? handles false fuel (rest, .mappingEnd :: events)
    | tokens =>
      readFlowItems? handles false fuel (← readNode? handles false false fuel (tokens, events))

/-- The entries between braces.  Without a colon there is no value. -/
def readFlowEntries? (handles : Handles) (first : Bool) : (fuel : Nat) → Parsing → Option Parsing
  | 0, _ => none
  | fuel + 1, (tokens, events) => do
    let tokens ← match first, tokens with
      | true, tokens => some tokens
      | false, .flowMappingEnd :: _ => some tokens
      | false, .flowEntry :: rest => some rest
      | false, _ => none
    match tokens with
    | .flowMappingEnd :: rest => return (rest, .mappingEnd :: events)
    | .key :: rest =>
      let p ←
        if nextIn rest [.value, .flowEntry, .flowMappingEnd] then some (rest, .empty :: events)
        else readNode? handles false false fuel (rest, events)
      readFlowEntries? handles false fuel (← readFlowValue? handles .flowMappingEnd fuel p)
    | tokens =>
      let (rest, events) ← readNode? handles false false fuel (tokens, events)
      readFlowEntries? handles false fuel (rest, .empty :: events)

def readFlowValue? (handles : Handles) (closing : Token) :
    (fuel : Nat) → Parsing → Option Parsing
  | 0, _ => none
  | fuel + 1, (tokens, events) =>
    match tokens with
    | .value :: rest =>
      if nextIn rest [.flowEntry, closing] then some (rest, .empty :: events)
      else readNode? handles false false fuel (rest, events)
    | rest => some (rest, .empty :: events)

end

/-! ### Documents -/

/-- The directives in front of a document: at most one version, which must be 1.1 or 1.2, and
    handles, none of them twice. -/
def readDirectives? : (version : Bool) → Handles → List Token → Option (Handles × List Token)
  | version, handles, .version major minor :: rest =>
    if version || major ≠ 1 || (minor ≠ 1 && minor ≠ 2) then none
    else readDirectives? true handles rest
  | version, handles, .tagHandle handle start :: rest =>
    if (handles.lookup handle).isSome then none
    else readDirectives? version (handles ++ [(handle, start)]) rest
  | _, handles, rest => some (handles, rest)

def isDirective : Token → Bool
  | .version _ _ | .tagHandle _ _ => true
  | _ => false

/-- The events of the only document of a stream; none of a stream that is empty. -/
def events? (tokens : List Token) : Option (List Event) := do
  let fuel := 3 * tokens.length + 3
  match tokens with
  | [.streamEnd] => return []
  | first :: _ =>
    let (rest, events) ←
      if isDirective first || first = .documentStart then do
        let (handles, rest) ← readDirectives? false [] tokens
        match rest with
        | .documentStart :: rest =>
          if nextIn rest [.documentStart, .documentEnd, .streamEnd] || rest.head?.any isDirective
          then some (rest, [.empty])
          else readNode? (handles ++ defaultHandles) true false fuel (rest, [])
        | _ => none
      else readNode? defaultHandles true false fuel (tokens, [])
    if rest.dropWhile (· = .documentEnd) = [.streamEnd] then return events.reverse else none
  | [] => none

end LayeredConfig.Yaml
