/-
  LayeredConfig/Yaml/Token.lean
  =============================
  **Tokens of YAML.**

  Indentation and marks are turned into tokens that open and close blocks.  A
  key need not announce itself: whether a scalar, an alias or a bracket was a
  key is known only at the colon behind it.  So each of them is remembered as a
  possible key while one line and 1024 octets last, and at the colon the
  tokens of a key are put in front of it, into the list of tokens already read.
-/
import LayeredConfig.Yaml.Block
import LayeredConfig.Yaml.Flow
import LayeredConfig.Yaml.Tag

namespace LayeredConfig.Yaml

inductive Token where
  | version (major minor : Nat)
  | tagHandle (handle : List Char) (start : TagText)
  | documentStart
  | documentEnd
  | streamEnd
  | blockSequenceStart
  | blockMappingStart
  | blockEnd
  | flowSequenceStart
  | flowSequenceEnd
  | flowMappingStart
  | flowMappingEnd
  | blockEntry
  | flowEntry
  | key
  | value
  | reference (name : List Char)
  | anchor (name : List Char)
  /-- A tag as a handle and the rest; without a handle the rest is the whole tag. -/
  | tag (handle : List Char) (suffix : TagText)
  | scalar (plain : Bool) (text : List Char)
deriving DecidableEq, Repr, Inhabited

/-! ### Names, tags and directives -/

def readAnchor? (c : Cursor) : Option (List Char × Cursor) :=
  let name := c.rest.takeWhile isNameChar
  let c := c.skip name.length
  let ended := endsWord c.rest || match c.rest with
    | d :: _ => ['?', ':', ',', ']', '\x7d', '%', '@', '\x60'].contains d
    | [] => true
  if name.isEmpty || !ended then none else some (name, c)

def readTag? (inBrackets : Bool) (c : Cursor) : Option (Token × Cursor) := do
  let (token, c) ← match c.rest with
    | '!' :: '<' :: _ => do
      let (suffix, c) ← readTagChars? true c.rest.length (c.skip 2)
      match suffix, c.rest with
      | _ :: _, '>' :: _ => some (Token.tag [] (TagText.untilNull suffix), c.next)
      | _, _ => none
    | _ => do
      let (handle, c) ← readHandle? c
      let (suffix, c) ← readTagChars? false c.rest.length c
      if isClosedHandle handle then
        if suffix.isEmpty then none else some (Token.tag handle (TagText.untilNull suffix), c)
      else
        let suffix := TagText.untilNull ((handle.drop 1).map some ++ suffix)
        some (if suffix.isEmpty then Token.tag [] [some '!'] else Token.tag ['!'] suffix, c)
  let ended := endsWord c.rest || (inBrackets && c.rest.head? = some ',')
  if ended then some (token, c) else none

def readVersionPart? (c : Cursor) : Option (Nat × Cursor) :=
  let ds := c.rest.takeWhile Char.isDigit
  if ds.isEmpty || ds.length > 9 then none
  else some (Number.ofDigits ds, c.skip ds.length)

def readDirective? (c : Cursor) : Option (Token × Cursor) := do
  let c := c.next
  let name := c.rest.takeWhile isNameChar
  let c := c.skip name.length
  if !endsWord c.rest then none
  let c := c.skipWhile isBlank
  let (token, c) ←
    if name = ['Y', 'A', 'M', 'L'] then do
      let (major, c) ← readVersionPart? c
      if c.rest.head? ≠ some '.' then none
      let (minor, c) ← readVersionPart? c.next
      some (Token.version major minor, c)
    else if name = ['T', 'A', 'G'] then do
      let (handle, c) ← readHandle? c
      if handle ≠ ['!'] ∧ !isClosedHandle handle then none
      if !c.rest.head?.any isBlank then none
      let (start, c) ← readTagChars? true c.rest.length (c.skipWhile isBlank)
      if start.isEmpty || !endsWord c.rest then none
      some (Token.tagHandle handle (TagText.untilNull start), c)
    else none
  let c := (c.skipWhile isBlank).skipComment
  if endsLine c.rest then some (token, c.nextLine) else none

/-! ### The lexer -/

/-- Something that may turn out to be a key: the number of tokens before it, its place, and whether
    nothing else can stand there. -/
structure PossibleKey where
  required : Bool
  number : Nat
  at_ : Cursor

structure Lexer where
  cursor : Cursor
  /-- The columns of the open blocks, innermost first; no block is column -1. -/
  indent : Int
  outerIndents : List Int
  keyAllowed : Bool
  /-- The possible key of the text outside of brackets or in the innermost ones. -/
  possibleKey : Option PossibleKey
  /-- One for every pair of brackets that is open, innermost first: the possible keys around. -/
  outerKeys : List (Option PossibleKey)
  /-- The tokens read so far, the last one first, and their number. -/
  tokens : List Token
  count : Nat

namespace Lexer

def start (text : List Char) : Lexer := ⟨Cursor.start text, -1, [], true, none, [], [], 0⟩

def inBrackets (l : Lexer) : Bool := !l.outerKeys.isEmpty

def push (l : Lexer) (token : Token) : Lexer :=
  { l with tokens := token :: l.tokens, count := l.count + 1 }

def insert (l : Lexer) (number : Nat) (token : Token) : Lexer :=
  let behind := l.count - number
  { l with
    tokens := l.tokens.take behind ++ token :: l.tokens.drop behind
    count := l.count + 1 }

/-! #### Possible keys -/

/-- Forgets the possible key of this level; one that is required must not be forgotten. -/
def dropKey? (l : Lexer) : Option Lexer :=
  match l.possibleKey with
  | some k => if k.required then none else some { l with possibleKey := none }
  | none => some l

def saveKey? (l : Lexer) : Option Lexer :=
  if l.keyAllowed then do
    let required := !l.inBrackets && l.indent = l.cursor.column
    let l ← l.dropKey?
    return { l with possibleKey := some ⟨required, l.count, l.cursor⟩ }
  else some l

/-- A possible key, unless a line or 1024 octets have passed since. -/
def fresh? (c : Cursor) : Option PossibleKey → Option (Option PossibleKey)
  | none => some none
  | some k =>
    if k.at_.line < c.line ∨ k.at_.octets + 1024 < c.octets then
      if k.required then none else some none
    else some (some k)

def dropStale? (l : Lexer) : Option Lexer := do
  let key ← fresh? l.cursor l.possibleKey
  let outer ← l.outerKeys.mapM (fresh? l.cursor)
  return { l with possibleKey := key, outerKeys := outer }

/-! #### Blocks -/

/-- Opens a block at a column if it lies deeper than the one around it; its token goes behind the
    first `number` tokens. -/
def roll (l : Lexer) (column number : Nat) (token : Token) : Lexer :=
  if !l.inBrackets && l.indent < column then
    { l.insert number token with indent := column, outerIndents := l.indent :: l.outerIndents }
  else l

/-- Closes blocks from a list, innermost first, as long as they lie deeper than a column. -/
def unrollFrom (column : Int) (l : Lexer) : List Int → Lexer
  | [] => l
  | outer :: outers =>
    if l.indent > column then
      unrollFrom column { l.push .blockEnd with indent := outer, outerIndents := outers } outers
    else l

def unroll (l : Lexer) (column : Int) : Lexer :=
  if l.inBrackets then l else unrollFrom column l l.outerIndents

/-! #### White space between tokens -/

/-- Skips white space and comments.  A tab may not stand where a key may, and a byte-order mark may
    stand only at the start of a line. -/
def skipSpace : (fuel : Nat) → Lexer → Lexer
  | 0, l => l
  | fuel + 1, l =>
    let tabs := l.inBrackets || !l.keyAllowed
    let c := (l.cursor.skipMark.skipWhile fun d => d = ' ' || (tabs && d = '\t')).skipComment
    match c.rest with
    | d :: _ =>
      if isBreak d then
        skipSpace fuel { l with cursor := c.nextLine, keyAllowed := l.keyAllowed || !l.inBrackets }
      else { l with cursor := c }
    | [] => { l with cursor := c }

/-! #### Single tokens -/

def mark (l : Lexer) (length : Nat) (token : Token) (keyAllowed : Bool) : Lexer :=
  { l.push token with cursor := l.cursor.skip length, keyAllowed }

/-- A directive, or the start or the end of a document: closes all blocks. -/
def outermost? (l : Lexer) : Option Lexer := do
  let l ← (l.unroll (-1)).dropKey?
  return { l with keyAllowed := false }

def openBracket? (l : Lexer) (token : Token) : Option Lexer := do
  let l ← l.saveKey?
  return { l.mark 1 token true with
    possibleKey := none, outerKeys := l.possibleKey :: l.outerKeys }

def closeBracket? (l : Lexer) (token : Token) : Option Lexer := do
  let l ← l.dropKey?
  let l := match l.outerKeys with
    | key :: outer => { l with possibleKey := key, outerKeys := outer }
    | [] => l
  return l.mark 1 token false

def blockEntry? (l : Lexer) : Option Lexer := do
  if !l.inBrackets && !l.keyAllowed then none
  let l ← (l.roll l.cursor.column l.count .blockSequenceStart).dropKey?
  return l.mark 1 .blockEntry true

def explicitKey? (l : Lexer) : Option Lexer := do
  if !l.inBrackets && !l.keyAllowed then none
  let l ← (l.roll l.cursor.column l.count .blockMappingStart).dropKey?
  return l.mark 1 .key !l.inBrackets

def value? (l : Lexer) : Option Lexer :=
  match l.possibleKey with
  | some k =>
    let l := (l.insert k.number .key).roll k.at_.column k.number .blockMappingStart
    some ({ l with possibleKey := none }.mark 1 .value false)
  | none => do
    if !l.inBrackets && !l.keyAllowed then none
    let l := l.roll l.cursor.column l.count .blockMappingStart
    return l.mark 1 .value !l.inBrackets

def item? (l : Lexer) (read : Lexer → Option (Token × Bool × Cursor)) : Option Lexer := do
  let l ← l.saveKey?
  let (token, keyAllowed, cursor) ← read l
  return { l.push token with cursor, keyAllowed }

def startsPlain (inBrackets : Bool) (c : Char) (rest : List Char) : Bool :=
  !(isBlank c || isBreak c || ['-', '?', ':', ',', '[', ']', '\x7b', '\x7d', '#', '&', '*', '!',
      '|', '>', '\'', '"', '%', '@', '\x60'].contains c)
    || (c = '-' && !rest.head?.any isBlank)
    || (!inBrackets && (c = '?' || c = ':') && !endsWord rest)

/-- Reads the token under the cursor; the text has fewer than `fuel` more characters. -/
def token? (fuel : Nat) (l : Lexer) : Option Lexer :=
  match l.cursor.rest with
  | [] => none
  | c :: rest =>
    let bracketed := l.inBrackets
    if l.cursor.column = 0 && c = '%' then do
      let l ← l.outermost?
      let (token, cursor) ← readDirective? l.cursor
      return { l.push token with cursor }
    else if l.cursor.atDocumentMark then do
      let l ← l.outermost?
      return l.mark 3 (if c = '-' then .documentStart else .documentEnd) false
    else if c = '[' then l.openBracket? .flowSequenceStart
    else if c = '\x7b' then l.openBracket? .flowMappingStart
    else if c = ']' then l.closeBracket? .flowSequenceEnd
    else if c = '\x7d' then l.closeBracket? .flowMappingEnd
    else if c = ',' then do
      let l ← l.dropKey?
      return l.mark 1 .flowEntry true
    else if c = '-' && endsWord rest then l.blockEntry?
    else if c = '?' && (bracketed || endsWord rest) then l.explicitKey?
    else if c = ':' && (bracketed || endsWord rest) then l.value?
    else if c = '*' then
      l.item? fun l => (readAnchor? l.cursor.next).map fun (name, c) => (.reference name, false, c)
    else if c = '&' then
      l.item? fun l => (readAnchor? l.cursor.next).map fun (name, c) => (.anchor name, false, c)
    else if c = '!' then
      l.item? fun l => (readTag? bracketed l.cursor).map fun (token, c) => (token, false, c)
    else if (c = '|' || c = '>') && !bracketed then do
      let l ← l.dropKey?
      let (text, cursor) ← readBlock? l.indent l.cursor
      return { l.push (.scalar false text) with cursor, keyAllowed := true }
    else if c = '\'' || c = '"' then
      l.item? fun l =>
        (readQuoted? c fuel l.cursor.next []).map fun (text, c) => (.scalar false text, false, c)
    else if startsPlain bracketed c rest then
      l.item? fun l =>
        (readPlain? bracketed (l.indent + 1).toNat fuel l.cursor Space.none []).map
          fun (text, broken, c) => (.scalar true text, broken, c)
    else none

def finish? (l : Lexer) : Option Lexer := do
  let l ← l.outermost?
  return l.push .streamEnd

/-- Reads tokens up to the end of the text, which has fewer than `fuel` more characters; each token
    takes at least one. -/
def run? : (fuel : Nat) → Lexer → Option Lexer
  | 0, _ => none
  | fuel + 1, l => do
    let l ← (skipSpace (fuel + 1) l).dropStale?
    let l := l.unroll l.cursor.column
    if l.cursor.rest.isEmpty then l.finish? else run? fuel (← l.token? (fuel + 1))

end Lexer

def tokens? (text : List Char) : Option (List Token) := do
  if !text.all isAllowed then none
  let l ← (Lexer.start text).run? (text.length + 1)
  return l.tokens.reverse

end LayeredConfig.Yaml
