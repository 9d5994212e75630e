/-
  LayeredConfig/Yaml/Flow.lean
  ============================
  **Scalars that are folded: plain ones and ones in quotes.**

  White space inside such a scalar is kept within a line.  Where it spans lines,
  one line break becomes a space and of several the first one is dropped.
-/
import LayeredConfig.Json.Reader
import LayeredConfig.Yaml.Cursor

namespace LayeredConfig.Yaml

/-! ### White space inside a scalar -/

/-- White space that was read and not yet decided upon.  Texts are kept in reverse. -/
structure Space where
  /-- Blanks within a line. -/
  blanks : List Char
  /-- Whether a line has ended. -/
  broken : Bool
  firstBreak : List Char
  moreBreaks : List Char

def Space.none : Space := ⟨[], false, [], []⟩

def Space.escaped : Space := ⟨[], true, [], []⟩

def Space.folded (s : Space) : List Char :=
  if !s.broken then s.blanks.reverse
  else if s.firstBreak = ['\n'] then
    if s.moreBreaks.isEmpty then [' '] else s.moreBreaks.reverse
  else s.firstBreak ++ s.moreBreaks.reverse

/-- Reads blanks and line breaks.  Behind a line break a tab must not stand before column
    `indent`. -/
def readSpace? (indent : Nat) : (fuel : Nat) → Cursor → Space → Option (Cursor × Space)
  | 0, c, s => some (c, s)
  | fuel + 1, c, s =>
    match c.rest with
    | [] => some (c, s)
    | b :: _ =>
      if isBlank b then
        if !s.broken then readSpace? indent fuel c.next { s with blanks := b :: s.blanks }
        else if b = '\t' ∧ c.column < indent then .none
        else readSpace? indent fuel c.next s
      else if isBreak b then
        if !s.broken then
          readSpace? indent fuel c.nextLine ⟨[], true, c.lineBreak, s.moreBreaks⟩
        else readSpace? indent fuel c.nextLine { s with moreBreaks := c.lineBreak ++ s.moreBreaks }
      else some (c, s)

/-! ### Plain scalars -/

def isFlowEnd (c : Char) : Bool := c = ',' || c = '[' || c = ']' || c = '\x7b' || c = '\x7d'

/-- How many characters of a word belong to a plain scalar.  A colon ends it before white space;
    between brackets so do some marks, and a colon before one of them is an error. -/
def wordLength? (inBrackets : Bool) : List Char → Option Nat
  | [] => some 0
  | c :: rest =>
    if isBlank c || isBreak c then some 0
    else if inBrackets && c = ':' && (rest.head?.any fun d => isFlowEnd d || d = '?') then .none
    else if (c = ':' && endsWord rest) || (inBrackets && isFlowEnd c) then some 0
    else (wordLength? inBrackets rest).map (· + 1)

/-- Reads on in a plain scalar whose text so far is `before`, in reverse, with `space` behind it.
    Gives the text, and whether a line ended behind it. -/
def readPlain? (inBrackets : Bool) (indent : Nat) :
    (fuel : Nat) → Cursor → Space → List Char → Option (List Char × Bool × Cursor)
  | 0, c, space, before => some (before.reverse, space.broken, c)
  | fuel + 1, c, space, before =>
    if c.atDocumentMark || c.rest.head? = some '#' then some (before.reverse, space.broken, c)
    else do
      let n ← wordLength? inBrackets c.rest
      let before := if n = 0 then before
        else (c.rest.take n).reverse ++ space.folded.reverse ++ before
      let broken := n = 0 && space.broken
      let c := c.skip n
      if c.rest.isEmpty || !endsWord c.rest then return (before.reverse, broken, c)
      let (c, space) ← readSpace? indent (fuel + 1) c Space.none
      if !inBrackets && c.column < indent then return (before.reverse, space.broken, c)
      readPlain? inBrackets indent fuel c space before

/-! ### Scalars in quotes -/

def escape? (c : Char) : Option Char :=
  match c with
  | '0' => some '\x00'
  | 'a' => some '\x07'
  | 'b' => some '\x08'
  | 't' | '\t' => some '\t'
  | 'n' => some '\n'
  | 'v' => some '\x0b'
  | 'f' => some '\x0c'
  | 'r' => some '\r'
  | 'e' => some '\x1b'
  | ' ' => some ' '
  | '"' => some '"'
  | '/' => some '/'
  | '\\' => some '\\'
  | 'N' => some '\u0085'
  | '_' => some '\u00a0'
  | 'L' => some '\u2028'
  | 'P' => some '\u2029'
  | _ => none

def escapeWidth? (c : Char) : Option Nat :=
  match c with
  | 'x' => some 2
  | 'u' => some 4
  | 'U' => some 8
  | _ => none

def readEscape? : List Char → Option (Char × Nat)
  | [] => none
  | c :: rest =>
    match escapeWidth? c with
    | none => (escape? c).map fun d => (d, 1)
    | some width => do
      let ds := rest.take width
      if ds.length ≠ width then none
      let values ← ds.mapM Json.hexDigit?
      let n := values.foldl (fun total d => 16 * total + d) 0
      if n.isValidChar then some (Char.ofNat n, width + 1) else none

/-- Reads on in a scalar in quotes, up to the closing one.  The text so far is `before`, in
    reverse. -/
def readQuoted? (quote : Char) :
    (fuel : Nat) → Cursor → List Char → Option (List Char × Cursor)
  | 0, _, _ => none
  | fuel + 1, c, before =>
    if c.atDocumentMark then none
    else match c.rest with
      | [] => none
      | d :: rest =>
        if d = quote then
          if quote = '\'' ∧ rest.head? = some '\'' then
            readQuoted? quote fuel (c.skip 2) ('\'' :: before)
          else some (before.reverse, c.next)
        else if d = '\\' ∧ quote = '"' then
          if !rest.isEmpty && endsLine rest then do
            let c := c.next.nextLine
            let (c, space) ← readSpace? 0 (fuel + 1) c Space.escaped
            readQuoted? quote fuel c (space.folded.reverse ++ before)
          else do
            let (e, n) ← readEscape? rest
            readQuoted? quote fuel (c.skip (n + 1)) (e :: before)
        else if isBlank d || isBreak d then do
          let (c, space) ← readSpace? 0 (fuel + 1) c Space.none
          readQuoted? quote fuel c (space.folded.reverse ++ before)
        else readQuoted? quote fuel c.next (d :: before)

end LayeredConfig.Yaml
