/-
  LayeredConfig/Yaml/Block.lean
  =============================
  **Block scalars.**

  Behind `|` or `>` a scalar reaches as far as its lines are indented.  With `|`
  its lines are kept; with `>` a line break between two lines that begin with no
  blank becomes a space.  `-` drops the line breaks at the end, `+` keeps them
  all, and otherwise one is kept.
-/
import LayeredConfig.Yaml.Cursor

namespace LayeredConfig.Yaml

inductive Chomping where
  | strip
  | clip
  | keep
deriving DecidableEq, Repr

def chomping? (c : Char) : Option Chomping :=
  if c = '+' then some .keep else if c = '-' then some .strip else none

/-- The indentation that a digit asks for; zero is none. -/
def increment? (c : Char) : Option Nat :=
  if c.isDigit && c ≠ '0' then some (c.toNat - '0'.toNat) else none

/-- The marks behind `|` or `>`, in either order: how to chomp, and how far the text is indented. -/
def readBlockMarks? (c : Cursor) : Option (Chomping × Option Nat × Cursor) :=
  match c.rest with
  | a :: rest =>
    match chomping? a with
    | some chomping =>
      match rest with
      | b :: _ =>
        if b.isDigit then (increment? b).map fun n => (chomping, some n, c.skip 2)
        else some (chomping, none, c.next)
      | [] => some (chomping, none, c.next)
    | none =>
      if a.isDigit then (increment? a).map fun n =>
        match rest.head?.bind chomping? with
        | some chomping => (chomping, some n, c.skip 2)
        | none => (.clip, some n, c.next)
      else some (.clip, none, c)
  | [] => some (.clip, none, c)

/-- Reads indentation and empty lines.  While the indentation is not known, the deepest one met so
    far is remembered; the text is `breaks`, in reverse. -/
def readEmptyLines? (indent : Option Nat) :
    (fuel : Nat) → Cursor → (deepest : Nat) → (breaks : List Char) →
    Option (Cursor × Nat × List Char)
  | 0, c, deepest, breaks => some (c, deepest, breaks)
  | fuel + 1, c, deepest, breaks =>
    let spaces := (c.rest.takeWhile (· = ' ')).length
    let c := c.skip (match indent with
      | some n => min spaces (n - c.column)
      | none => spaces)
    let deepest := max deepest c.column
    let short := match indent with
      | some n => decide (c.column < n)
      | none => true
    match c.rest with
    | [] => some (c, deepest, breaks)
    | d :: _ =>
      if short && d = '\t' then none
      else if isBreak d then
        readEmptyLines? indent fuel c.nextLine deepest (c.lineBreak ++ breaks)
      else some (c, deepest, breaks)

/-- A block scalar part way through.  Texts are kept in reverse. -/
structure BlockText where
  text : List Char
  /-- The break at the end of the last line. -/
  lineBreak : List Char
  /-- The breaks of the empty lines behind it. -/
  emptyLines : List Char
  /-- Whether the last line began with a blank. -/
  blankStart : Bool

def BlockText.join (folded : Bool) (t : BlockText) (startsBlank : Bool) : List Char :=
  let joint :=
    if folded && t.lineBreak = ['\n'] && !t.blankStart && !startsBlank then
      if t.emptyLines.isEmpty then [' '] else []
    else t.lineBreak
  t.emptyLines ++ joint ++ t.text

def readBlockLines? (folded : Bool) (indent : Nat) :
    (fuel : Nat) → Cursor → BlockText → Option (BlockText × Cursor)
  | 0, c, t => some (t, c)
  | fuel + 1, c, t =>
    match c.rest with
    | [] => some (t, c)
    | d :: _ =>
      if c.column ≠ indent then some (t, c)
      else do
        let startsBlank := isBlank d
        let line := c.rest.takeWhile (fun e => !isBreak e)
        let text := line.reverse ++ t.join folded startsBlank
        let c := c.skip line.length
        let lineBreak := c.lineBreak
        let (c, _, emptyLines) ←
          readEmptyLines? (some indent) (fuel + 1) c.nextLine 0 []
        readBlockLines? folded indent fuel c ⟨text, lineBreak, emptyLines, startsBlank⟩

def BlockText.chomp (t : BlockText) (chomping : Chomping) : List Char :=
  (match chomping with
    | .strip => t.text
    | .clip => t.lineBreak ++ t.text
    | .keep => t.emptyLines ++ t.lineBreak ++ t.text).reverse

def readBlock? (outer : Int) (c : Cursor) : Option (List Char × Cursor) := do
  let folded := c.rest.head? = some '>'
  let (chomping, increment, c) ← readBlockMarks? c.next
  let c := (c.skipWhile isBlank).skipComment
  if !endsLine c.rest then none
  let c := c.nextLine
  let indent : Option Nat := increment.map fun n => (max outer 0).toNat + n
  let (c, deepest, emptyLines) ← readEmptyLines? indent (c.rest.length + 1) c 0 []
  let indent := indent.getD (max deepest (max (outer + 1).toNat 1))
  let (t, c) ← readBlockLines? folded indent (c.rest.length + 1) c ⟨[], [], emptyLines, false⟩
  return (t.chomp chomping, c)

end LayeredConfig.Yaml
