/-
  LayeredConfig/Yaml/Cursor.lean
  ==============================
  **Places in a YAML text.**

  Indentation is structure in YAML, so a reader always knows the column it is
  in.  A cursor is what is left of the text, with the number of octets, of
  lines, and of characters in this line that lie behind.
-/

namespace LayeredConfig.Yaml

/-! ### Characters -/

def isAllowed (c : Char) : Bool :=
  let n := c.toNat
  n == 0x09 || n == 0x0A || n == 0x0D || (0x20 ≤ n && n ≤ 0x7E) || n == 0x85
    || (0xA0 ≤ n && n ≤ 0xFFFD) || 0x10000 ≤ n

def isBreak (c : Char) : Bool :=
  let n := c.toNat
  n == 0x0A || n == 0x0D || n == 0x85 || n == 0x2028 || n == 0x2029

def isBlank (c : Char) : Bool := c = ' ' || c = '\t'

def isNameChar (c : Char) : Bool := c.isAlphanum || c = '_' || c = '-'

def endsWord : List Char → Bool
  | [] => true
  | c :: _ => isBlank c || isBreak c

def endsLine : List Char → Bool
  | [] => true
  | c :: _ => isBreak c

def octetCount (text : List Char) : Nat := text.foldl (fun n c => n + c.utf8Size) 0

/-! ### Cursors -/

structure Cursor where
  rest : List Char
  octets : Nat
  line : Nat
  column : Nat
deriving Repr, Inhabited

namespace Cursor

def start (text : List Char) : Cursor := ⟨text, 0, 0, 0⟩

def skip (c : Cursor) (n : Nat) : Cursor :=
  let taken := c.rest.take n
  ⟨c.rest.drop n, c.octets + octetCount taken, c.line, c.column + taken.length⟩

def next (c : Cursor) : Cursor :=
  match c.rest with
  | [] => c
  | d :: rest => ⟨rest, c.octets + d.utf8Size, c.line, c.column + 1⟩

/-- Moves past a line break; carriage return and line feed together are one. -/
def nextLine (c : Cursor) : Cursor :=
  match c.rest with
  | '\r' :: '\n' :: rest => ⟨rest, c.octets + 2, c.line + 1, 0⟩
  | b :: rest => if isBreak b then ⟨rest, c.octets + b.utf8Size, c.line + 1, 0⟩ else c
  | [] => c

/-- The character that the line break under the cursor contributes to a scalar: the two separators
    of lines and paragraphs stand for themselves, all others for a line feed. -/
def lineBreak (c : Cursor) : List Char :=
  match c.rest with
  | b :: _ => if !isBreak b then [] else if b.toNat ≥ 0x2028 then [b] else ['\n']
  | [] => []

def skipWhile (p : Char → Bool) (c : Cursor) : Cursor := c.skip (c.rest.takeWhile p).length

/-- Moves past a byte-order mark at the start of a line; it takes a column there. -/
def skipMark (c : Cursor) : Cursor :=
  if c.column = 0 ∧ c.rest.head? = some '\ufeff' then c.next else c

def skipComment (c : Cursor) : Cursor :=
  match c.rest with
  | '#' :: _ => c.skipWhile (fun d => !isBreak d)
  | _ => c

/-- Whether a line begins here with three marks that begin or end a document. -/
def atDocumentMark (c : Cursor) : Bool :=
  c.column = 0 && match c.rest with
    | '-' :: '-' :: '-' :: rest => endsWord rest
    | '.' :: '.' :: '.' :: rest => endsWord rest
    | _ => false

end Cursor

end LayeredConfig.Yaml
