/-
  LayeredConfig/Toml/Strings.lean
  ===============================
  **Strings, comments and blanks of TOML.**

  There are basic strings with escapes and literal strings without, each on one
  line or, in tripled quotes, over several.  A string over several lines loses
  a line break behind its opening quotes, has plain line feeds only, and may end
  in one or two quotation marks of its own in front of the closing three.
-/
import LayeredConfig.Json.Reader

namespace LayeredConfig.Toml

/-! ### Blanks and comments -/

def isBlank (c : Char) : Bool := c = ' ' || c = '\t'

def skipBlanks (s : List Char) : List Char := s.dropWhile isBlank

/-- Characters that may stand in a comment or in a literal string: tab, and everything that is no
    control character. -/
def isVisible (c : Char) : Bool := c = '\t' || (c.toNat ≥ 0x20 && c.toNat ≠ 0x7F)

def readNewline? : List Char → Option (List Char)
  | '\n' :: rest => some rest
  | '\r' :: '\n' :: rest => some rest
  | _ => none

def skipComment (s : List Char) : List Char :=
  match s with
  | '#' :: rest => rest.dropWhile isVisible
  | s => s

/-- What follows the end of a line, blanks and a comment before it included. -/
def readLineEnd? (s : List Char) : Option (List Char) :=
  match skipComment (skipBlanks s) with
  | [] => some []
  | rest => readNewline? rest

/-- Skips blanks, line breaks and comments; a comment must end in a line break.  Within `fuel`
    steps. -/
def skipLines : (fuel : Nat) → List Char → List Char
  | 0, s => s
  | fuel + 1, s =>
    match skipBlanks s with
    | '#' :: rest =>
      match readNewline? (skipComment ('#' :: rest)) with
      | some rest => skipLines fuel rest
      | none => '#' :: rest
    | s =>
      match readNewline? s with
      | some rest => skipLines fuel rest
      | none => s

/-! ### Escapes -/

def readHex? (n : Nat) (s : List Char) : Option (Nat × List Char) := do
  let ds := s.take n
  if ds.length ≠ n then none
  let values ← ds.mapM Json.hexDigit?
  return (values.foldl (fun total d => 16 * total + d) 0, s.drop n)

def charOf? (n : Nat) : Option Char := if n.isValidChar then some (Char.ofNat n) else none

def readEscape? : List Char → Option (Char × List Char)
  | 'b' :: rest => some ('\x08', rest)
  | 'f' :: rest => some ('\x0c', rest)
  | 'n' :: rest => some ('\n', rest)
  | 'r' :: rest => some ('\r', rest)
  | 't' :: rest => some ('\t', rest)
  | '\\' :: rest => some ('\\', rest)
  | '"' :: rest => some ('"', rest)
  | 'u' :: rest => do
    let (n, rest) ← readHex? 4 rest
    return (← charOf? n, rest)
  | 'U' :: rest => do
    let (n, rest) ← readHex? 8 rest
    return (← charOf? n, rest)
  | _ => none

/-! ### Strings on one line -/

def readBasic? : (fuel : Nat) → List Char → Option (List Char × List Char)
  | 0, _ => none
  | fuel + 1, s =>
    match s with
    | '"' :: rest => some ([], rest)
    | '\\' :: rest => do
      let (c, rest) ← readEscape? rest
      let (cs, rest) ← readBasic? fuel rest
      return (c :: cs, rest)
    | c :: rest =>
      if isVisible c then do
        let (cs, rest) ← readBasic? fuel rest
        return (c :: cs, rest)
      else none
    | [] => none

def readLiteral? (s : List Char) : Option (List Char × List Char) :=
  let body := s.takeWhile fun c => isVisible c && c ≠ '\''
  match s.drop body.length with
  | '\'' :: rest => some (body, rest)
  | _ => none

/-! ### Strings over several lines -/

/-- Quotation marks in a row: up to two belong to the string, three to five end it, all but the
    last three of them belonging to it. -/
inductive Marks where
  | inside
  | closing (own : Nat)
  | tooMany

def countMarks (mark : Char) (s : List Char) : Nat × Marks :=
  let n := (s.takeWhile (· = mark)).length
  (n, if n < 3 then .inside else if n ≤ 5 then .closing (n - 3) else .tooMany)

def skipBlankLines : (fuel : Nat) → List Char → List Char
  | 0, s => s
  | fuel + 1, s =>
    match readNewline? (skipBlanks s) with
    | some rest => skipBlankLines fuel rest
    | none => skipBlanks s

/-- The rest of a string over several lines, basic or literal. -/
def readLines? (mark : Char) : (fuel : Nat) → List Char → Option (List Char × List Char)
  | 0, _ => none
  | fuel + 1, s =>
    match s with
    | [] => none
    | c :: rest =>
      if c = mark then
        match countMarks mark s with
        | (_, .closing own) => some (List.replicate own mark, s.drop (own + 3))
        | (n, .inside) => do
          let (cs, rest) ← readLines? mark fuel (s.drop n)
          return (List.replicate n mark ++ cs, rest)
        | (_, .tooMany) => none
      else if c = '\\' ∧ mark = '"' then
        match readNewline? (skipBlanks rest) with
        | some rest => readLines? mark fuel (skipBlankLines rest.length rest)
        | none => do
          let (c, rest) ← readEscape? rest
          let (cs, rest) ← readLines? mark fuel rest
          return (c :: cs, rest)
      else match readNewline? s with
        | some rest => do
          let (cs, rest) ← readLines? mark fuel rest
          return ('\n' :: cs, rest)
        | none =>
          if isVisible c then do
            let (cs, rest) ← readLines? mark fuel rest
            return (c :: cs, rest)
          else none

/-! ### All strings -/

def readString? (s : List Char) : Option (List Char × List Char) :=
  match s with
  | '"' :: '"' :: '"' :: rest => readLines? '"' (rest.length + 1) ((readNewline? rest).getD rest)
  | '\'' :: '\'' :: '\'' :: rest =>
    readLines? '\'' (rest.length + 1) ((readNewline? rest).getD rest)
  | '"' :: rest => readBasic? (rest.length + 1) rest
  | '\'' :: rest => readLiteral? rest
  | _ => none

end LayeredConfig.Toml
