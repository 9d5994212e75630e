/-
  LayeredConfig/Toml/Reader.lean
  ==============================
  **Reading TOML.**

  A text is read line by line into statements, and the statements are put
  together to a document.  Values nest 79 deep, and so many keys make a path.
-/
import LayeredConfig.Toml.Document
import LayeredConfig.Toml.Numbers
import LayeredConfig.Toml.Strings

namespace LayeredConfig.Toml

/-- How deep values may nest, and how many keys a path may have. -/
def maxNesting : Nat := 79

/-! ### Keys -/

def isKeyChar (c : Char) : Bool := c.isAlphanum || c = '_' || c = '-'

def readKey? (s : List Char) : Option (String × List Char) :=
  match s with
  | '"' :: rest =>
    (readBasic? (rest.length + 1) rest).map fun (cs, rest) => (String.ofList cs, rest)
  | '\'' :: rest => (readLiteral? rest).map fun (cs, rest) => (String.ofList cs, rest)
  | s =>
    let key := s.takeWhile isKeyChar
    if key.isEmpty then none else some (String.ofList key, s.dropWhile isKeyChar)

def readKeys? : (fuel : Nat) → List Char → Option (List String × List Char)
  | 0, _ => none
  | fuel + 1, s => do
    let (key, rest) ← readKey? (skipBlanks s)
    match skipBlanks rest with
    | '.' :: rest =>
      let (keys, rest) ← readKeys? fuel rest
      return (key :: keys, rest)
    | rest => return ([key], rest)

/-- A dotted key: the keys before the last one, and the last one. -/
def readPath? (s : List Char) : Option ((List String × String) × List Char) := do
  let (keys, rest) ← readKeys? (maxNesting + 1) s
  if keys.length > maxNesting then none
  return ((keys.dropLast, keys.getLast?.getD ""), rest)

/-! ### Values -/

mutual

/-- The value at the start of a text; `depth` values may still be opened inside one another. -/
def readValue? : (fuel depth : Nat) → List Char → Option (Node × List Char)
  | 0, _, _ => none
  | fuel + 1, depth, s =>
    match s with
    | '"' :: _ | '\'' :: _ =>
      (readString? s).map fun (cs, rest) => (.scalar (.string (String.ofList cs)), rest)
    | '[' :: rest =>
      match depth with
      | 0 => none
      | depth + 1 => do
        let (items, rest) ← readItems? fuel depth rest
        return (.array items, rest)
    | '\x7b' :: rest =>
      match depth with
      | 0 => none
      | depth + 1 =>
        match skipBlanks rest with
        | '\x7d' :: rest => some (.table .braces [], rest)
        | rest => do
          let (pairs, rest) ← readPairs? fuel depth rest
          return (.table .braces (← Entries.ofAssignments? pairs), rest)
    | 't' :: 'r' :: 'u' :: 'e' :: rest => some (.scalar (.boolean true), rest)
    | 'f' :: 'a' :: 'l' :: 's' :: 'e' :: rest => some (.scalar (.boolean false), rest)
    | s => (readNumber? s).map fun (v, rest) => (.scalar v, rest)

/-- The items of an array up to its closing bracket; a comma may follow the last one. -/
def readItems? : (fuel depth : Nat) → List Char → Option (List Node × List Char)
  | 0, _, _ => none
  | fuel + 1, depth, s =>
    match skipLines s.length s with
    | ']' :: rest => some ([], rest)
    | s => do
      let (item, rest) ← readValue? fuel depth s
      match skipLines rest.length rest with
      | ',' :: rest =>
        let (items, rest) ← readItems? fuel depth rest
        return (item :: items, rest)
      | ']' :: rest => return ([item], rest)
      | _ => none

def readPairs? : (fuel depth : Nat) → List Char →
    Option (List (List String × String × Node) × List Char)
  | 0, _, _ => none
  | fuel + 1, depth, s => do
    let ((path, key), rest) ← readPath? s
    let rest ← match rest with
      | '=' :: rest => some rest
      | _ => none
    let (node, rest) ← readValue? fuel depth (skipBlanks rest)
    match skipBlanks rest with
    | ',' :: rest =>
      let (pairs, rest) ← readPairs? fuel depth rest
      return ((path, key, node) :: pairs, rest)
    | '\x7d' :: rest => return ([(path, key, node)], rest)
    | _ => none

end

/-! ### Statements -/

def readStatement? (s : List Char) : Option (Statement × List Char) :=
  match s with
  | '[' :: '[' :: rest => do
    let ((path, key), rest) ← readPath? rest
    match rest with
    | ']' :: ']' :: rest => return (.arrayHeader path key, ← readLineEnd? rest)
    | _ => none
  | '[' :: rest => do
    let ((path, key), rest) ← readPath? rest
    match rest with
    | ']' :: rest => return (.header path key, ← readLineEnd? rest)
    | _ => none
  | s => do
    let ((path, key), rest) ← readPath? s
    match rest with
    | '=' :: rest =>
      let rest := skipBlanks rest
      let (node, rest) ← readValue? (2 * rest.length + 2) maxNesting rest
      return (.assign path key node, ← readLineEnd? rest)
    | _ => none

def readStatements? : (fuel : Nat) → List Char → Option (List Statement)
  | 0, _ => none
  | fuel + 1, s =>
    match skipBlanks s with
    | [] => some []
    | '#' :: rest => do readStatements? fuel (← readLineEnd? ('#' :: rest))
    | s =>
      match readNewline? s with
      | some rest => readStatements? fuel rest
      | none => do
        let (statement, rest) ← readStatement? s
        let statements ← readStatements? fuel rest
        return statement :: statements

def dropMark : List Char → List Char
  | c :: rest => if c = '\ufeff' then rest else c :: rest
  | [] => []

def readTable? (text : List Char) : Option Table := do
  let text := dropMark text
  let statements ← readStatements? (text.length + 1) text
  (← Entries.ofStatements? statements).table?

end LayeredConfig.Toml
