/-
  LayeredConfig/Json/Reader.lean
  ==============================
  **Reading JSON.**

  A document is one value with white space around it.  Of two members with one
  name the later counts.  Values may nest 127 deep.
-/
import LayeredConfig.Json.Document
import LayeredConfig.Json.Numeral

namespace LayeredConfig.Json

/-! ### White space and words -/

def isSpace (c : Char) : Bool := c = ' ' || c = '\n' || c = '\t' || c = '\r'

def skipSpace (s : List Char) : List Char := s.dropWhile isSpace

/-! ### Strings -/

def hexDigit? (c : Char) : Option Nat :=
  if c.isDigit then some (c.toNat - '0'.toNat)
  else if 'a' ≤ c ∧ c ≤ 'f' then some (c.toNat - 'a'.toNat + 10)
  else if 'A' ≤ c ∧ c ≤ 'F' then some (c.toNat - 'A'.toNat + 10)
  else none

def readHex4? : List Char → Option (Nat × List Char)
  | a :: b :: c :: d :: rest => do
    let a ← hexDigit? a
    let b ← hexDigit? b
    let c ← hexDigit? c
    let d ← hexDigit? d
    return (((a * 16 + b) * 16 + c) * 16 + d, rest)
  | _ => none

/-- The character of an escape by code units: a pair of surrogates stands for one character, and
    neither may stand alone. -/
def readUnicode? (s : List Char) : Option (Char × List Char) := do
  let (unit, rest) ← readHex4? s
  if 0xD800 ≤ unit ∧ unit < 0xDC00 then
    match rest with
    | '\\' :: 'u' :: rest =>
      let (low, rest) ← readHex4? rest
      if 0xDC00 ≤ low ∧ low < 0xE000 then
        return (Char.ofNat (0x10000 + (unit - 0xD800) * 0x400 + (low - 0xDC00)), rest)
      else none
    | _ => none
  else if 0xDC00 ≤ unit ∧ unit < 0xE000 then none
  else return (Char.ofNat unit, rest)

def escape? (c : Char) : Option Char :=
  match c with
  | '"' => some '"'
  | '\\' => some '\\'
  | '/' => some '/'
  | 'b' => some '\x08'
  | 'f' => some '\x0c'
  | 'n' => some '\n'
  | 'r' => some '\r'
  | 't' => some '\t'
  | _ => none

/-- The rest of a string behind its opening quotation mark, within `fuel` characters. -/
def readString? : (fuel : Nat) → List Char → Option (List Char × List Char)
  | 0, _ => none
  | fuel + 1, s =>
    match s with
    | '"' :: rest => some ([], rest)
    | '\\' :: 'u' :: rest => do
      let (c, rest) ← readUnicode? rest
      let (cs, rest) ← readString? fuel rest
      return (c :: cs, rest)
    | '\\' :: c :: rest => do
      let c ← escape? c
      let (cs, rest) ← readString? fuel rest
      return (c :: cs, rest)
    | c :: rest =>
      if c.toNat < 0x20 ∨ c = '\\' then none
      else do
        let (cs, rest) ← readString? fuel rest
        return (c :: cs, rest)
    | [] => none

/-! ### Values -/

def readWord? (s : List Char) : Option (Document × List Char) :=
  match s with
  | 'n' :: 'u' :: 'l' :: 'l' :: rest => some (.null, rest)
  | 't' :: 'r' :: 'u' :: 'e' :: rest => some (.boolean true, rest)
  | 'f' :: 'a' :: 'l' :: 's' :: 'e' :: rest => some (.boolean false, rest)
  | _ => none

mutual

/-- The value at the start of a text.  Of any two steps one takes a character, so twice the length
    of the text is fuel enough; `depth` values may still be opened inside one another. -/
def readValue? : (fuel depth : Nat) → List Char → Option (Document × List Char)
  | 0, _, _ => none
  | fuel + 1, depth, s =>
    match s with
    | '"' :: rest => do
      let (cs, rest) ← readString? fuel rest
      return (.string (String.ofList cs), rest)
    | '[' :: rest =>
      match depth with
      | 0 => none
      | depth + 1 =>
        match skipSpace rest with
        | ']' :: rest => some (.array [], rest)
        | rest => do
          let (items, rest) ← readItems? fuel depth rest
          return (.array items, rest)
    | '\x7b' :: rest =>
      match depth with
      | 0 => none
      | depth + 1 =>
        match skipSpace rest with
        | '\x7d' :: rest => some (.object [], rest)
        | rest => do
          let (members, rest) ← readMembers? fuel depth [] rest
          return (.object members, rest)
    | c :: _ =>
      if c = '-' ∨ c.isDigit then (readNumeral? s).map fun (n, rest) => (.number n, rest)
      else readWord? s
    | [] => none

/-- The items of an array up to its closing bracket, at least one. -/
def readItems? : (fuel depth : Nat) → List Char → Option (List Document × List Char)
  | 0, _, _ => none
  | fuel + 1, depth, s => do
    let (item, rest) ← readValue? fuel depth (skipSpace s)
    match skipSpace rest with
    | ',' :: rest =>
      let (items, rest) ← readItems? fuel depth rest
      return (item :: items, rest)
    | ']' :: rest => return ([item], rest)
    | _ => none

/-- The members of an object up to its closing brace, at least one, after those already read. -/
def readMembers? : (fuel depth : Nat) → List (String × Document) → List Char →
    Option (List (String × Document) × List Char)
  | 0, _, _, _ => none
  | fuel + 1, depth, members, s =>
    match skipSpace s with
    | '"' :: rest => do
      let (name, rest) ← readString? fuel rest
      match skipSpace rest with
      | ':' :: rest =>
        let (d, rest) ← readValue? fuel depth (skipSpace rest)
        let members := putMember members (String.ofList name) d
        match skipSpace rest with
        | ',' :: rest => readMembers? fuel depth members rest
        | '\x7d' :: rest => return (members, rest)
        | _ => none
      | _ => none
    | _ => none

end

def maxNesting : Nat := 127

def Document.read? (text : List Char) : Option Document := do
  let (d, rest) ← readValue? (2 * text.length + 2) maxNesting (skipSpace text)
  if (skipSpace rest).isEmpty then some d else none

end LayeredConfig.Json
