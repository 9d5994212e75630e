/-
  LayeredConfig/Yaml/Tag.lean
  ===========================
  **Tags of YAML nodes.**

  A tag says what a node is.  It is written as a handle, which the document may
  have declared, and a suffix, or between angle brackets as a whole.  Characters
  that cannot stand in it are written octet by octet in percents, so a tag need
  not be text; one of the document's own that is not text says nothing.
-/
import LayeredConfig.Json.Reader
import LayeredConfig.Yaml.Cursor

namespace LayeredConfig.Yaml

/-- The characters of a tag; octets written in percents that are no character are `none`. -/
abbrev TagText := List (Option Char)

def TagText.untilNull (text : TagText) : TagText := text.takeWhile (· ≠ some '\x00')

/-- A tag in full.  One that begins with `!` is the document's own and goes by what follows; it
    says nothing if that is not text.  Any other belongs to everyone. -/
inductive Tag where
  | own (name : String)
  | illegible
  | common (uri : String)
deriving DecidableEq, Repr, Inhabited

def Tag.ofText : TagText → Tag
  | [some '!'] => .own "!"
  | some '!' :: rest =>
    match rest.mapM id with
    | some name => .own (String.ofList name)
    | none => .illegible
  | text => .common (String.ofList (text.map (·.getD '\ufffd')))

/-! ### Octets in percents -/

def readOctet? : List Char → Option (Nat × List Char)
  | '%' :: a :: b :: rest => do
    let a ← Json.hexDigit? a
    let b ← Json.hexDigit? b
    return (16 * a + b, rest)
  | _ => none

/-- How many octets a character has, by its first one, and what the first one contributes. -/
def octetsOf? (first : Nat) : Option (Nat × Nat) :=
  if first < 0x80 then some (1, first)
  else if 0xC0 ≤ first ∧ first < 0xE0 then some (2, first - 0xC0)
  else if 0xE0 ≤ first ∧ first < 0xF0 then some (3, first - 0xE0)
  else if 0xF0 ≤ first ∧ first < 0xF8 then some (4, first - 0xF0)
  else none

def readOctets? : (n : Nat) → (total : Nat) → List Char → Option (Nat × List Char)
  | 0, total, s => some (total, s)
  | n + 1, total, s => do
    let (octet, s) ← readOctet? s
    if 0x80 ≤ octet ∧ octet < 0xC0 then readOctets? n (total * 64 + (octet - 0x80)) s else none

/-- A character that is written in percents, and how many characters that takes.  Octets that have
    the form of a character need not be one: the code may be out of range or too small for them. -/
def readPercents? (s : List Char) : Option (Option Char × Nat) := do
  let (first, rest) ← readOctet? s
  let (n, start) ← octetsOf? first
  let (code, _) ← readOctets? (n - 1) start rest
  let c := Char.ofNat code
  return (if code.isValidChar ∧ c.utf8Size = n then some c else none, 3 * n)

/-! ### Reading -/

def isTagChar (verbatim : Bool) (c : Char) : Bool :=
  isNameChar c || [';', '/', '?', ':', '@', '&', '=', '+', '$', '.', '%', '!', '~', '*', '\'',
    '(', ')'].contains c || (verbatim && [',', '[', ']'].contains c)

def readTagChars? (verbatim : Bool) : (fuel : Nat) → Cursor → Option (TagText × Cursor)
  | 0, c => some ([], c)
  | fuel + 1, c =>
    match c.rest with
    | d :: _ =>
      if !isTagChar verbatim d then some ([], c)
      else do
        let (e, n) ← if d = '%' then readPercents? c.rest else some (some d, 1)
        let (es, c) ← readTagChars? verbatim fuel (c.skip n)
        return (e :: es, c)
    | [] => some ([], c)

/-- A handle of tags: `!`, `!name!` or the start `!name` of a tag without handle. -/
def readHandle? (c : Cursor) : Option (List Char × Cursor) :=
  match c.rest with
  | '!' :: rest =>
    let name := rest.takeWhile isNameChar
    let c := c.skip (name.length + 1)
    match c.rest with
    | '!' :: _ => some ('!' :: name ++ ['!'], c.next)
    | _ => some ('!' :: name, c)
  | _ => none

def isClosedHandle (handle : List Char) : Bool :=
  handle.length ≥ 2 && handle.getLast? = some '!'

end LayeredConfig.Yaml
