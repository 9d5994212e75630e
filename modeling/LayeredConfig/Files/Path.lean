/-
  LayeredConfig/Files/Path.lean
  =============================
  **The text of file paths.**

  A path is written in letters, and its parts are separated by slashes.  Empty
  parts and the part `.` say nothing, except that an empty first part makes the
  path absolute and that a path may begin with `.`.  The last part, unless it is
  `..`, is the file's name, and the name ends in an extension if it holds a point
  that is not its first letter.

  The letters are characters, as long as the path is a text.  A file system may
  hold names that are no text; these are written in characters and in octets
  that spell none (`Piece`).  A slash or a point is never part of such octets, so
  paths are cut in the same way, whatever they are written in (`Letter`).

  `overlay` names the file beside a file that holds what differs in one
  environment: `app.toml` has `app.prod.toml` beside it.  The new name is put
  together as a text, and what is no character in the old one does not survive.
-/
import LayeredConfig.Text.Split

namespace LayeredConfig.Path

/-! ### Letters -/

/-- What paths are written in: characters, and maybe letters that are none. -/
class Letter (α : Type) where
  ofChar : Char → α
  char? : α → Option Char
  char?_eq_some {a : α} {c : Char} : char? a = some c ↔ a = ofChar c

instance : Letter Char where
  ofChar c := c
  char? := some
  char?_eq_some := by
    intro a c
    exact Option.some_inj

/-- A character of a path, or octets that spell none, as many as are replaced by one character when
    the path is shown. -/
inductive Piece where
  | char (c : Char)
  | stray (octets : List UInt8)
deriving DecidableEq, Repr

instance : Letter Piece where
  ofChar := .char
  char?
    | .char c => some c
    | .stray _ => none
  char?_eq_some := by
    rintro (c | octets) d <;> simp

variable {α : Type} [Letter α]

def slash : α := Letter.ofChar '/'

def point : α := Letter.ofChar '.'

def ofText (text : List Char) : List α := text.map Letter.ofChar

def text? (s : List α) : Option (List Char) := s.mapM Letter.char?

def mark : Char := '\uFFFD'

/-- The text that stands for a path or a part of it, with a mark for each letter that is no
    character. -/
def lossy (s : List α) : List Char := s.map fun a => (Letter.char? a).getD mark

variable [DecidableEq α]

/-! ### Joining -/

def push (base rest : List α) : List α :=
  if rest.head? = some slash then rest
  else match base.getLast? with
    | none => rest
    | some last => if last = slash then base ++ rest else base ++ slash :: rest

def isAbsolute (path : List α) : Bool := path.head? = some slash

/-! ### Parts -/

def up : List α := [point, point]

/-- A part that says nothing where it stands. -/
def isIdle (part : List α) : Bool := part = [] || part = [point]

/-- Parts in reverse without the idle ones at their head; the first part of a path always counts. -/
def dropIdle : List (List α) → List (List α)
  | [first] => [first]
  | part :: before => if isIdle part then dropIdle before else part :: before
  | [] => []

/-- The name of the file and the parts before it in reverse, if the path ends in a name. -/
def nameAndBefore? (path : List α) : Option (List α × List (List α)) :=
  match dropIdle (Text.split slash path).reverse with
  | name :: before => if isIdle name || name = up then none else some (name, before)
  | [] => none

def fileName? (path : List α) : Option (List α) := (nameAndBefore? path).map (·.1)

def parentOf (before : List (List α)) : List α :=
  match dropIdle before with
  | [] => []
  | [[]] => [slash]
  | parts => Text.join [slash] parts.reverse

/-- The path with another name for its file; a path without a name gets one. -/
def withFileName (path name : List α) : List α :=
  match nameAndBefore? path with
  | some (_, before) => push (parentOf before) name
  | none => push path name

/-! ### Extensions -/

def splitLastPoint? : List α → Option (List α × List α)
  | [] => none
  | c :: rest =>
    match splitLastPoint? rest with
    | some (stem, extension) => some (c :: stem, extension)
    | none => if c = point then some ([], rest) else none

/-- A name's stem and its extension; a point at the very start begins no extension. -/
def stemAndExtension (name : List α) : List α × Option (List α) :=
  match splitLastPoint? name with
  | some (c :: stem, extension) => (c :: stem, some extension)
  | _ => (name, none)

def extension? (path : List α) : Option (List α) :=
  (fileName? path).bind fun name => (stemAndExtension name).2

/-- Whether the path's extension is one of these words, ASCII case aside. -/
def hasExtension (path : List α) (words : List String) : Bool :=
  match (extension? path).bind text? with
  | some extension => words.any fun word => extension.map Char.toLower == word.toList
  | none => false

/-! ### Overlays -/

/-- The name of the overlay of a file for an environment: the environment goes before the
    extension, or at the end if there is none. -/
def overlayName (name : List α) (environment : List Char) : List Char :=
  match stemAndExtension name with
  | (stem, some extension) => lossy stem ++ '.' :: environment ++ '.' :: lossy extension
  | (stem, none) => lossy stem ++ '.' :: environment

def overlayPath (path : List α) (environment : List Char) : List α :=
  withFileName path (ofText (overlayName ((fileName? path).getD []) environment))

def overlay (path environment : String) : String :=
  String.ofList (overlayPath path.toList environment.toList)

end LayeredConfig.Path
