/-
  LayeredConfig/Files/Disk.lean
  =============================
  **The files that a configuration is read from.**

  A disk is a tree of directories below the working directory.  Reading follows
  a path part by part: what is not there is missing, and that is no error; a
  directory, a path that leads through a file, a name that no file can have,
  and a file that is not text cannot be read.  Above the working directory, as
  at the top of the file system, there are directories but nothing is known of
  what they hold, so every name is missing there.
-/
import LayeredConfig.Text.Split

namespace LayeredConfig

/-- A file or a directory.  A file whose bytes are not text has no text. -/
inductive Node where
  | file (text : Option String)
  | directory (entries : List (String × Node))
deriving Inhabited

abbrev Disk := List (String × Node)

inductive ReadResult where
  | missing
  | unreadable
  | text (content : String)
deriving DecidableEq, Repr

namespace Disk

/-! ### Reading -/

/-- The longest path, and the longest name in it, in bytes. -/
def maxPathBytes : Nat := 4095
def maxNameBytes : Nat := 255

/-- The node at the end of a path, seen from a directory inside others, innermost first. -/
inductive Found where
  | missing
  | blocked
  | node (n : Node)

/-- Follows the parts of a path.  `around` holds the directories from the current one outwards to
    the working directory; it is empty above that. -/
def follow : (around : List Disk) → (parts : List String) → Found
  | around, [] => .node (.directory (around.headD []))
  | around, part :: rest =>
    if part = "" ∨ part = "." then follow around rest
    else if part = ".." then follow around.tail rest
    else if part.utf8ByteSize > maxNameBytes then .blocked
    else match (around.headD []).lookup part, rest with
      | none, _ => .missing
      | some (.directory entries), rest => follow (entries :: around) rest
      | some (.file text), [] => .node (.file text)
      | some (.file _), _ :: _ => .blocked

def read (disk : Disk) (path : String) : ReadResult :=
  let parts := (Text.split '/' path.toList).map String.ofList
  if path.toList.contains '\x00' ∨ path.utf8ByteSize > maxPathBytes then .unreadable
  else if path = "" then .missing
  else match follow (if parts.head? = some "" then [] else [disk]) parts with
    | .missing => .missing
    | .blocked => .unreadable
    | .node (.file (some text)) => .text text
    | .node (.file none) => .unreadable
    | .node (.directory _) => .unreadable

/-! ### Writing -/

def put (disk : Disk) (name : String) (node : Node) : Disk :=
  (name, node) :: disk.filter (fun entry => entry.1 ≠ name)

def directory (disk : Disk) (name : String) : Disk :=
  match disk.lookup name with
  | some (.directory entries) => entries
  | _ => []

/-- Puts a node at the end of a path, with the directories on the way. -/
def writeAt : Disk → List String → Node → Disk
  | disk, [], _ => disk
  | disk, [name], node => disk.put name node
  | disk, name :: next :: rest, node =>
    disk.put name (.directory (writeAt (disk.directory name) (next :: rest) node))

def removeAt : Disk → List String → Disk
  | disk, [] => disk
  | disk, [name] => disk.filter (fun entry => entry.1 ≠ name)
  | disk, name :: next :: rest =>
    match disk.lookup name with
    | some (.directory entries) => disk.put name (.directory (removeAt entries (next :: rest)))
    | _ => disk

def namedParts (path : String) : List String :=
  ((Text.split '/' path.toList).map String.ofList).filter fun part => part ≠ "" ∧ part ≠ "."

def write (disk : Disk) (path : String) (node : Node) : Disk := writeAt disk (namedParts path) node

def remove (disk : Disk) (path : String) : Disk := removeAt disk (namedParts path)

end Disk

end LayeredConfig
