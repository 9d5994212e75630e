/-
  LayeredConfig/Files/Format.lean
  ===============================
  **Files that hold tables.**

  Three formats are known, told apart by the extension of a file's name, and a
  host may add parsers of its own.  Every parser has a number by which it is
  known again: two parsers with the same behaviour are still two.  A file that
  is missing holds the empty table.
-/
import LayeredConfig.Files.Disk
import LayeredConfig.Files.Path
import LayeredConfig.Json.Reader
import LayeredConfig.Outcome
import LayeredConfig.Toml.Reader
import LayeredConfig.Yaml.Reader

namespace LayeredConfig

/-! ### Formats -/

inductive Format where
  | toml
  | json
  | yaml
deriving DecidableEq, Repr

namespace Format

def name : Format → String
  | .toml => "toml"
  | .json => "json"
  | .yaml => "yaml"

def extensions : Format → List String
  | .toml => ["toml"]
  | .json => ["json"]
  | .yaml => ["yaml", "yml"]

/-- Whether the name of the file at a path has an extension of the format. -/
def supports {α : Type} [Path.Letter α] [DecidableEq α] (format : Format) (path : List α) : Bool :=
  Path.hasExtension path format.extensions

/-- The table of a JSON document: it must be an object. -/
def ofJson : Option Json.Document → Except ParseFault Table
  | none => .error .malformed
  | some d =>
    match d.value? with
    | some (.table t) => .ok t
    | _ => .error .notAnObject

/-- The table of a YAML document: it must be a mapping, or null, which is the empty table. -/
def ofYaml : Option Yaml.Document → Except ParseFault Table
  | none => .error .malformed
  | some d =>
    match d.value? with
    | some (.table t) => .ok t
    | none => .ok []
    | some _ => .error .notAMapping

def readTable (format : Format) (text : String) : Except ParseFault Table :=
  match format with
  | .toml =>
    match Toml.readTable? text.toList with
    | some t => .ok t
    | none => .error .malformed
  | .json => ofJson (Json.Document.read? text.toList)
  | .yaml => ofYaml (Yaml.Document.read? text.toList)

def tableAt (format : Format) (disk : Disk) (path : String) : Except Error Table :=
  match disk.read path with
  | .missing => .ok []
  | .unreadable => .error (.io path)
  | .text content =>
    match format.readTable content with
    | .ok t => .ok t
    | .error fault => .error (.parse path fault)

end Format

/-! ### Parsers -/

/-- A parser of the host.  What it takes and what it makes of a file is up to the host, but for the
    reports of circles: these are for reads to make. -/
structure HostParser where
  name : String
  supports : String → Bool
  parse : Disk → String → Except Error Table
  parse_ne_cyclic : ∀ disk path listed closing,
    parse disk path ≠ .error (.cyclic listed closing)

inductive FileParser.Kind where
  | format (format : Format)
  | host (parser : HostParser)

/-- A parser that takes every path with one of the suffixes, and has the same table for all of
    them. -/
def FileParser.Kind.fixed (name : String) (suffixes : List String) (table : Table) : Kind :=
  .host {
    name
    supports := fun path => suffixes.any fun s => s.toList.isSuffixOf path.toList
    parse := fun _ _ => .ok table
    parse_ne_cyclic := fun _ _ _ _ => nofun }

structure FileParser where
  id : Nat
  kind : FileParser.Kind

namespace FileParser

def name (p : FileParser) : String :=
  match p.kind with
  | .format f => f.name
  | .host h => h.name

/-- Whether a parser takes the file at a path. -/
def supports (p : FileParser) (path : String) : Bool :=
  match p.kind with
  | .format f => f.supports path.toList
  | .host h => h.supports path

def parse (p : FileParser) (disk : Disk) (path : String) : Outcome Table := do
  Outcome.note (.parsed p.id path)
  match p.kind with
  | .format f => Outcome.ofExcept (f.tableAt disk path)
  | .host h => Outcome.ofExcept (h.parse disk path)

end FileParser

end LayeredConfig
