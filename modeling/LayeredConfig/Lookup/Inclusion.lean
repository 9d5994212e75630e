/-
  LayeredConfig/Lookup/Inclusion.lean
  ===================================
  **Where included files are found.**

  A token `$alias/relative/path` names a file below the directory that stands
  for the alias, in its resource directory.  The directories for `config` and
  `data` can be taken from what the environment says about the user's home.
-/
import LayeredConfig.Error
import LayeredConfig.Files.Path
import LayeredConfig.Text.Blank
import LayeredConfig.Text.LowerCase

namespace LayeredConfig

/-- Directories by their aliases, and the directory below each that holds the files. -/
structure IncludeRoots where
  roots : List (String × String)
  resourceDir : String
deriving DecidableEq, Repr

namespace IncludeRoots

def defaultResourceDir : String := "resources"

/-! ### Targets -/

def isAliasChar (c : Char) : Bool := c.isAlphanum || c = '_' || c = '-'

def splitToken? (token : List Char) : Option (List Char × List Char) :=
  match token with
  | '$' :: rest =>
    let name := rest.takeWhile isAliasChar
    match rest.dropWhile isAliasChar with
    | '/' :: relative =>
      if name.isEmpty || relative.isEmpty || relative.any Text.isBlank then none
      else some (name, relative)
    | _ => none
  | _ => none

def target (i : IncludeRoots) (token : String) : Except Error String :=
  match splitToken? token.toList with
  | none => .error (.invalidInclude token)
  | some (name, relative) =>
    match i.roots.lookup (String.ofList name) with
    | none => .error (.unknownRootAlias (String.ofList name) token)
    | some root =>
      let base := if i.resourceDir = "" then root.toList
        else Path.push root.toList i.resourceDir.toList
      let parts := (Text.split '/' relative).filter (· ≠ [])
      .ok (String.ofList (parts.foldl Path.push base))

/-! ### Directories of the user -/

def words (s : List Char) : List (List Char) :=
  (s.splitBy fun a b => Text.isBlank a == Text.isBlank b).filter fun w => !Text.allBlank w

/-- The name of an application's directory: its name in lower case, without white space. -/
def directoryName (app : String) : List Char := (words app.toList).flatMap Text.toLower

/-- The directory that a variable gives if it is an absolute path, and else one below the home. -/
def userDirectory (vars : List (String × String)) (name : String) (home : String)
    (below : String) : List Char :=
  match vars.lookup name with
  | some dir =>
    if Path.isAbsolute dir.toList then dir.toList else Path.push home.toList below.toList
  | none => Path.push home.toList below.toList

/-- The aliases `config` and `data` for an application of the user; none without a home. -/
def ofUser (vars : List (String × String)) (app : String) : IncludeRoots :=
  let roots := match vars.lookup "HOME" with
    | none => []
    | some home =>
      let name := directoryName app
      let config := userDirectory vars "XDG_CONFIG_HOME" home ".config"
      let data := userDirectory vars "XDG_DATA_HOME" home ".local/share"
      [("config", String.ofList (Path.push config name)),
        ("data", String.ofList (Path.push data name))]
  ⟨roots, defaultResourceDir⟩

end IncludeRoots

end LayeredConfig
