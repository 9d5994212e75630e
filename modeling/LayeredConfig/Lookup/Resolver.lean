/-
  LayeredConfig/Lookup/Resolver.lean
  ==================================
  **Resolvers: who answers which token.**

  Four kinds of resolvers answer the tokens `label:rest` under a label of their
  own: from a table, from another place of the tree, by calling a function of
  the host, or from a file.  A resolver of the host may answer any token.  What
  a resolver does not answer it leaves to the next one.

  Every resolver has a number by which it is known again.
-/
import LayeredConfig.Lookup.Call
import LayeredConfig.Lookup.Dialogue
import LayeredConfig.Lookup.Inclusion
import LayeredConfig.Text.Split
import LayeredConfig.Value.Table

namespace LayeredConfig

/-- A function of the host: it may have no value for its arguments. -/
abbrev HostFunction := List Value → Option Value

namespace Resolver

inductive Labelled where
  /-- The entry of a table under the key `rest`; `*` is the whole table. -/
  | data (table : Table)
  /-- The value at the path `rest` of the tree that is being read. -/
  | reference
  /-- The value of a host function for the arguments in `rest`. -/
  | call (functions : List (String × HostFunction))
  /-- The table in the file that `rest` names. -/
  | inclusion (roots : IncludeRoots)
  /-- Whatever the host makes of `rest`. -/
  | host (answer : String → Dialogue (Option Value))

inductive Kind where
  | labelled (label : String) (what : Labelled)
  | host (answer : String → Dialogue (Option Value))

def Labelled.answer : Labelled → String → Dialogue (Option Value)
  | .data table, rest =>
    if rest = "*" then .answer (some (.table table)) else .answer (table.get? rest)
  | .reference, rest => .request (.get (KeyPath.parse rest))
  | .call functions, rest => do
    let call ← Dialogue.ofExcept (CallExpr.parse rest)
    match functions.lookup call.name with
    | some f => return f call.args
    | none => return none
  | .inclusion roots, rest => do
    let path ← Dialogue.ofExcept (roots.target rest)
    let table ← Dialogue.request (.load path)
    return some (.table table)
  | .host answer, rest => answer rest

/-- What follows the label and the colon in the body of a token, trimmed. -/
def rest? (label body : String) : Option String :=
  (Text.dropPrefix? (label.toList ++ [':']) body.toList).map fun rest =>
    String.ofList (Text.trim rest)

/-- The labels of the four kinds of resolvers, unless others are chosen. -/
def dataLabel : String := "data"
def referenceLabel : String := "config"
def callLabel : String := "call"
def inclusionLabel : String := "include"

end Resolver

structure Resolver where
  id : Nat
  kind : Resolver.Kind

namespace Resolver

def label? (r : Resolver) : Option String :=
  match r.kind with
  | .labelled label _ => some label
  | .host _ => none

def answer (r : Resolver) (body : String) : Dialogue (Option Value) :=
  match r.kind with
  | .labelled label what =>
    match rest? label body with
    | some rest => what.answer rest
    | none => .answer none
  | .host answer => answer body

def answerRest (r : Resolver) (rest : String) : Dialogue (Option Value) :=
  match r.kind with
  | .labelled _ what => what.answer rest
  | .host _ => .answer none

def data? (r : Resolver) : Option Table :=
  match r.kind with
  | .labelled _ (.data table) => some table
  | _ => none

/-- The resolver with another table to answer from, if it answers from one. -/
def setData (r : Resolver) (table : Table) : Resolver :=
  match r.kind with
  | .labelled label (.data _) => { r with kind := .labelled label (.data table) }
  | _ => r

def hasFunction (r : Resolver) (name : String) : Bool :=
  match r.kind with
  | .labelled _ (.call functions) => (functions.lookup name).isSome
  | _ => false

def roots (r : Resolver) : List (String × String) :=
  match r.kind with
  | .labelled _ (.inclusion i) => i.roots
  | _ => []

end Resolver

end LayeredConfig
