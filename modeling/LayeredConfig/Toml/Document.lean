/-
  LayeredConfig/Toml/Document.lean
  ================================
  **TOML documents, built statement by statement.**

  A document is a list of statements: headers `[a.b]` and `[[a.b]]`, and
  assignments `a.b = value` to the table of the last header.  Tables come about
  in four ways (by a header of their own, on the way to one, by a dotted key, or
  in braces), and the way decides what may still be added to them:

  - a table with its own header gets no second one, and no dotted key reaches
    into it from outside;
  - a table on the way to a header may get a header later;
  - a table made by dotted keys may grow by dotted keys only;
  - a table in braces is closed.

  Entries are kept in the order in which they came about.
-/
import LayeredConfig.Value.Inline
import LayeredConfig.Value.Table

namespace LayeredConfig.Toml

/-! ### Documents -/

/-- How a table came about. -/
inductive Origin where
  | header
  | implied
  | dotted
  | braces
deriving DecidableEq, Repr

inductive Node where
  | scalar (v : Value)
  | array (items : List Node)
  | table (origin : Origin) (entries : List (String × Node))
  /-- The tables of one `[[header]]`, the one that is still open last. -/
  | tables (list : List (List (String × Node)))
deriving Inhabited

abbrev Entries := List (String × Node)

namespace Entries

def replace (entries : Entries) (key : String) (node : Node) : Entries :=
  entries.map fun entry => if entry.1 = key then (key, node) else entry

/-- Goes down a path and changes the table at its end, making tables on the way where there are
    none.  The change is told how that table came about.  A path of a dotted key enters neither a
    table with its own header nor a closed one; a path of a header enters all but closed ones, and
    of the tables of one `[[header]]` the last. -/
def descend (byKey : Bool) (change : Origin → Entries → Option Entries) :
    (path : List String) → Origin → Entries → Option Entries
  | [], origin, entries => change origin entries
  | key :: rest, _, entries =>
    match entries.lookup key with
    | none =>
      let origin := if byKey then .dotted else .implied
      (descend byKey change rest origin []).map fun sub => entries ++ [(key, .table origin sub)]
    | some (.table origin sub) =>
      if origin = .braces ∨ (byKey ∧ origin = .header) then none
      else (descend byKey change rest origin sub).map fun sub =>
        entries.replace key (.table origin sub)
    | some (.tables list) =>
      match list.getLast? with
      | some sub => (descend byKey change rest .header sub).map fun sub =>
          entries.replace key (.tables (list.dropLast ++ [sub]))
      | none => none
    | some _ => none

/-- Puts a new entry at the end of a table; the key must be free. -/
def add? (key : String) (node : Node) (entries : Entries) : Option Entries :=
  if (entries.lookup key).isSome then none else some (entries ++ [(key, node)])

/-- Assigns to a dotted key.  A table that is reached by a path must have come about by dotted
    keys. -/
def assign? (entries : Entries) (path : List String) (key : String) (node : Node) :
    Option Entries :=
  descend true (fun origin es =>
    if path ≠ [] ∧ origin ≠ .dotted then none else add? key node es) path .header entries

def ofAssignments? (pairs : List (List String × String × Node)) : Option Entries :=
  pairs.foldlM (fun entries (path, key, node) => assign? entries path key node) []

end Entries

/-! ### Statements -/

inductive Statement where
  | header (path : List String) (key : String)
  | arrayHeader (path : List String) (key : String)
  | assign (path : List String) (key : String) (node : Node)
deriving Inhabited

/-- The table that assignments go to: the top one, or that of a header. -/
inductive Open where
  | top
  | table (path : List String) (key : String)
  | item (path : List String) (key : String)
deriving DecidableEq, Repr

/-- A document under construction: the open table stands apart from the rest. -/
structure Draft where
  closed : Entries
  current : Entries
  place : Open

namespace Draft

def empty : Draft := ⟨[], [], .top⟩

def close? (d : Draft) : Option Entries :=
  match d.place with
  | .top => some d.current
  | .table path key =>
    d.closed.descend false (fun _ es => es.add? key (.table .header d.current)) path .header
  | .item path key =>
    d.closed.descend false (fun _ es =>
      match es.lookup key with
      | none => some (es ++ [(key, .tables [d.current])])
      | some (.tables list) => some (es.replace key (.tables (list ++ [d.current])))
      | some _ => none) path .header

/-- The table that a path leads to, if all of it is there. -/
def find? (entries : Entries) : List String → Option Node
  | [] => none
  | [key] => entries.lookup key
  | key :: next :: rest =>
    match entries.lookup key with
    | some (.table _ sub) => find? sub (next :: rest)
    | some (.tables list) => find? (list.getLast?.getD []) (next :: rest)
    | _ => none

/-- Opens the table of a header.  One that was so far only on the way to others keeps what it has,
    and moves to the end. -/
def openTable? (entries : Entries) (path : List String) (key : String) : Option Draft :=
  match find? entries (path ++ [key]) with
  | none => do
    let entries ← entries.descend false (fun _ es => some es) path .header
    return ⟨entries, [], .table path key⟩
  | some (.table .implied sub) => do
    let entries ← entries.descend false (fun _ es => some (es.filter (·.1 ≠ key))) path .header
    return ⟨entries, sub, .table path key⟩
  | some _ => none

/-- Opens one more table under a doubled header. -/
def openItem? (entries : Entries) (path : List String) (key : String) : Option Draft :=
  match find? entries (path ++ [key]) with
  | none | some (.tables _) => do
    let entries ← entries.descend false (fun _ es => some es) path .header
    return ⟨entries, [], .item path key⟩
  | some _ => none

def step? (d : Draft) : Statement → Option Draft
  | .header path key => do openTable? (← d.close?) path key
  | .arrayHeader path key => do openItem? (← d.close?) path key
  | .assign path key node => do
    return { d with current := ← d.current.assign? path key node }

end Draft

def Entries.ofStatements? (statements : List Statement) : Option Entries := do
  (← statements.foldlM Draft.step? Draft.empty).close?

/-! ### Meaning -/

mutual

/-- The value of a node.  A table that begins with the key which stands for a datetime is that
    datetime. -/
def Node.value? : Node → Option Value
  | .scalar v => some v
  | .array items => (Node.values? items).map .array
  | .table _ entries => Node.tableValue? entries
  | .tables list => (Node.tableValues? list).map .array

def Node.tableValue? : List (String × Node) → Option Value
  | [] => some (.table [])
  | (key, node) :: rest =>
    if key = Datetime.wrapperKey then
      match node with
      | .scalar (.string s) => (Datetime.read? s.toList).map .datetime
      | _ => none
    else
      match node.value?, Node.entries? rest with
      | some v, some es => some (.table (Table.ofList ((key, v) :: es)))
      | _, _ => none

def Node.values? : List Node → Option (List Value)
  | [] => some []
  | node :: rest =>
    match node.value?, Node.values? rest with
    | some v, some vs => some (v :: vs)
    | _, _ => none

def Node.tableValues? : List (List (String × Node)) → Option (List Value)
  | [] => some []
  | entries :: rest =>
    match Node.tableValue? entries, Node.tableValues? rest with
    | some v, some vs => some (v :: vs)
    | _, _ => none

def Node.entries? : List (String × Node) → Option (List (String × Value))
  | [] => some []
  | (key, node) :: rest =>
    match node.value?, Node.entries? rest with
    | some v, some es => some ((key, v) :: es)
    | _, _ => none

end

def Entries.table? (entries : Entries) : Option Table :=
  (Node.entries? entries).map Table.ofList

end LayeredConfig.Toml
