/-
  LayeredConfig/Proofs/Tree/Inclusions.lean
  =========================================
  **Including a file and storing what it holds.**

  A token that includes a file can be replaced, where it is stored, by the table in
  the file.  All reads then come to what they came to before
  (`inclusion_is_storing`).  They may only come further: the content of a token is
  one expansion deeper than the same content that is stored, so where there is no
  room for that the one read reports a circle and the other does not.

  The resolvers are those that read no path of the tree.  One that does would see
  the difference, since below a token every path expands it anew.
-/
import LayeredConfig.Proofs.Lookup.Expansions
import LayeredConfig.Proofs.Tree.Reference

namespace LayeredConfig

/-! ### Tokens that include a file -/

/-- The string is one token.  One resolver of the chain includes for it the file at a path, which
    holds, with its overlay, the table; those before it decline it, and those after it are not
    shown it. -/
structure Tree.Inclusion (t : Tree) (disk : Disk) (s : String) (table : Table) where
  body : List Char
  whole : Template.wholeToken? s.toList = some body
  id : Nat
  label : String
  roots : IncludeRoots
  before : List Resolver
  after : List Resolver
  chain_eq : t.chain = before ++ ⟨id, .labelled label (.inclusion roots)⟩ :: after
  rest : String
  labelled : Resolver.rest? label (String.ofList (Text.trim body)) = some rest
  path : String
  target : roots.target rest = .ok path
  loaded : (t.loader.loadFile disk path).result = .ok table
  not_empty : table ≠ []
  declined : ∀ r ∈ before,
    (r.ask (t.replies disk) Guards.fresh (String.ofList (Text.trim body))).result = .ok none

/-! ### Values with files in the place of tokens -/

section Relation

variable (t : Tree) (disk : Disk)

mutual

/-- The second value is the first one with the tables of files in the place of some of the tokens
    that include them. -/
inductive Value.WithFiles : Value → Value → Prop where
  | same (v : Value) : Value.WithFiles v v
  | file {s : String} {table : Table} (inclusion : t.Inclusion disk s table) :
      Value.WithFiles (.string s) (.table table)
  | array {items items' : List Value} :
      Value.WithFilesItems items items' → Value.WithFiles (.array items) (.array items')
  | table {entries entries' : List (String × Value)} :
      Value.WithFilesEntries entries entries' → Value.WithFiles (.table entries) (.table entries')

inductive Value.WithFilesItems : List Value → List Value → Prop where
  | nil : Value.WithFilesItems [] []
  | cons {v v' : Value} {rest rest' : List Value} :
      Value.WithFiles v v' → Value.WithFilesItems rest rest' →
      Value.WithFilesItems (v :: rest) (v' :: rest')

inductive Value.WithFilesEntries : List (String × Value) → List (String × Value) → Prop where
  | nil : Value.WithFilesEntries [] []
  | cons {key : String} {v v' : Value} {rest rest' : List (String × Value)} :
      Value.WithFiles v v' → Value.WithFilesEntries rest rest' →
      Value.WithFilesEntries ((key, v) :: rest) ((key, v') :: rest')

end

end Relation

section WithFiles

variable {t : Tree} {disk : Disk}

theorem Value.WithFilesEntries.get? {entries entries' : Table}
    (h : Value.WithFilesEntries t disk entries entries') {key : String} {v : Value}
    (hv : entries.get? key = some v) :
    ∃ v', entries'.get? key = some v' ∧ Value.WithFiles t disk v v' := by
  induction entries generalizing entries' with
  | nil => cases hv
  | cons entry rest ih =>
    obtain _ | ⟨hfirst, hrest⟩ := h
    rw [Table.get?_cons] at hv
    split at hv
    next hkey =>
      cases hv
      exact ⟨_, if_pos hkey, hfirst⟩
    next hkey =>
      obtain ⟨v', hv', hsame⟩ := ih hrest hv
      exact ⟨v', (if_neg hkey).trans hv', hsame⟩

/-- What is stored at a path is stored there with files in the place of tokens. -/
theorem Value.WithFiles.at? {v v' w : Value} (h : Value.WithFiles t disk v v') {keys : List String}
    (hw : v.at? keys = some w) : ∃ w', v'.at? keys = some w' ∧ Value.WithFiles t disk w w' := by
  induction keys generalizing v v' with
  | nil =>
    cases hw
    exact ⟨v', by rw [Value.at?], h⟩
  | cons key rest ih =>
    cases h with
    | same => exact ⟨w, hw, .same w⟩
    | file => cases hw
    | array => cases hw
    | table hentries =>
      rw [Value.at?] at hw
      rw [Value.at?]
      split at hw
      next u hu =>
        obtain ⟨u', hu', hsame⟩ := hentries.get? hu
        rw [hu']
        exact ih hsame hw
      next => cases hw

end WithFiles

/-! ### What becomes of a token -/

theorem settle_of_whole_declined {replies : Replies} {g : Guards} {s : String} {body : List Char}
    (hwhole : Template.wholeToken? s.toList = some body) {chain : List Resolver}
    (h : ∀ r ∈ chain, (r.ask replies g (String.ofList (Text.trim body))).result = .ok none) :
    (g.settle replies chain (.string s)).result = .ok (.string s) := by
  induction chain with
  | nil => rfl
  | cons r rest ih =>
    obtain ⟨hr, hrest⟩ := List.forall_mem_cons.1 h
    rw [Guards.settle, process_of_whole hwhole]
    exact Outcome.bind_result_eq_ok.2
      ⟨_, Outcome.bind_result_eq_ok.2 ⟨_, hr, rfl⟩, ih hrest⟩

namespace Tree.Inclusion

variable {t : Tree} {disk : Disk} {s : String} {table : Table} (i : t.Inclusion disk s table)

theorem ask_eq (steps : Nat) (g : Guards) :
    ((⟨i.id, .labelled i.label (.inclusion i.roots)⟩ : Resolver).ask (t.reply disk (steps + 1)) g
      (String.ofList (Text.trim i.body))).result = .ok (some (.table table)) := by
  have hanswer : Resolver.Labelled.answer (.inclusion i.roots) i.rest =
      (do
        let table ← Dialogue.request (.load i.path)
        return some (.table table)) := by
    rw [Resolver.Labelled.answer, i.target]
    rfl
  rw [Resolver.ask_result]
  simp only [Resolver.answer, i.labelled]
  rw [hanswer, Dialogue.run_bind, Dialogue.run_request]
  exact Outcome.bind_result_eq_ok.2 ⟨table, i.loaded, rfl⟩

include i

theorem isTruthy_table : (Value.table table).isTruthy = true := by
  have hempty := i.not_empty
  cases table with
  | nil => exact absurd rfl hempty
  | cons entry rest => rfl

variable (hchain : ∀ r ∈ t.chain, r.LoadsOnly)
include hchain

/-- The chain makes of the token the table in its file. -/
theorem settle (steps : Nat) (g : Guards) :
    (g.settle (t.reply disk (steps + 1)) t.chain (.string s)).result = .ok (.table table) := by
  have hload : LoadAlike (t.reply disk (steps + 1)) (t.replies disk) :=
    loadAlike_reply rfl disk steps (Tree.maxSteps - 1)
  have hdeclined : ∀ r ∈ i.before,
      (r.ask (t.reply disk (steps + 1)) g (String.ofList (Text.trim i.body))).result =
        .ok none := by
    intro r hr
    have hmem : r ∈ t.chain := i.chain_eq ▸ List.mem_append_left _ hr
    rw [((hchain r hmem).ask_eq hload g Guards.fresh _).2]
    exact i.declined r hr
  have hbefore := settle_of_whole_declined i.whole hdeclined
  have hprocess : ((⟨i.id, .labelled i.label (.inclusion i.roots)⟩ : Resolver).process
      (t.reply disk (steps + 1)) g (.string s)).result = .ok (.table table) := by
    rw [process_of_whole i.whole]
    refine Outcome.bind_result_eq_ok.2 ⟨_, i.ask_eq steps g, ?_⟩
    rw [Option.filter_some, if_pos i.isTruthy_table]
    rfl
  rw [i.chain_eq, settle_append]
  refine Outcome.bind_result_eq_ok.2 ⟨_, hbefore, Outcome.bind_result_eq_ok.2 ⟨_, hprocess, ?_⟩⟩
  -- the resolvers behind are shown a table
  have hplain : ∀ s, Value.table table ≠ .string s := fun _ => nofun
  rw [settle_of_not_string hplain]
  rfl

/-- The stored table is resolved as the token is, with one more expansion to open inside. -/
theorem sameOrCyclic (steps : Nat) (fl : List KeyPath) (room : Nat) :
    ((Value.table table).traverse
        (expandString (t.reply disk (steps + 1)) t.chain fl room)).SameOrCyclic
      (expandString (t.reply disk (steps + 1)) t.chain fl room s) := by
  have hb : t.IsBuiltIn := fun r hr => (hchain r hr).isBuiltIn
  have hsettle := i.settle hchain steps ⟨fl, room⟩
  cases room with
  | zero =>
    right
    exact ⟨fl.reverse, .depth, by rw [expandString, Outcome.bind_of_ok hsettle]; rfl⟩
  | succ room =>
    -- behind the token there is room for one expansion less
    have hdeeper := resolve_sameOrCyclic hb disk (steps + 1) (Guards.le_unfold fl room)
      (.table table)
    have hexpand : (expandString (t.reply disk (steps + 1)) t.chain fl (room + 1) s).result =
        ((⟨fl, room⟩ : Guards).resolve (t.reply disk (steps + 1)) t.chain
          (.table table)).result := by
      rw [expandString, Outcome.bind_of_ok hsettle]
      rfl
    rcases hdeeper with hsame | ⟨inFlight, closing, hcyclic⟩
    · exact .inl (hexpand.trans hsame)
    · exact .inr ⟨inFlight, closing, hexpand.trans hcyclic⟩

end Tree.Inclusion

/-! ### What becomes of a value -/

section Resolved

variable {t : Tree} {disk : Disk}

mutual

theorem Value.WithFiles.sameOrCyclic (hchain : ∀ r ∈ t.chain, r.LoadsOnly) (steps : Nat)
    (fl : List KeyPath) (room : Nat) {v v' : Value} (h : Value.WithFiles t disk v v') :
    (v'.traverse (expandString (t.reply disk (steps + 1)) t.chain fl room)).SameOrCyclic
      (v.traverse (expandString (t.reply disk (steps + 1)) t.chain fl room)) := by
  cases h with
  | same => exact .inl rfl
  | file inclusion => exact inclusion.sameOrCyclic hchain steps fl room
  | array hitems =>
    apply (hitems.sameOrCyclic hchain steps fl room).bind
    intro items
    exact .inl rfl
  | table hentries =>
    apply (hentries.sameOrCyclic hchain steps fl room).bind
    intro entries
    exact .inl rfl

theorem Value.WithFilesItems.sameOrCyclic (hchain : ∀ r ∈ t.chain, r.LoadsOnly) (steps : Nat)
    (fl : List KeyPath) (room : Nat) {items items' : List Value}
    (h : Value.WithFilesItems t disk items items') :
    (Value.traverseItems (expandString (t.reply disk (steps + 1)) t.chain fl room)
        items').SameOrCyclic
      (Value.traverseItems (expandString (t.reply disk (steps + 1)) t.chain fl room) items) := by
  cases h with
  | nil => exact .inl rfl
  | cons hv hrest =>
    apply (hv.sameOrCyclic hchain steps fl room).bind
    intro v
    apply (hrest.sameOrCyclic hchain steps fl room).bind
    intro rest
    exact .inl rfl

theorem Value.WithFilesEntries.sameOrCyclic (hchain : ∀ r ∈ t.chain, r.LoadsOnly) (steps : Nat)
    (fl : List KeyPath) (room : Nat) {entries entries' : Table}
    (h : Value.WithFilesEntries t disk entries entries') :
    (Value.traverseEntries (expandString (t.reply disk (steps + 1)) t.chain fl room)
        entries').SameOrCyclic
      (Value.traverseEntries (expandString (t.reply disk (steps + 1)) t.chain fl room)
        entries) := by
  cases h with
  | nil => exact .inl rfl
  | cons hv hrest =>
    apply (hv.sameOrCyclic hchain steps fl room).bind
    intro v
    apply (hrest.sameOrCyclic hchain steps fl room).bind
    intro rest
    exact .inl rfl

end

end Resolved

/-! ### Reads -/

/-- The read of a path with a stored value on it is that value, resolved. -/
theorem getWithin_of_at? {t : Tree} (disk : Disk) (steps : Nat) {path : KeyPath} {v : Value}
    (hv : t.data.at? path.segments = some v) :
    (t.getWithin disk path steps).result =
      ((Guards.fresh.enter path).resolve (t.reply disk steps) t.chain v).result.map some := by
  rw [getWithin_result, body_of_find_some]
  rw [find_eq_walk, walk_of_at? hv]
  rfl

theorem Outcome.map_ends {α β : Type} {x : Outcome α} {f : α → β}
    (h : x.result ≠ .error .exhausted) : x.result.map f ≠ .error .exhausted := by
  rcases x with ⟨halt | a, journal⟩
  · rintro ⟨⟩
    exact h rfl
  · exact nofun

theorem Outcome.SameOrCyclic.map_some {α : Type} {x y : Outcome α} {x' y' : Outcome (Option α)}
    (h : x.SameOrCyclic y) (hx : x'.result = x.result.map some)
    (hy : y'.result = y.result.map some) : x'.SameOrCyclic y' := by
  rcases h with hsame | ⟨inFlight, closing, hcyclic⟩
  · left
    rw [hx, hy, hsame]
  · right
    refine ⟨inFlight, closing, ?_⟩
    rw [hy, hcyclic]
    rfl

section Reads

variable {t : Tree} (hchain : ∀ r ∈ t.chain, r.LoadsOnly) (disk : Disk) (steps : Nat)
include hchain

/-- The resolvers read no path, so the data of the tree has no part in what a string becomes. -/
theorem expandString_of_data (data : Table) (fl : List KeyPath) (room : Nat) :
    expandString (({ t with data := data } : Tree).reply disk (steps + 1)) t.chain fl room =
      expandString (t.reply disk (steps + 1)) t.chain fl room := by
  have hload : LoadAlike (({ t with data := data } : Tree).reply disk (steps + 1))
      (t.reply disk (steps + 1)) := loadAlike_reply rfl disk steps steps
  exact expandString_of_loadAlike hload hchain fl room

theorem resolve_ends (g : Guards) (v : Value) :
    (g.resolve (t.reply disk (steps + 1)) t.chain v).result ≠ .error .exhausted := by
  rw [resolve_eq_capped hchain]
  exact Outcome.capped_ends _ _

end Reads

/-- **To include a file is to store what it holds.**  Let the resolvers answer from tables, by
    functions of the host and from files, and let some of the stored tokens be replaced by the
    tables in the files that they include.  The whole tree, and every path with a stored value on
    it, is read as before, to the same value or the same error, unless it was read to a circle. -/
theorem inclusion_is_storing {t : Tree} (hchain : ∀ r ∈ t.chain, r.LoadsOnly) (disk : Disk)
    {data : Table} (hdata : Value.WithFilesEntries t disk t.data data) (steps : Nat) :
    let stored : Tree := { t with data := data }
    (t.allWithin disk (steps + 1)).result ≠ .error .exhausted ∧
    (stored.allWithin disk (steps + 1)).SameOrCyclic (t.allWithin disk (steps + 1)) ∧
    ∀ path v, t.data.at? path.segments = some v →
      (t.getWithin disk path (steps + 1)).result ≠ .error .exhausted ∧
      (stored.getWithin disk path (steps + 1)).SameOrCyclic
        (t.getWithin disk path (steps + 1)) := by
  intro stored
  have hexpand := expandString_of_data hchain disk steps data
  refine ⟨?_, ?_, ?_⟩
  · intro hend
    apply resolve_ends hchain disk steps Guards.fresh (.table t.data)
    exact congrArg Outcome.result
      (Outcome.bind_of_error hend fun table => pure (Value.table table))
  · have hstored : stored.allWithin disk (steps + 1) =
        data.traverse (expandString (t.reply disk (steps + 1)) t.chain [] maxDepth) :=
      congrArg data.traverse (hexpand [] maxDepth)
    rw [hstored]
    exact hdata.sameOrCyclic hchain steps [] maxDepth
  · intro path v hv
    obtain ⟨v', hv', hwith⟩ := (Value.WithFiles.table hdata).at? hv
    have hget := getWithin_of_at? disk (steps + 1) hv
    have hstored : (stored.getWithin disk path (steps + 1)).result =
        (v'.traverse (expandString (t.reply disk (steps + 1)) t.chain [path] maxDepth)).result.map
          some := by
      rw [← hexpand]
      exact getWithin_of_at? disk (steps + 1) hv'
    constructor
    · have hends := resolve_ends hchain disk steps (Guards.fresh.enter path) v
      rw [hget]
      exact Outcome.map_ends hends
    · exact (hwith.sameOrCyclic hchain steps [path] maxDepth).map_some hstored hget

namespace Included

/-- The text of the file, and that of its overlay for one environment. -/
def text : String := "\x7b\"host\": \"\x7b\x7b data:host \x7d\x7d\", \"port\": 1\x7d"

def overlayText : String := "\x7b\"port\": 2\x7d"

def disk : Disk := [("app", .directory [("resources", .directory [
  ("db.json", .file (some text)), ("db.test.json", .file (some overlayText))])])]

/-- What the file holds with its overlay. -/
def table : Table := [("host", .string "\x7b\x7b data:host \x7d\x7d"), ("port", .integer 2)]

def roots : IncludeRoots := ⟨[("app", "app")], IncludeRoots.defaultResourceDir⟩

def tree : Tree where
  data := [("db", .string "\x7b\x7b include:$app/db.json \x7d\x7d")]
  chain := [⟨0, .labelled Resolver.dataLabel (.data [("host", .string "localhost")])⟩,
    ⟨1, .labelled Resolver.inclusionLabel (.inclusion roots)⟩]
  loader := ⟨[⟨0, .format .json⟩], some "test"⟩

/-- A file on the disk that the one parser takes. -/
theorem parsed {path : String} (content : String) {table : Table}
    (htakes : Format.json.supports path.toList = true)
    (hread : disk.read path = .text content) (htable : Format.json.readTable content = .ok table) :
    (tree.loader.parseFile disk path).result = .ok table := by
  have hfind : tree.loader.parsers.find? (·.supports path) = some ⟨0, .format .json⟩ :=
    List.find?_cons_of_pos htakes
  have htableAt : Format.json.tableAt disk path = .ok table := by
    rw [Format.tableAt, hread]
    simp only [htable]
  rw [Loader.parseFile, hfind]
  simp only [FileParser.parse, htableAt]
  rfl

theorem loaded : (tree.loader.loadFile disk "app/resources/db.json").result = .ok table := by
  have hbase : (tree.loader.parseFile disk "app/resources/db.json").result =
      .ok [("host", .string "\x7b\x7b data:host \x7d\x7d"), ("port", .integer 1)] :=
    parsed text (by cbv) (by decide +kernel) (by cbv)
  have hpath : Path.overlay "app/resources/db.json" "test" = "app/resources/db.test.json" := by cbv
  have hoverlay :
      (tree.loader.parseFile disk (Path.overlay "app/resources/db.json" "test")).result =
        .ok [("port", .integer 2)] := by
    rw [hpath]
    exact parsed overlayText (by cbv) (by decide +kernel) (by cbv)
  have henvironment : tree.loader.environment = some "test" := rfl
  simp only [Loader.loadFile, henvironment]
  refine Outcome.bind_result_eq_ok.2 ⟨_, hbase, Outcome.bind_result_eq_ok.2 ⟨_, hoverlay, ?_⟩⟩
  cbv

def inclusion : tree.Inclusion disk "\x7b\x7b include:$app/db.json \x7d\x7d" table where
  body := " include:$app/db.json ".toList
  whole := by cbv
  id := 1
  label := Resolver.inclusionLabel
  roots := roots
  before := [⟨0, .labelled Resolver.dataLabel (.data [("host", .string "localhost")])⟩]
  after := []
  chain_eq := rfl
  rest := "$app/db.json"
  labelled := by cbv
  path := "app/resources/db.json"
  target := by cbv
  loaded := loaded
  not_empty := nofun
  declined := by
    intro r hr
    rw [List.mem_singleton.1 hr]
    cbv

theorem loadsOnly : ∀ r ∈ tree.chain, r.LoadsOnly := by
  intro r hr
  rcases List.mem_pair.1 hr with rfl | rfl <;> trivial

def resolved : Table := [("host", .string "localhost"), ("port", .integer 2)]

theorem expanded (fl : List KeyPath) :
    (expandString (tree.reply disk 1) tree.chain fl maxDepth
      "\x7b\x7b include:$app/db.json \x7d\x7d").result = .ok (.table resolved) := by
  rw [maxDepth, expandString]
  refine Outcome.bind_result_eq_ok.2 ⟨_, inclusion.settle loadsOnly 0 _, ?_⟩
  rw [table]
  cbv

/-- The tree with the file in its data. -/
def stored : Tree := { tree with data := [("db", .table table)] }

theorem stored_at : tree.data.at? (KeyPath.mk ["db"]).segments =
    some (.string "\x7b\x7b include:$app/db.json \x7d\x7d") := rfl

theorem included :
    (tree.allWithin disk 1).result = .ok [("db", .table resolved)] ∧
      (tree.getWithin disk ⟨["db"]⟩ 1).result = .ok (some (.table resolved)) := by
  have hdata : tree.data = [("db", .string "\x7b\x7b include:$app/db.json \x7d\x7d")] := rfl
  have hfl : (Guards.fresh.enter ⟨["db"]⟩).inFlight = [⟨["db"]⟩] := rfl
  have hroom : (Guards.fresh.enter ⟨["db"]⟩).room = maxDepth := rfl
  constructor
  · rw [Tree.allWithin, Guards.resolveTable, Table.traverse, hdata, Value.traverseEntries,
      Value.traverse]
    exact Outcome.bind_result_eq_ok.2 ⟨_, expanded [], rfl⟩
  · rw [getWithin_of_at? disk 1 stored_at, Guards.resolve, Value.traverse, hfl, hroom, expanded]
    rfl

/-- The table is the same from the file and from the data. -/
theorem read_alike :
    (tree.allWithin disk 1).result = .ok [("db", .table resolved)] ∧
      (stored.allWithin disk 1).result = .ok [("db", .table resolved)] ∧
      (tree.getWithin disk ⟨["db"]⟩ 1).result = .ok (some (.table resolved)) ∧
      (stored.getWithin disk ⟨["db"]⟩ 1).result = .ok (some (.table resolved)) := by
  have hdata : Value.WithFilesEntries tree disk tree.data [("db", .table table)] :=
    .cons (.file inclusion) .nil
  obtain ⟨hall, hget⟩ := included
  obtain ⟨-, hsame, hpaths⟩ := inclusion_is_storing loadsOnly disk hdata 0
  obtain ⟨-, hpath⟩ := hpaths ⟨["db"]⟩ _ stored_at
  exact ⟨hall, hsame.ok_back hall, hget, hpath.ok_back hget⟩

end Included

end LayeredConfig
