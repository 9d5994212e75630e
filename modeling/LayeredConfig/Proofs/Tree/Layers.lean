/-
  LayeredConfig/Proofs/Tree/Layers.lean
  =====================================
  **The data of a tree are the layers that were merged into it.**

  Whatever is done with a host's trees, the data of one of them are laid together
  from the layers of the merges that succeeded, in their order
  (`data_from_layers`).  A layer is the table of its source (`Loader.Yields`): for
  a file, what its parser makes of it, and of the overlay for the environment on
  top.

  One step decides everything.  A command changes the data of a tree only as a
  merge with a layer (`Tree.data_perform`), and a command that fails or only
  reads leaves the tree as it is.  A step of a session is at most one command on
  one tree; the trees that it makes are empty, and a new table behind a resolver
  is no change of the data.
-/
import LayeredConfig.Proofs.Outcome
import LayeredConfig.Session
import Mathlib

namespace LayeredConfig

/-! ### Tables of sources -/

inductive Loader.Yields (l : Loader) (s : Surroundings) : Source → Table → Prop where
  | file {path : String} {table : Table} :
      l.environment = none → (l.parseFile s.disk path).result = .ok table →
      l.Yields s (.file path) table
  | overlaid {path environment : String} {base overlay : Table} :
      l.environment = some environment → (l.parseFile s.disk path).result = .ok base →
      (l.parseFile s.disk (Path.overlay path environment)).result = .ok overlay →
      l.Yields s (.file path) (Table.deepMerge base overlay)
  | table (table : Table) : l.Yields s (.table table) table
  | value (table : Table) : l.Yields s (.value (.table table)) table
  | tree {t : Tree} {table : Table} :
      (t.all s.disk).result = .ok table → l.Yields s (.tree t) table
  | vars (start : String) : l.Yields s (.vars start) (Table.ofVariables start s.vars)
  | pairs (entries : List (String × Value)) : l.Yields s (.pairs entries) (Table.ofPairs entries)

namespace Loader

variable {l : Loader} {s : Surroundings}

theorem loadFile_eq_ok_iff {path : String} {table : Table} :
    (l.loadFile s.disk path).result = .ok table ↔ l.Yields s (.file path) table := by
  rw [loadFile, Outcome.bind_result_eq_ok]
  constructor
  · rintro ⟨base, hbase, h⟩
    cases henvironment : l.environment with
    | none =>
      rw [henvironment] at h
      obtain rfl := Except.ok.inj h
      exact .file henvironment hbase
    | some environment =>
      rw [henvironment] at h
      obtain ⟨overlay, hoverlay, h⟩ := Outcome.bind_result_eq_ok.1 h
      obtain rfl := Except.ok.inj h
      exact .overlaid henvironment hbase hoverlay
  · intro h
    cases h with
    | file henvironment hbase =>
      refine ⟨table, hbase, ?_⟩
      rw [henvironment]
      rfl
    | overlaid henvironment hbase hoverlay =>
      refine ⟨_, hbase, ?_⟩
      rw [henvironment]
      exact Outcome.bind_result_eq_ok.2 ⟨_, hoverlay, rfl⟩

theorem load_eq_ok_iff {source : Source} {table : Table} :
    (l.load s source).result = .ok table ↔ l.Yields s source table := by
  constructor
  · intro h
    cases source with
    | file path => exact loadFile_eq_ok_iff.1 h
    | table t =>
      obtain rfl := Except.ok.inj h
      exact .table t
    | value v =>
      cases v with
      | table t =>
        obtain rfl := Except.ok.inj h
        exact .value t
      | _ => cases h
    | tree t => exact .tree h
    | vars start =>
      obtain rfl := Except.ok.inj h
      exact .vars start
    | pairs entries =>
      obtain rfl := Except.ok.inj h
      exact .pairs entries
  · intro h
    cases h with
    | file henvironment hbase => exact loadFile_eq_ok_iff.2 (.file henvironment hbase)
    | overlaid henvironment hbase hoverlay =>
      exact loadFile_eq_ok_iff.2 (.overlaid henvironment hbase hoverlay)
    | tree hall => exact hall
    | table | value | vars | pairs => rfl

end Loader

/-! ### Commands on a tree -/

structure Layer where
  table : Table
  placement : Placement

def Layer.lay (data : Table) (layer : Layer) : Table := layer.placement.apply data layer.table

namespace Tree

def Command.Reads : Command → Prop
  | .get _ | .getOr _ _ | .getAs _ _ | .all | .raw | .outline | .environment | .hasParser _
  | .parsers => True
  | .merge _ _ | .addResolver _ | .removeResolver _ | .registerParser _ | .deregisterParser _ =>
    False

/-- The layer that a command merges, if it is a merge and succeeds. -/
def layer? (t : Tree) (s : Surroundings) : Command → Option Layer
  | .merge source placement =>
    match (t.loader.load s source).result with
    | .ok table => some ⟨table, placement⟩
    | .error _ => none
  | _ => none

section Commands

variable {t : Tree} {s : Surroundings} {c : Command}

theorem layer?_eq_some_iff {layer : Layer} :
    t.layer? s c = some layer ↔
      ∃ source, c = .merge source layer.placement ∧ t.loader.Yields s source layer.table := by
  constructor
  · intro h
    cases c with
    | merge source placement =>
      rw [layer?] at h
      split at h
      next table hload =>
        obtain rfl := Option.some.inj h
        exact ⟨source, rfl, Loader.load_eq_ok_iff.1 hload⟩
      next => cases h
    | _ => cases h
  · rintro ⟨source, rfl, h⟩
    rw [layer?, Loader.load_eq_ok_iff.2 h]

/-- A merge that finds a layer puts it in its place. -/
theorem perform_merge_of_ok {source : Source} {placement : Placement} {table : Table}
    (h : (t.loader.load s source).result = .ok table) :
    (t.perform s (.merge source placement)).1 =
        { t with data := placement.apply t.data table } ∧
      (t.perform s (.merge source placement)).2.result =
        .ok (.table (placement.apply t.data table)) := by
  have hmerge : (t.merge s source placement).result =
      .ok { t with data := placement.apply t.data table } := by
    rw [merge, Outcome.bind_result_eq_ok]
    exact ⟨table, h, rfl⟩
  rw [perform, orElse, hmerge]
  refine ⟨rfl, ?_⟩
  rw [← bind_pure_comp, Outcome.bind_result_eq_ok]
  exact ⟨_, hmerge, rfl⟩

theorem perform_merge_of_error {source : Source} {placement : Placement} {halt : Halt}
    (h : (t.loader.load s source).result = .error halt) :
    (t.perform s (.merge source placement)).1 = t ∧
      (t.perform s (.merge source placement)).2.result = .error halt := by
  have hmerge : (t.merge s source placement).result = .error halt := by
    rw [merge, Outcome.bind_of_error h]
  rw [perform, orElse, hmerge]
  refine ⟨rfl, ?_⟩
  rw [← bind_pure_comp, Outcome.bind_of_error hmerge]

theorem perform_of_reads (h : c.Reads) : (t.perform s c).1 = t := by
  cases c with
  | merge | addResolver | removeResolver | registerParser | deregisterParser => exact h.elim
  | _ => rfl

/-- Only merges and reads can fail, and neither leaves anything behind. -/
theorem perform_of_error {halt : Halt} (h : (t.perform s c).2.result = .error halt) :
    (t.perform s c).1 = t := by
  cases c with
  | merge source placement =>
    cases hload : (t.loader.load s source).result with
    | ok table =>
      rw [(perform_merge_of_ok hload).2] at h
      cases h
    | error halt => exact (perform_merge_of_error hload).1
  | addResolver | removeResolver | registerParser | deregisterParser => cases h
  | _ => rfl

theorem data_perform :
    (t.perform s c).1.data = (t.layer? s c).elim t.data (Layer.lay t.data) := by
  cases c with
  | merge source placement =>
    rw [layer?]
    cases hload : (t.loader.load s source).result with
    | ok table =>
      rw [(perform_merge_of_ok hload).1]
      rfl
    | error halt =>
      rw [(perform_merge_of_error hload).1]
      rfl
  | _ => rfl

end Commands

end Tree

/-! ### Steps of a session -/

namespace Session

/-- The data of the tree at a place; none as long as there is no tree. -/
def dataAt (s : Session) (place : Nat) : Table := (s.trees[place]?.map (·.data)).getD []

/-- The layer that a step merges into the tree at a place, if it is a merge and succeeds. -/
def layer? (s : Session) (place : Nat) : Step → Option Layer
  | .tree name command =>
    if s.handles.lookup name = some place then
      s.trees[place]?.bind fun t => t.layer? s.surroundings command
    else none
  | _ => none

section Steps

variable {s : Session} {place : Nat}

theorem dataAt_of_getElem? {t : Tree} (h : s.trees[place]? = some t) : s.dataAt place = t.data := by
  rw [dataAt, h]
  rfl

theorem dataAt_of_trees {s' : Session} (h : s'.trees = s.trees) :
    s'.dataAt place = s.dataAt place := by
  rw [dataAt, dataAt, h]

/-- A new tree is empty, and so was its place. -/
theorem dataAt_addTree {name : String} {t : Tree} (h : t.data = []) :
    (s.addTree name t).dataAt place = s.dataAt place := by
  simp only [dataAt, addTree, List.getElem?_append]
  split
  next => rfl
  next hlt =>
    rw [List.getElem?_eq_none (Nat.le_of_not_lt hlt)]
    cases place - s.trees.length with
    | zero => exact h
    | succ => rfl

theorem dataAt_setData {id : Nat} {table : Table} :
    (s.setData id table).dataAt place = s.dataAt place := by
  simp only [dataAt, setData, List.getElem?_map, Option.map_map]
  rfl

/-- A command is carried out on the tree behind its name. -/
theorem step_tree {name : String} {t : Tree} (hplace : s.handles.lookup name = some place)
    (ht : s.trees[place]? = some t) (c : Tree.Command) :
    s.step (.tree name c) =
      ({ s with trees := s.trees.set place (t.perform s.surroundings c).1 } : Session).record
        (t.perform s.surroundings c).2 := by
  simp only [step, hplace, ht]

theorem layer?_tree {name : String} {t : Tree} (hplace : s.handles.lookup name = some place)
    (ht : s.trees[place]? = some t) (c : Tree.Command) :
    s.layer? place (.tree name c) = t.layer? s.surroundings c := by
  rw [layer?, if_pos hplace, ht]
  rfl

theorem step_tree_of_none {name : String}
    (h : (s.handles.lookup name).bind (fun place => s.trees[place]?) = none) (c : Tree.Command) :
    s.step (.tree name c) = (s, .error (.unknown name)) := by
  rw [step]
  split
  next => rfl
  next place hplace =>
    rw [hplace, Option.bind_some] at h
    rw [h]

theorem layer?_tree_of_none {name : String}
    (h : (s.handles.lookup name).bind (fun place => s.trees[place]?) = none) (c : Tree.Command) :
    s.layer? place (.tree name c) = none := by
  rw [layer?]
  split
  next hplace =>
    rw [hplace, Option.bind_some] at h
    rw [h, Option.bind_none]
  next => rfl

/-- A command changes the data of the tree behind its name, and of no other one. -/
theorem dataAt_step_tree (name : String) (c : Tree.Command) :
    (s.step (.tree name c)).1.dataAt place =
      (s.layer? place (.tree name c)).elim (s.dataAt place) (Layer.lay (s.dataAt place)) := by
  cases hname : (s.handles.lookup name).bind fun place => s.trees[place]? with
  | none =>
    rw [step_tree_of_none hname, layer?_tree_of_none hname]
    rfl
  | some t =>
    obtain ⟨place', hplace', ht⟩ := Option.bind_eq_some_iff.1 hname
    rw [step_tree hplace' ht]
    by_cases heq : place' = place
    · subst heq
      rw [layer?_tree hplace' ht, dataAt_of_getElem? ht, ← Tree.data_perform]
      apply dataAt_of_getElem?
      exact List.getElem?_set_self (List.getElem?_eq_some_iff.1 ht).1
    · have hlayer : s.layer? place (.tree name c) = none := by
        rw [layer?, hplace', if_neg]
        exact fun h => heq (Option.some.inj h)
      rw [hlayer]
      simp only [dataAt, record, List.getElem?_set_ne heq]
      rfl

/-- What a step does to the data at a place is to lay its layer. -/
theorem dataAt_step (step : Step) :
    (s.step step).1.dataAt place =
      (s.layer? place step).elim (s.dataAt place) (Layer.lay (s.dataAt place)) := by
  cases step with
  | build name plan => exact dataAt_addTree rfl
  | newTree name => exact dataAt_addTree rfl
  | setData r table => exact dataAt_setData
  | tree name c => exact dataAt_step_tree name c
  | handle | resolvers | loader =>
    apply dataAt_of_trees
    rw [Session.step]
    split <;> rfl
  | _ => rfl

/-- A command that leaves its tree as it is adds to the journal of the session and does no more. -/
theorem step_of_same {name : String} {c : Tree.Command}
    (h : ∀ t : Tree, s.tree? name = some t → (t.perform s.surroundings c).1 = t) :
    ∃ journal, (s.step (.tree name c)).1 = { s with journal } := by
  cases hname : (s.handles.lookup name).bind fun place => s.trees[place]? with
  | none =>
    rw [step_tree_of_none hname]
    exact ⟨s.journal, rfl⟩
  | some t =>
    obtain ⟨place, hplace, ht⟩ := Option.bind_eq_some_iff.1 hname
    obtain ⟨hlt, hget⟩ := List.getElem?_eq_some_iff.1 ht
    have hset : s.trees.set place t = s.trees := by rw [← hget, List.set_getElem_self]
    rw [step_tree hplace ht, h t hname, hset]
    exact ⟨_, rfl⟩

/-- The step is a merge that succeeds, of a layer into the tree at a place. -/
structure Adds (s : Session) (place : Nat) (step : Step) (layer : Layer) : Prop where
  merges : ∃ name source t, step = .tree name (.merge source layer.placement) ∧
    s.handles.lookup name = some place ∧ s.trees[place]? = some t ∧
    t.loader.Yields s.surroundings source layer.table
  succeeds : ∃ answer, (s.step step).2 = .ok answer

theorem layer?_eq_some_iff {step : Step} {layer : Layer} :
    s.layer? place step = some layer ↔ s.Adds place step layer := by
  constructor
  · intro h
    cases step with
    | tree name c =>
      rw [layer?] at h
      split at h
      next hplace =>
        obtain ⟨t, ht, h⟩ := Option.bind_eq_some_iff.1 h
        obtain ⟨source, rfl, hyields⟩ := Tree.layer?_eq_some_iff.1 h
        have hload := Loader.load_eq_ok_iff.2 hyields
        refine ⟨⟨name, source, t, rfl, hplace, ht, hyields⟩,
          .table (layer.placement.apply t.data layer.table), ?_⟩
        rw [step_tree hplace ht, record, (Tree.perform_merge_of_ok hload).2]
        rfl
      next => cases h
    | _ => cases h
  · rintro ⟨⟨name, source, t, rfl, hplace, ht, hyields⟩, -⟩
    rw [layer?_tree hplace ht, Tree.layer?_eq_some_iff]
    exact ⟨source, rfl, hyields⟩

theorem step_of_reads (name : String) {c : Tree.Command} (h : c.Reads) :
    ∃ journal, (s.step (.tree name c)).1 = { s with journal } :=
  step_of_same fun _ _ => Tree.perform_of_reads h

theorem step_of_error {name : String} {c : Tree.Command} {fault : Fault}
    (h : (s.step (.tree name c)).2 = .error fault) :
    ∃ journal, (s.step (.tree name c)).1 = { s with journal } := by
  apply step_of_same
  intro t ht
  obtain ⟨place, hplace, hget⟩ := Option.bind_eq_some_iff.1 ht
  rw [step_tree hplace hget, record] at h
  cases hresult : (t.perform s.surroundings c).2.result with
  | ok answer =>
    rw [hresult] at h
    cases h
  | error halt => exact Tree.perform_of_error hresult

end Steps

/-! ### Runs of a session -/

def run (s : Session) (steps : List Step) : Session :=
  steps.foldl (fun s step => (s.step step).1) s

/-- The layers that some steps merge into the tree at a place. -/
def layers (place : Nat) : Session → List Step → List Layer
  | _, [] => []
  | s, step :: rest => (s.layer? place step).toList ++ layers place (s.step step).1 rest

theorem dataAt_run (s : Session) (place : Nat) (steps : List Step) :
    (s.run steps).dataAt place = (s.layers place steps).foldl Layer.lay (s.dataAt place) := by
  induction steps generalizing s with
  | nil => rfl
  | cons step rest ih =>
    have hrest := ih (s.step step).1
    rw [dataAt_step] at hrest
    rw [layers, List.foldl_append]
    change ((s.step step).1.run rest).dataAt place = _
    rw [hrest]
    cases s.layer? place step <;> rfl

theorem dataAt_start (surroundings : Surroundings) (first : String) (place : Nat) :
    (start surroundings first).dataAt place = [] := by
  cases place <;> rfl

/-- After any steps, the data of a tree are the layers of the merges that succeeded, each in its
    place on those before it; a step that fails or reads has no part in them. -/
theorem data_from_layers (surroundings : Surroundings) (first : String) (steps : List Step) :
    (∀ name t, ((start surroundings first).run steps).tree? name = some t →
      ∃ place, ((start surroundings first).run steps).handles.lookup name = some place ∧
        (((start surroundings first).run steps).step (.tree name .raw)).2 =
          .ok (.table (((start surroundings first).layers place steps).foldl Layer.lay []))) ∧
    (∀ (s : Session) (place : Nat) (step : Step) (layer : Layer),
      s.layer? place step = some layer ↔ s.Adds place step layer) ∧
    ∀ (s : Session) (name : String) (c : Tree.Command),
      (c.Reads ∨ ∃ fault, (s.step (.tree name c)).2 = .error fault) →
        ∃ journal, (s.step (.tree name c)).1 = { s with journal } := by
  refine ⟨?_, fun s place step layer => layer?_eq_some_iff, ?_⟩
  · intro name t ht
    obtain ⟨place, hplace, hget⟩ := Option.bind_eq_some_iff.1 ht
    refine ⟨place, hplace, ?_⟩
    have hdata := dataAt_run (start surroundings first) place steps
    rw [dataAt_start, dataAt_of_getElem? hget] at hdata
    rw [step_tree hplace hget, ← hdata]
    rfl
  · rintro s name c (h | ⟨fault, h⟩)
    · exact step_of_reads name h
    · exact step_of_error h

/-! ### A run with a failure -/

namespace Failing

/-- An environment with a parser for its overlays and one for all other files. -/
def plan : Tree.Plan :=
  ⟨some "prod", false, [⟨3, .fixed "overlay" [".prod"] [("y", .integer 2)]⟩,
    ⟨4, .fixed "base" ["a"] [("x", .integer 1)]⟩], []⟩

/-- A file with an overlay, a number that is no layer, a table underneath, and a read. -/
def steps : List Step :=
  [.build "tree" plan,
    .tree "tree" (.merge (.file "a") .onTop),
    .tree "tree" (.merge (.value (.integer 3)) .onTop),
    .tree "tree" (.merge (.table [("x", .integer 4), ("z", .integer 5)]) ⟨KeyPath.root, true⟩),
    .tree "tree" (.get ⟨["x"]⟩)]

theorem lookup_steps : ((start ⟨[], []⟩ "first").run steps).handles.lookup "tree" = some 1 := by
  cbv

theorem lay_steps :
    ((start ⟨[], []⟩ "first").layers 1 steps).foldl Layer.lay [] =
      [("x", .integer 1), ("y", .integer 2), ("z", .integer 5)] := by
  cbv

theorem raw_after_steps :
    (((start ⟨[], []⟩ "first").run steps).step (.tree "tree" .raw)).2 =
      .ok (.table [("x", .integer 1), ("y", .integer 2), ("z", .integer 5)]) := by
  have hsome : (((start ⟨[], []⟩ "first").run steps).tree? "tree").isSome = true := by cbv
  obtain ⟨t, ht⟩ := Option.isSome_iff_exists.1 hsome
  obtain ⟨place, hplace, hraw⟩ := (data_from_layers ⟨[], []⟩ "first" steps).1 "tree" t ht
  rw [lookup_steps] at hplace
  obtain rfl := Option.some.inj hplace
  rw [hraw, lay_steps]

end Failing

end Session

end LayeredConfig
