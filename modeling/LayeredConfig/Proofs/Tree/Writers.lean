/-
  LayeredConfig/Proofs/Tree/Writers.lean
  ======================================
  **Several writers on one tree.**

  Every writer has a handle of the tree and a list of layers to merge through it.
  A merge has the tree to itself while it is going on, so what the writers do is
  one merge after the other, in the order in which their turns come (`Turns`).

  If any two of all the layers are compatible, the order does not matter, and no
  layer is lost (`writes_in_any_order`).  A merge changes nothing but the data of
  the tree, so what the others find at their sources stays the same (`step_write`),
  and what is left to show is a law of tables.
-/
import LayeredConfig.Proofs.Tree.Layers
import LayeredConfig.Proofs.Tree.UnderPath
import LayeredConfig.Proofs.Value.Compatible

namespace LayeredConfig.Session

/-- A merge on top of everything, through a handle of the tree. -/
structure Write where
  handle : String
  source : Source
  under : KeyPath
  /-- What is found at the source. -/
  table : Table

namespace Write

def step (w : Write) : Step := .tree w.handle (.merge w.source ⟨w.under, false⟩)

def layer (w : Write) : Table := Table.nestUnder w.under.segments w.table

/-- The handle stands for the tree at a place, whose loader finds the table at the source. -/
structure Reaches (w : Write) (s : Session) (place : Nat) (loader : Loader) : Prop where
  handle : s.handles.lookup w.handle = some place
  yields : loader.Yields s.surroundings w.source w.table
  ordered : w.table.Ordered

end Write

/-! ### Turns -/

/-- One of the writers after the other takes its turn and makes the next write on its list, until
    all lists are empty. -/
inductive Turns : (writers : List (List Write)) → (order : List Write) → Prop where
  | done {writers : List (List Write)} : (∀ list ∈ writers, list = []) → Turns writers []
  | turn {before behind : List (List Write)} {w : Write} {list order : List Write} :
      Turns (before ++ list :: behind) order → Turns (before ++ (w :: list) :: behind) (w :: order)

/-- However the turns come, every write is made once. -/
theorem Turns.perm {writers : List (List Write)} {order : List Write} (h : Turns writers order) :
    order.Perm writers.flatten := by
  induction h with
  | done hempty =>
    rw [List.flatten_eq_nil_iff.2 hempty]
  | @turn before behind w list order _ ih =>
    simp only [List.flatten_append, List.flatten_cons, List.cons_append] at ih ⊢
    exact (ih.cons w).trans List.perm_middle.symm

/-! ### Merges one after the other -/

section Writes

variable {s : Session} {place : Nat} {t : Tree}

/-- A write lays its layer over the data of its tree; handles and surroundings stay. -/
theorem step_write {w : Write} (ht : s.trees[place]? = some t) (hw : w.Reaches s place t.loader) :
    (s.step w.step).1.handles = s.handles ∧ (s.step w.step).1.surroundings = s.surroundings ∧
      (s.step w.step).1.trees[place]? =
        some { t with data := Table.deepMerge t.data w.layer } := by
  have hload := Loader.load_eq_ok_iff.2 hw.yields
  have hperform : (t.perform s.surroundings (.merge w.source ⟨w.under, false⟩)).1 = _ :=
    (Tree.perform_merge_of_ok hload).1
  rw [Placement.apply_onTop rfl] at hperform
  rw [Write.step, step_tree hw.handle ht, hperform]
  refine ⟨rfl, rfl, ?_⟩
  exact List.getElem?_set_self (List.getElem?_eq_some_iff.1 ht).1

theorem Write.Reaches.step {w w' : Write} {loader : Loader} (h : w'.Reaches s place loader)
    (hhandles : (s.step w.step).1.handles = s.handles)
    (hsurroundings : (s.step w.step).1.surroundings = s.surroundings) :
    w'.Reaches (s.step w.step).1 place loader :=
  ⟨hhandles ▸ h.handle, hsurroundings ▸ h.yields, h.ordered⟩

theorem run_writes {writes : List Write} (ht : s.trees[place]? = some t)
    (hwrites : ∀ w ∈ writes, w.Reaches s place t.loader) :
    (s.run (writes.map Write.step)).handles = s.handles ∧
      (s.run (writes.map Write.step)).trees[place]? =
        some { t with data := (writes.map Write.layer).foldl Table.deepMerge t.data } := by
  induction writes generalizing s t with
  | nil => exact ⟨rfl, ht⟩
  | cons w rest ih =>
    obtain ⟨hhandles, hsurroundings, htree⟩ := step_write ht (hwrites w List.mem_cons_self)
    have hrest : ∀ w' ∈ rest, w'.Reaches (s.step w.step).1 place t.loader := by
      intro w' hw'
      exact (hwrites w' (List.mem_cons_of_mem _ hw')).step hhandles hsurroundings
    obtain ⟨hhandles', htree'⟩ := ih htree hrest
    exact ⟨hhandles'.trans hhandles, htree'⟩

theorem peaceful_layers {loader : Loader} {writes : List Write}
    (hwrites : ∀ w ∈ writes, w.Reaches s place loader)
    (hcompatible : (writes.map Write.layer).Pairwise Table.Compatible) :
    Table.Peaceful (writes.map Write.layer) := by
  apply Table.Peaceful.of_pairwise _ hcompatible
  intro layer hlayer
  obtain ⟨w, hw, rfl⟩ := List.mem_map.1 hlayer
  exact (hwrites w hw).ordered.nestUnder _

/-- The raw data after writes in one order are those after the writes in another one. -/
theorem raw_run_writes {writes order : List Write} (ht : s.trees[place]? = some t)
    (hdata : t.data.Ordered) (hwrites : ∀ w ∈ writes, w.Reaches s place t.loader)
    (hcompatible : (writes.map Write.layer).Pairwise Table.Compatible)
    (horder : order.Perm writes) {name : String} (hname : s.handles.lookup name = some place) :
    ((s.run (order.map Write.step)).step (.tree name .raw)).2 =
      .ok (.table ((writes.map Write.layer).foldl Table.deepMerge t.data)) := by
  have hreach : ∀ w ∈ order, w.Reaches s place t.loader := by
    intro w hw
    exact hwrites w (horder.mem_iff.1 hw)
  obtain ⟨hhandles, htree⟩ := run_writes ht hreach
  have hsame := Table.foldl_deepMerge_perm hdata (peaceful_layers hwrites hcompatible)
    (horder.symm.map Write.layer)
  rw [step_tree (hhandles ▸ hname) htree, hsame]
  rfl

/-- **Layers that do not conflict may be merged in any order.**  Whatever the data were before, and
    whichever writer comes first each time, all handles of the tree show the same data in the end,
    and what a layer holds and is no table is found there at its path. -/
theorem writes_in_any_order (ht : s.trees[place]? = some t) (hdata : t.data.Ordered)
    {writes : List Write} (hwrites : ∀ w ∈ writes, w.Reaches s place t.loader)
    (hcompatible : (writes.map Write.layer).Pairwise Table.Compatible) :
    ∃ data : Table,
      (∀ order : List Write, order.Perm writes → ∀ name, s.handles.lookup name = some place →
        ((s.run (order.map Write.step)).step (.tree name .raw)).2 = .ok (.table data)) ∧
      (∀ writers : List (List Write), writers.flatten.Perm writes →
        ∀ order, Turns writers order → ∀ name, s.handles.lookup name = some place →
          ((s.run (order.map Write.step)).step (.tree name .raw)).2 = .ok (.table data)) ∧
      ∀ w ∈ writes, ∀ path v, w.layer.at? path = some v → v.IsLeaf → data.at? path = some v := by
  refine ⟨(writes.map Write.layer).foldl Table.deepMerge t.data, ?_, ?_, ?_⟩
  · intro order horder name hname
    exact raw_run_writes ht hdata hwrites hcompatible horder hname
  · intro writers hwriters order hturns name hname
    exact raw_run_writes ht hdata hwrites hcompatible (hturns.perm.trans hwriters) hname
  · intro w hw path v hv hleaf
    exact Table.at?_foldl_deepMerge_of_leaf hdata (peaceful_layers hwrites hcompatible)
      (List.mem_map_of_mem hw) hv hleaf

end Writes

/-! ### Two writers for one service -/

namespace TwoWriters

/-- A string stands where the layers have a table. -/
def tree : Tree where
  data := [("service", .string "none"), ("version", .integer 1)]
  chain := []
  loader := Loader.empty

def session : Session := ⟨⟨[], []⟩, [tree], [("first", 0), ("second", 0)], [], [], [], []⟩

def name : Write :=
  ⟨"first", .table [("name", .string "web")], ⟨["service"]⟩, [("name", .string "web")]⟩

def port : Write := ⟨"second", .pairs [("service.port", .integer 80)], KeyPath.root,
  [("service", .table [("port", .integer 80)])]⟩

theorem ordered_tree : tree.data.Ordered := by
  simp only [tree, Table.Ordered, Value.Ordered, Value.OrderedEntries]
  decide

theorem name_reaches : name.Reaches session 0 tree.loader :=
  ⟨by decide, .table _, by simp [name, Table.Ordered, Value.Ordered, Value.OrderedEntries]⟩

theorem port_reaches : port.Reaches session 0 tree.loader :=
  ⟨by decide, .pairs _, by simp [port, Table.Ordered, Value.Ordered, Value.OrderedEntries]⟩

theorem reaches : ∀ w ∈ [name, port], w.Reaches session 0 tree.loader := by
  simp [name_reaches, port_reaches]

theorem compatible : ([name, port].map Write.layer).Pairwise Table.Compatible := by
  have h : Table.Compatible [("name", .string "web")] [("port", .integer 80)] := by
    apply Table.Compatible.of_disjoint
    intro key
    by_cases hkey : "name" = key
    · subst hkey
      exact .inr rfl
    · exact .inl (if_neg hkey)
  exact List.pairwise_pair.2 (h.nestUnder ["service"])

/-- Whoever comes first, the name and the port are there in the end. -/
theorem both_of_two_writers :
    ∃ data : Table,
      ((session.run [name.step, port.step]).step (.tree "first" .raw)).2 = .ok (.table data) ∧
      ((session.run [port.step, name.step]).step (.tree "second" .raw)).2 = .ok (.table data) ∧
      data.at? ["service", "name"] = some (.string "web") ∧
      data.at? ["service", "port"] = some (.integer 80) := by
  have htree : session.trees[0]? = some tree := rfl
  obtain ⟨data, hraw, hturns, hleaf⟩ :=
    writes_in_any_order htree ordered_tree reaches compatible
  have hname : Turns [[name], []] [name] := @Turns.turn [] [[]] name [] [] (.done (by simp))
  have hport : Turns [[name], [port]] [port, name] := @Turns.turn [[name]] [] port [] [name] hname
  refine ⟨data, hraw [name, port] (.refl _) "first" (by decide),
    hturns [[name], [port]] (.refl _) [port, name] hport "second" (by decide), ?_, ?_⟩
  · exact hleaf name List.mem_cons_self _ _ (by cbv) (Value.isLeaf_string _)
  · exact hleaf port (by simp) _ _ (by cbv) (Value.isLeaf_integer _)

end TwoWriters

end LayeredConfig.Session
